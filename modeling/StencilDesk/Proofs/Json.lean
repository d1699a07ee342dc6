import Mathlib.Data.Option.Basic
import StencilDesk.Json

/-!
# Printed values are read back

What is printed of a value without numbers is read as that value, at every level of indentation
and whatever follows. The fuel of the reader is bounded by the length of the text.
-/

namespace StencilDesk
namespace Json

inductive NumberFree : Json → Prop where
  | null : NumberFree .null
  | bool (value : Bool) : NumberFree (.bool value)
  | string (value : String) : NumberFree (.string value)
  | array {items : List Json} (h : ∀ item ∈ items, NumberFree item) : NumberFree (.array items)
  | object {fields : List (String × Json)} (h : ∀ field ∈ fields, NumberFree field.2) :
      NumberFree (.object fields)

/-!
## Space
-/

theorem skipSpace_cons {c : Char} (h : isSpace c = false) (rest : List Char) :
    skipSpace (c :: rest) = c :: rest := by
  unfold skipSpace
  rw [List.dropWhile_cons_of_neg (by simp [h])]

theorem skipSpace_blank (rest : List Char) : skipSpace (' ' :: rest) = skipSpace rest := by
  unfold skipSpace
  rw [List.dropWhile_cons_of_pos (by rfl)]

theorem skipSpace_newLine (level : Nat) (text : List Char) :
    skipSpace (newLine level ++ text) = skipSpace text := by
  unfold skipSpace
  apply List.dropWhile_append_of_pos
  intro c hmem
  rcases List.mem_cons.mp hmem with hline | hspace
  · rw [hline]
    rfl
  · rw [List.eq_of_mem_replicate hspace]
    rfl

/-!
## Text in quotes
-/

theorem natural?_hexChar : ∀ n < 32,
    Text.natural? 16 ['0', '0', hexChar (n / 16), hexChar (n % 16)] = some n := by
  decide

theorem readText?_quote (fuel : Nat) (rest : List Char) :
    readText? (fuel + 1) ('"' :: rest) = some ([], rest) := by
  simp [readText?]

theorem readText?_letter {letter c : Char} (fuel : Nat) (rest : List Char)
    (h : escaped? letter = some c) :
    readText? (fuel + 1) ('\\' :: letter :: rest) =
      (readText? fuel rest).map fun read => (c :: read.1, read.2) := by
  have hletter : letter ≠ 'u' := by
    intro hnumber
    rw [hnumber] at h
    cases h
  cases hread : readText? fuel rest <;> simp [readText?, h, hread]

theorem readText?_number {n : Nat} (fuel : Nat) (rest : List Char) (h : n < 32) :
    readText? (fuel + 1)
        ('\\' :: 'u' :: '0' :: '0' :: hexChar (n / 16) :: hexChar (n % 16) :: rest) =
      (readText? fuel rest).map fun read => (Char.ofNat n :: read.1, read.2) := by
  have hlow : ¬(0xD800 ≤ n ∧ n < 0xDC00) := by omega
  have hhigh : ¬(0xDC00 ≤ n ∧ n < 0xE000) := by omega
  have hnumber : readEscapedNumber? ('0' :: '0' :: hexChar (n / 16) :: hexChar (n % 16) :: rest) =
      some (Char.ofNat n, rest) := by
    simp [readEscapedNumber?, readHex?, natural?_hexChar n h, hlow, hhigh]
  cases hread : readText? fuel rest <;> simp [readText?, hnumber, hread]

theorem readText?_plain {c : Char} (fuel : Nat) (rest : List Char) (hquote : c ≠ '"')
    (hstroke : c ≠ '\\') (h : ¬c.toNat < 0x20) :
    readText? (fuel + 1) (c :: rest) =
      (readText? fuel rest).map fun read => (c :: read.1, read.2) := by
  cases hread : readText? fuel rest <;> simp [readText?, hquote, hstroke, h, hread]

theorem escapedChar_cases (c : Char) :
    (∃ letter, escapedChar c = ['\\', letter] ∧ escaped? letter = some c) ∨
      (c.toNat < 0x20 ∧ escapedChar c =
        ['\\', 'u', '0', '0', hexChar (c.toNat / 16), hexChar (c.toNat % 16)]) ∨
      (c ≠ '"' ∧ c ≠ '\\' ∧ ¬c.toNat < 0x20 ∧ escapedChar c = [c]) := by
  by_cases hshort : c ∈ ['"', '\\', '\n', '\r', '\t', '\x08', '\x0c']
  · left
    simp only [List.mem_cons, List.not_mem_nil, or_false] at hshort
    rcases hshort with rfl | rfl | rfl | rfl | rfl | rfl | rfl <;> exact ⟨_, rfl, rfl⟩
  · simp only [List.mem_cons, List.not_mem_nil, or_false, not_or] at hshort
    rcases hshort with ⟨hquote, hstroke, hline, hreturn, htab, hback, hfeed⟩
    right
    by_cases hcontrol : c.toNat < 0x20
    · left
      simp [escapedChar, hquote, hstroke, hline, hreturn, htab, hback, hfeed, hcontrol]
    · right
      refine ⟨hquote, hstroke, hcontrol, ?_⟩
      simp [escapedChar, hquote, hstroke, hline, hreturn, htab, hback, hfeed, hcontrol]

/-- One character takes one unit of fuel, however it is written. -/
theorem readText?_escapedChar (fuel : Nat) (c : Char) (rest : List Char) :
    readText? (fuel + 1) (escapedChar c ++ rest) =
      (readText? fuel rest).map fun read => (c :: read.1, read.2) := by
  rcases escapedChar_cases c with
    ⟨letter, hwritten, hread⟩ | ⟨hcontrol, hwritten⟩ | ⟨hquote, hstroke, hcontrol, hwritten⟩
  · rw [hwritten]
    exact readText?_letter fuel rest hread
  · have hread := readText?_number fuel rest hcontrol
    rw [Char.ofNat_toNat] at hread
    rw [hwritten]
    exact hread
  · rw [hwritten]
    exact readText?_plain fuel rest hquote hstroke hcontrol

theorem readText?_flatMap {fuel : Nat} {text : List Char} (h : text.length < fuel)
    (rest : List Char) :
    readText? fuel (text.flatMap escapedChar ++ '"' :: rest) = some (text, rest) := by
  induction text generalizing fuel with
  | nil =>
      cases fuel with
      | zero => cases h
      | succ fuel => exact readText?_quote fuel rest
  | cons c text ih =>
      cases fuel with
      | zero => cases h
      | succ fuel =>
          rw [List.flatMap_cons, List.append_assoc, readText?_escapedChar,
            ih (Nat.lt_of_succ_lt_succ h)]
          rfl

theorem length_le_flatMap_escapedChar (text : List Char) :
    text.length ≤ (text.flatMap escapedChar).length := by
  induction text with
  | nil => exact Nat.le_refl 0
  | cons c text ih =>
      have hone : 1 ≤ (escapedChar c).length := by
        unfold escapedChar
        repeat' split
        all_goals simp
      rw [List.flatMap_cons, List.length_append, List.length_cons]
      omega

theorem readText?_quoted (text : String) (rest : List Char) :
    readText? ((text.toList.flatMap escapedChar ++ '"' :: rest).length + 1)
      (text.toList.flatMap escapedChar ++ '"' :: rest) = some (text.toList, rest) := by
  apply readText?_flatMap
  have hlength := length_le_flatMap_escapedChar text.toList
  rw [List.length_append]
  omega

theorem quoted_append (text : String) (rest : List Char) :
    quoted text ++ rest = '"' :: (text.toList.flatMap escapedChar ++ '"' :: rest) := by
  simp [quoted]

/-!
## The first character of a value
-/

theorem prettyFrom_eq_cons {value : Json} (h : NumberFree value) (level : Nat) :
    ∃ c text, prettyFrom level value = c :: text ∧ isSpace c = false ∧ c ≠ ']' := by
  cases h with
  | null => exact ⟨'n', _, rfl, rfl, by decide⟩
  | bool value =>
      cases value with
      | true => exact ⟨'t', _, rfl, rfl, by decide⟩
      | false => exact ⟨'f', _, rfl, rfl, by decide⟩
  | string value => exact ⟨'"', _, rfl, rfl, by decide⟩
  | array h =>
      rename_i items
      cases items with
      | nil => exact ⟨'[', _, by rw [prettyFrom], rfl, by decide⟩
      | cons item items => exact ⟨'[', _, by rw [prettyFrom]; rfl, rfl, by decide⟩
  | object h =>
      rename_i fields
      cases fields with
      | nil => exact ⟨'{', _, by rw [prettyFrom], rfl, by decide⟩
      | cons field fields =>
          rcases field with ⟨key, value⟩
          exact ⟨'{', _, by rw [prettyFrom]; rfl, rfl, by decide⟩

theorem skipSpace_prettyFrom {value : Json} (h : NumberFree value) (level : Nat)
    (rest : List Char) :
    skipSpace (prettyFrom level value ++ rest) = prettyFrom level value ++ rest := by
  rcases prettyFrom_eq_cons h level with ⟨c, text, hprinted, hspace, _⟩
  rw [hprinted, List.cons_append, skipSpace_cons hspace]

/-!
## What the reader does
-/

section
variable {fuel : Nat} {text rest tail : List Char}

theorem readValue?_text (h : skipSpace text = '"' :: rest) :
    readValue? (fuel + 1) text =
      (readText? (rest.length + 1) rest).map fun read =>
        (.string (String.ofList read.1), read.2) := by
  simp [readValue?, h]

theorem readValue?_emptyArray (h : skipSpace text = '[' :: rest)
    (hrest : skipSpace rest = ']' :: tail) :
    readValue? (fuel + 1) text = some (.array [], tail) := by
  simp [readValue?, h, hrest]

theorem readValue?_array {c : Char} (h : skipSpace text = '[' :: rest)
    (hrest : skipSpace rest = c :: tail) (hc : c ≠ ']') :
    readValue? (fuel + 1) text =
      (readItems? fuel (c :: tail)).map fun read => (.array read.1, read.2) := by
  simp [readValue?, h, hrest, hc]

theorem readValue?_emptyObject (h : skipSpace text = '{' :: rest)
    (hrest : skipSpace rest = '}' :: tail) :
    readValue? (fuel + 1) text = some (.object [], tail) := by
  simp [readValue?, h, hrest]

theorem readValue?_object {c : Char} (h : skipSpace text = '{' :: rest)
    (hrest : skipSpace rest = c :: tail) (hc : c ≠ '}') :
    readValue? (fuel + 1) text =
      (readFields? fuel (c :: tail)).map fun read => (.object read.1, read.2) := by
  simp [readValue?, h, hrest, hc]

theorem readItems?_last {item : Json} (h : readValue? fuel text = some (item, rest))
    (hrest : skipSpace rest = ']' :: tail) :
    readItems? (fuel + 1) text = some ([item], tail) := by
  simp [readItems?, h, hrest]

theorem readItems?_more {item : Json} {items : List Json} {after : List Char}
    (h : readValue? fuel text = some (item, rest)) (hrest : skipSpace rest = ',' :: tail)
    (htail : readItems? fuel tail = some (items, after)) :
    readItems? (fuel + 1) text = some (item :: items, after) := by
  simp [readItems?, h, hrest, htail]

theorem readFields?_last {key : String} {value : Json} {behindKey behindColon : List Char}
    (h : skipSpace text = '"' :: rest)
    (hkey : readText? (rest.length + 1) rest = some (key.toList, behindKey))
    (hcolon : skipSpace behindKey = ':' :: behindColon)
    (hvalue : readValue? fuel behindColon = some (value, tail)) {after : List Char}
    (htail : skipSpace tail = '}' :: after) :
    readFields? (fuel + 1) text = some ([(key, value)], after) := by
  simp [readFields?, h, hkey, hcolon, hvalue, htail]

theorem readFields?_more {key : String} {value : Json} {behindKey behindColon : List Char}
    (h : skipSpace text = '"' :: rest)
    (hkey : readText? (rest.length + 1) rest = some (key.toList, behindKey))
    (hcolon : skipSpace behindKey = ':' :: behindColon)
    (hvalue : readValue? fuel behindColon = some (value, tail)) {behindComma after : List Char}
    (htail : skipSpace tail = ',' :: behindComma) {fields : List (String × Json)}
    (hfields : readFields? fuel behindComma = some (fields, after)) :
    readFields? (fuel + 1) text = some ((key, value) :: fields, after) := by
  simp [readFields?, h, hkey, hcolon, hvalue, htail, hfields]

end

/-!
## Reading what was printed
-/

def Reads (value : Json) : Prop :=
  ∀ level fuel text rest, (prettyFrom level value).length ≤ fuel →
    skipSpace text = prettyFrom level value ++ rest →
    readValue? fuel text = some (value, rest)

theorem readItems?_pretty {item : Json} {items : List Json}
    (hfree : ∀ other ∈ item :: items, NumberFree other)
    (hreads : ∀ other ∈ item :: items, Reads other) {level outer fuel : Nat}
    {text rest : List Char}
    (hfuel : (prettyFrom level item ++ prettyItems level items).length < fuel)
    (htext : skipSpace text =
      prettyFrom level item ++ (prettyItems level items ++ (newLine outer ++ ']' :: rest))) :
    readItems? fuel text = some (item :: items, rest) := by
  induction items generalizing item fuel text with
  | nil =>
      cases fuel with
      | zero => cases hfuel
      | succ fuel =>
          rw [List.length_append] at hfuel
          have hitem := hreads item List.mem_cons_self level fuel text _ (by omega) htext
          apply readItems?_last hitem
          rw [prettyItems, List.nil_append, skipSpace_newLine, skipSpace_cons rfl]
  | cons next items ih =>
      cases fuel with
      | zero => cases hfuel
      | succ fuel =>
          rw [List.length_append, prettyItems, List.length_append, List.length_append,
            List.length_cons] at hfuel
          have hitem := hreads item List.mem_cons_self level fuel text _ (by omega) htext
          have hnext := hfree next (List.mem_cons_of_mem _ List.mem_cons_self)
          have htail : skipSpace (newLine level ++ (prettyFrom level next ++
              (prettyItems level items ++ (newLine outer ++ ']' :: rest)))) =
              prettyFrom level next ++
                (prettyItems level items ++ (newLine outer ++ ']' :: rest)) := by
            rw [skipSpace_newLine, skipSpace_prettyFrom hnext]
          apply readItems?_more hitem
          · rw [prettyItems, List.append_assoc, List.append_assoc, List.cons_append,
              skipSpace_cons rfl]
          · apply ih
            · intro other hmem
              exact hfree other (List.mem_cons_of_mem _ hmem)
            · intro other hmem
              exact hreads other (List.mem_cons_of_mem _ hmem)
            · rw [List.length_append]
              omega
            · exact htail

theorem Reads.behindBlank {value : Json} (h : Reads value) (hfree : NumberFree value)
    {level fuel : Nat} (hfuel : (prettyFrom level value).length ≤ fuel) (rest : List Char) :
    readValue? fuel (' ' :: (prettyFrom level value ++ rest)) = some (value, rest) := by
  apply h level fuel _ rest hfuel
  rw [skipSpace_blank, skipSpace_prettyFrom hfree]

theorem readFields?_pretty {key : String} {value : Json} {fields : List (String × Json)}
    (hfree : ∀ other ∈ (key, value) :: fields, NumberFree other.2)
    (hreads : ∀ other ∈ (key, value) :: fields, Reads other.2) {level outer fuel : Nat}
    {text rest : List Char}
    (hfuel : (prettyFrom level value ++ prettyFields level fields).length < fuel)
    (htext : skipSpace text = quoted key ++ (':' :: ' ' :: (prettyFrom level value ++
      (prettyFields level fields ++ (newLine outer ++ '}' :: rest))))) :
    readFields? fuel text = some ((key, value) :: fields, rest) := by
  -- Each field takes one unit of fuel and at least one character, so the length bounds the fuel.
  induction fields generalizing key value fuel text with
  | nil =>
      cases fuel with
      | zero => cases hfuel
      | succ fuel =>
          rw [List.length_append] at hfuel
          rw [quoted_append] at htext
          have hfirst : Reads value := hreads (key, value) List.mem_cons_self
          have hvalue := hfirst.behindBlank (hfree (key, value) List.mem_cons_self)
            (Nat.le_of_lt_succ (Nat.lt_of_le_of_lt (Nat.le_add_right _ _) hfuel))
          apply readFields?_last htext (readText?_quoted key _) (skipSpace_cons rfl _) (hvalue _)
          rw [prettyFields, List.nil_append, skipSpace_newLine, skipSpace_cons rfl]
  | cons next fields ih =>
      rcases next with ⟨nextKey, nextValue⟩
      cases fuel with
      | zero => cases hfuel
      | succ fuel =>
          rw [List.length_append] at hfuel
          rw [quoted_append] at htext
          have hfirst : Reads value := hreads (key, value) List.mem_cons_self
          have hvalue := hfirst.behindBlank (hfree (key, value) List.mem_cons_self)
            (Nat.le_of_lt_succ (Nat.lt_of_le_of_lt (Nat.le_add_right _ _) hfuel))
          have hbehind : prettyFields level ((nextKey, nextValue) :: fields) ++
              (newLine outer ++ '}' :: rest) =
              ',' :: (newLine level ++ (quoted nextKey ++ (':' :: ' ' ::
                (prettyFrom level nextValue ++
                  (prettyFields level fields ++ (newLine outer ++ '}' :: rest)))))) := by
            simp [prettyFields]
          rw [hbehind] at htext
          apply readFields?_more htext (readText?_quoted key _) (skipSpace_cons rfl _) (hvalue _)
            (skipSpace_cons rfl _)
          apply ih
          · intro other hmem
            exact hfree other (List.mem_cons_of_mem _ hmem)
          · intro other hmem
            exact hreads other (List.mem_cons_of_mem _ hmem)
          · rw [prettyFields, List.length_append, List.length_append, List.length_cons,
              List.length_cons] at hfuel
            rw [List.length_append]
            omega
          · rw [skipSpace_newLine, quoted_append, skipSpace_cons rfl]

theorem readWord?_append (word : List Char) (value : Json) (rest : List Char) :
    readWord? word value (word ++ rest) = some (value, rest) := by
  have hstart : word.isPrefixOf (word ++ rest) = true := by
    rw [List.isPrefixOf_iff_prefix]
    exact List.prefix_append word rest
  unfold readWord?
  rw [if_pos hstart, List.drop_left]

theorem reads_null : Reads .null := by
  intro level fuel text rest hfuel htext
  cases fuel with
  | zero => cases hfuel
  | succ fuel =>
      have hword : skipSpace text = 'n' :: ("ull".toList ++ rest) := htext
      simp only [readValue?, hword]
      exact readWord?_append _ _ _

theorem reads_bool (value : Bool) : Reads (.bool value) := by
  intro level fuel text rest hfuel htext
  cases fuel with
  | zero => cases value <;> cases hfuel
  | succ fuel =>
      cases value with
      | false =>
          have hword : skipSpace text = 'f' :: ("alse".toList ++ rest) := htext
          simp only [readValue?, hword]
          exact readWord?_append _ _ _
      | true =>
          have hword : skipSpace text = 't' :: ("rue".toList ++ rest) := htext
          simp only [readValue?, hword]
          exact readWord?_append _ _ _

theorem reads_string (value : String) : Reads (.string value) := by
  intro level fuel text rest hfuel htext
  cases fuel with
  | zero => cases hfuel
  | succ fuel =>
      have hquoted : skipSpace text = quoted value ++ rest := by
        rw [htext, prettyFrom]
      rw [quoted_append] at hquoted
      rw [readValue?_text hquoted, readText?_quoted]
      simp

theorem reads_array {items : List Json} (hfree : ∀ item ∈ items, NumberFree item)
    (hreads : ∀ item ∈ items, Reads item) : Reads (.array items) := by
  intro level fuel text rest hfuel htext
  cases items with
  | nil =>
      rw [prettyFrom] at htext hfuel
      cases fuel with
      | zero => cases hfuel
      | succ fuel => exact readValue?_emptyArray htext (skipSpace_cons rfl _)
  | cons item items =>
      rw [prettyFrom] at htext hfuel
      have hopen : skipSpace text = '[' :: (newLine (level + 1) ++ (prettyFrom (level + 1) item ++
          (prettyItems (level + 1) items ++ (newLine level ++ ']' :: rest)))) := by
        simpa using htext
      have hitem := hfree item List.mem_cons_self
      rcases prettyFrom_eq_cons hitem (level + 1) with ⟨c, first, hprinted, hspace, hc⟩
      have hinside := skipSpace_prettyFrom hitem (level + 1)
        (prettyItems (level + 1) items ++ (newLine level ++ ']' :: rest))
      simp only [List.length_append, List.length_cons, List.length_nil] at hfuel
      cases fuel with
      | zero => omega
      | succ fuel =>
          have hlength : (prettyFrom (level + 1) item ++
              prettyItems (level + 1) items).length < fuel := by
            rw [List.length_append]
            omega
          have hread := readItems?_pretty hfree hreads hlength hinside
          rw [hprinted, List.cons_append] at hread hopen
          rw [readValue?_array hopen (by rw [skipSpace_newLine, skipSpace_cons hspace]) hc, hread]
          rfl

theorem reads_object {fields : List (String × Json)}
    (hfree : ∀ field ∈ fields, NumberFree field.2) (hreads : ∀ field ∈ fields, Reads field.2) :
    Reads (.object fields) := by
  intro level fuel text rest hfuel htext
  cases fields with
  | nil =>
      rw [prettyFrom] at htext hfuel
      cases fuel with
      | zero => cases hfuel
      | succ fuel => exact readValue?_emptyObject htext (skipSpace_cons rfl _)
  | cons field fields =>
      rcases field with ⟨key, value⟩
      rw [prettyFrom] at htext hfuel
      have hopen : skipSpace text = '{' :: (newLine (level + 1) ++ (quoted key ++
          (':' :: ' ' :: (prettyFrom (level + 1) value ++
            (prettyFields (level + 1) fields ++ (newLine level ++ '}' :: rest)))))) := by
        simpa using htext
      simp only [List.length_append, List.length_cons, List.length_nil] at hfuel
      cases fuel with
      | zero => omega
      | succ fuel =>
          have hinside : skipSpace (quoted key ++ (':' :: ' ' :: (prettyFrom (level + 1) value ++
              (prettyFields (level + 1) fields ++ (newLine level ++ '}' :: rest))))) =
              quoted key ++ (':' :: ' ' :: (prettyFrom (level + 1) value ++
                (prettyFields (level + 1) fields ++ (newLine level ++ '}' :: rest)))) := by
            rw [quoted_append, skipSpace_cons rfl]
          have hlength : (prettyFrom (level + 1) value ++
              prettyFields (level + 1) fields).length < fuel := by
            rw [List.length_append]
            omega
          have hread := readFields?_pretty hfree hreads hlength hinside
          rw [quoted_append] at hread hopen
          rw [readValue?_object hopen (by rw [skipSpace_newLine, skipSpace_cons rfl]) (by decide),
            hread]
          rfl

theorem NumberFree.reads {value : Json} (h : NumberFree value) : Reads value := by
  induction h with
  | null => exact reads_null
  | bool value => exact reads_bool value
  | string value => exact reads_string value
  | array hfree ih => exact reads_array hfree ih
  | object hfree ih => exact reads_object hfree ih

/-- A value without numbers is read back from its printed text. -/
theorem ofText?_pretty {value : Json} (h : NumberFree value) :
    ofText? (pretty value) = some value := by
  have hspace := skipSpace_prettyFrom h 0 []
  rw [List.append_nil] at hspace
  have hread := h.reads 0 (2 * (prettyFrom 0 value).length + 2) (prettyFrom 0 value) []
    (by omega) (by rw [hspace, List.append_nil])
  unfold ofText? pretty
  rw [String.toList_ofList, hread]
  rfl

end Json
end StencilDesk
