import StencilDesk.Template.Directive
import StencilDesk.Proofs.Text.Occurrences

/-!
# Tags as they are written

A tag is written with its name and its attributes between angle brackets. The tags of a text are
those that a scan finds; they bound scopes if they belong to a block directive, and neither close
themselves nor assign a value.
-/

namespace StencilDesk

namespace Text

theorem trimEnd_of_blank {text : List Char} (h : ∀ c ∈ text, isBlank c = true) :
    trimEnd text = [] := by
  induction text with
  | nil => rfl
  | cons c rest ih =>
      rw [List.forall_mem_cons] at h
      rw [trimEnd, ih h.2]
      exact if_pos h.1

theorem trimEnd_append_blank (front : List Char) {c : Char} {blanks : List Char}
    (hc : isBlank c = false) (h : ∀ blank ∈ blanks, isBlank blank = true) :
    trimEnd (front ++ c :: blanks) = front ++ [c] := by
  induction front with
  | nil =>
      rw [List.nil_append, trimEnd, trimEnd_of_blank h, hc]
      rfl
  | cons first front ih =>
      rw [List.cons_append, trimEnd, ih]
      cases front <;> rfl

theorem blank_or_exists_last (text : List Char) :
    (∀ c ∈ text, isBlank c = true) ∨
      ∃ front c blanks, text = front ++ c :: blanks ∧ isBlank c = false ∧
        ∀ blank ∈ blanks, isBlank blank = true := by
  induction text with
  | nil => exact .inl (List.forall_mem_nil _)
  | cons first rest ih =>
      rcases ih with hblank | ⟨front, c, blanks, hsplit, hc, hblanks⟩
      · cases hfirst : isBlank first with
        | true => exact .inl (List.forall_mem_cons.mpr ⟨hfirst, hblank⟩)
        | false => exact .inr ⟨[], first, rest, rfl, hfirst, hblank⟩
      · exact .inr ⟨first :: front, c, blanks, congrArg _ hsplit, hc, hblanks⟩

theorem getLast?_trimEnd_iff {text : List Char} {c : Char} (hc : isBlank c = false) :
    (trimEnd text).getLast? = some c ↔
      ∃ front blanks, text = front ++ c :: blanks ∧ ∀ blank ∈ blanks, isBlank blank = true := by
  constructor
  · intro h
    rcases blank_or_exists_last text with hblank | ⟨front, last, blanks, hsplit, hlast, hblanks⟩
    · rw [trimEnd_of_blank hblank] at h
      cases h
    · rw [hsplit, trimEnd_append_blank front hlast hblanks, List.getLast?_concat] at h
      cases h
      exact ⟨front, blanks, hsplit, hblanks⟩
  · rintro ⟨front, blanks, rfl, hblanks⟩
    rw [trimEnd_append_blank front hc hblanks, List.getLast?_concat]

theorem span_spec (p : Char → Bool) (text : List Char) :
    text = text.takeWhile p ++ text.dropWhile p ∧ (∀ c ∈ text.takeWhile p, p c = true) ∧
      ∀ c ∈ (text.dropWhile p).head?, p c = false := by
  refine ⟨List.takeWhile_append_dropWhile.symm, ?_, ?_⟩
  · intro c hc
    exact List.all_eq_true.mp List.all_takeWhile c hc
  · intro c hc
    have hfirst := List.head?_dropWhile_not p text
    rw [Option.mem_def.mp hc] at hfirst
    exact hfirst

theorem span_append {p : Char → Bool} {front behind : List Char} (hfront : ∀ c ∈ front, p c = true)
    (hbehind : ∀ c ∈ behind.head?, p c = false) :
    (front ++ behind).takeWhile p = front ∧ (front ++ behind).dropWhile p = behind := by
  rw [List.takeWhile_append_of_pos hfront, List.dropWhile_append_of_pos hfront]
  cases behind with
  | nil => exact ⟨List.append_nil _, rfl⟩
  | cons c rest =>
      have hc : p c = false := hbehind c rfl
      rw [List.takeWhile_cons_of_neg (by simp [hc]), List.dropWhile_cons_of_neg (by simp [hc])]
      exact ⟨List.append_nil _, rfl⟩

end Text

namespace Template
namespace Tag

/-!
## Spelling
-/

def opener (closing : Bool) : List Char :=
  if closing then ['<', '/', '#'] else ['<', '#']

def written (tag : Tag) : List Char :=
  opener tag.closing ++ (tag.name.toList ++ tag.attributes ++ ['>'])

/-- Holds of the tags that can be written: with a name of letters, as long as possible, and with
attributes up to the next bracket. -/
structure Proper (tag : Tag) : Prop where
  named : tag.name.toList ≠ []
  letters : ∀ c ∈ tag.name.toList, isNameChar c = true
  ended : ∀ c ∈ tag.attributes.head?, isNameChar c = false
  inside : '>' ∉ tag.attributes

def Spells (tag : Tag) (spelled : List Char) : Prop :=
  tag.Proper ∧ spelled = tag.written

/-- What is read as the body of a tag: its name, its attributes and the bracket behind them. -/
theorem body?_eq_some_iff {closing : Bool} {text : List Char} {tag : Tag} {size : Nat} :
    body? closing (opener closing).length text = some (tag, size) ↔
      tag.Proper ∧ tag.closing = closing ∧ size = tag.written.length ∧
        ∃ behind, opener closing ++ text = tag.written ++ behind := by
  constructor
  · intro h
    rw [body?] at h
    rcases Text.span_spec isNameChar text with ⟨htext, hletters, hended⟩
    rcases Text.span_spec (· != '>') (text.dropWhile isNameChar) with ⟨hrest, hinside, hbracket⟩
    split at h
    · cases h
    · next hfound =>
        rw [Bool.or_eq_true, not_or, List.isEmpty_iff, List.isEmpty_iff] at hfound
        rcases List.exists_cons_of_ne_nil hfound.2 with ⟨c, behind, hlast⟩
        rw [hlast] at hrest hbracket
        have hc : c = '>' := by simpa using hbracket c rfl
        rw [hc] at hrest
        cases h
        refine ⟨⟨?_, ?_, ?_, ?_⟩, rfl, ?_, behind, ?_⟩
        · rw [String.toList_ofList]
          exact hfound.1
        · rw [String.toList_ofList]
          exact hletters
        · intro first hfirst
          apply hended
          rw [hrest, List.head?_append, Option.mem_def.mp hfirst]
          rfl
        · intro hmem
          simpa using hinside _ hmem
        · simp only [written, String.toList_ofList, List.length_append, List.length_singleton]
          omega
        · rw [written, String.toList_ofList, List.append_assoc, List.append_assoc,
            List.append_assoc, List.singleton_append, ← hrest, ← htext]
  · rintro ⟨hproper, rfl, rfl, behind, hwritten⟩
    have htext : text = tag.name.toList ++ (tag.attributes ++ '>' :: behind) := by
      simpa [written] using hwritten
    have hinside : ∀ c ∈ tag.attributes, (c != '>') = true := by
      intro c hc
      rw [bne_iff_ne]
      rintro rfl
      exact hproper.inside hc
    have hended : ∀ c ∈ (tag.attributes ++ '>' :: behind).head?, isNameChar c = false := by
      intro c hc
      rw [List.head?_append] at hc
      cases hfirst : tag.attributes.head? with
      | none =>
          rw [hfirst] at hc
          cases hc
          rfl
      | some first =>
          rw [hfirst] at hc
          exact hproper.ended c (hfirst.trans hc)
    have hbracket : ∀ c ∈ ('>' :: behind).head?, (c != '>') = false := by
      intro c hc
      cases hc
      rfl
    rcases Text.span_append hproper.letters hended with ⟨hname, hbehind⟩
    rcases Text.span_append hinside hbracket with ⟨hattributes, hlast⟩
    have hfound : ¬(tag.name.toList.isEmpty || ('>' :: behind).isEmpty) = true := by
      simpa using hproper.named
    have hsize : (opener tag.closing).length + tag.name.toList.length + tag.attributes.length + 1 =
        tag.written.length := by
      simp only [written, List.length_append, List.length_singleton]
      omega
    rw [htext, body?, hname, hbehind, hattributes, hlast, if_neg hfound, String.ofList_toList,
      hsize]

/-- The tags that are recognised are those that can be written. -/
theorem recognises_spells : Text.Recognises recognise Spells where
  eq_some_iff := by
    intro text tag size
    constructor
    · intro h
      rw [recognise.eq_def] at h
      split at h
      · rcases body?_eq_some_iff.mp h with ⟨hproper, _, hsize, behind, htext⟩
        exact ⟨tag.written, behind, htext, hsize, hproper, rfl⟩
      · rcases body?_eq_some_iff.mp h with ⟨hproper, _, hsize, behind, htext⟩
        exact ⟨tag.written, behind, htext, hsize, hproper, rfl⟩
      · cases h
    · rintro ⟨spelled, behind, rfl, rfl, hproper, rfl⟩
      have hsplit : opener tag.closing ++ (tag.name.toList ++ tag.attributes ++ ['>'] ++ behind) =
          tag.written ++ behind := (List.append_assoc _ _ _).symm
      have hbody := body?_eq_some_iff.mpr ⟨hproper, rfl, rfl, behind, hsplit⟩
      rw [← hsplit]
      cases hclosing : tag.closing with
      | true =>
          rw [hclosing] at hbody
          exact hbody
      | false =>
          rw [hclosing] at hbody
          exact hbody
  nonempty := by
    rintro tag spelled ⟨_, rfl⟩
    rw [written, opener]
    split
    · exact List.cons_ne_nil _ _
    · exact List.cons_ne_nil _ _

/-!
## Scopes
-/

def ClosesItself (tag : Tag) : Prop :=
  ∃ front blanks, tag.attributes = front ++ '/' :: blanks ∧
    ∀ blank ∈ blanks, Text.isBlank blank = true

def Assigns (tag : Tag) : Prop :=
  tag.name ∈ captureDirectives ∧ '=' ∈ tag.attributes

/-- Holds of the tags by which the scopes of block directives begin and end. -/
def BoundsScope (tag : Tag) : Prop :=
  tag.name ∈ blockDirectives ∧ (tag.closing = true ∨ ¬tag.ClosesItself ∧ ¬tag.Assigns)

theorem isComplete_iff {tag : Tag} : tag.isComplete = true ↔ tag.ClosesItself ∨ tag.Assigns := by
  have hslash : Text.isBlank '/' = false := by decide
  rw [isComplete, Bool.or_eq_true, beq_iff_eq, Text.getLast?_trimEnd_iff hslash, Bool.and_eq_true,
    List.contains_iff_mem, List.contains_iff_mem]
  rfl

theorem isScope_iff {tag : Tag} : tag.isScope = true ↔ tag.BoundsScope := by
  rw [isScope, BoundsScope, Bool.and_eq_true, List.contains_iff_mem, Bool.or_eq_true,
    Bool.not_eq_true', ← Bool.not_eq_true, isComplete_iff, not_or]

instance (tag : Tag) : Decidable tag.BoundsScope :=
  decidable_of_iff _ isScope_iff

end Tag

def ScopesOf (masked : List Char) (tags : List ScopeTag) : Prop :=
  ∃ found, Text.Scanned Tag.Spells [] masked found ∧
    tags = (found.filter fun item => item.2.BoundsScope).map
      fun item => ⟨item.1, item.2.closing, item.2.name⟩

theorem scopesOf_iff {masked : List Char} {tags : List ScopeTag} :
    ScopesOf masked tags ↔ tags = scopeTags masked := by
  have hkept : ∀ found : List (Text.Position × Tag),
      (found.filter fun item => item.2.BoundsScope) = found.filter fun item => item.2.isScope := by
    intro found
    apply List.filter_congr
    intro item _
    rw [Bool.eq_iff_iff, decide_eq_true_iff, Tag.isScope_iff]
  rw [ScopesOf]
  simp only [Tag.recognises_spells.scanned_iff, exists_eq_left, hkept]
  rfl

theorem ScopesOf.of_mem {masked : List Char} {tags : List ScopeTag} (h : ScopesOf masked tags)
    {scopeTag : ScopeTag} (hmem : scopeTag ∈ tags) :
    ∃ tag before behind, masked = before ++ Tag.written tag ++ behind ∧ tag.Proper ∧
      tag.BoundsScope ∧
      scopeTag = ⟨Text.Position.start.behind before, tag.closing, tag.name⟩ := by
  rcases h with ⟨found, hscanned, rfl⟩
  rcases List.mem_map.mp hmem with ⟨⟨place, tag⟩, hkept, rfl⟩
  rcases List.mem_filter.mp hkept with ⟨hfound, hscope⟩
  rcases hscanned.of_mem hfound with ⟨before, spelled, behind, hsplit, rfl, hproper, rfl⟩
  exact ⟨tag, before, behind, hsplit, hproper, decide_eq_true_iff.mp hscope, rfl⟩

end Template
end StencilDesk
