import Mathlib.Algebra.Group.Nat.Defs
import Mathlib.Data.List.Lex
import StencilDesk.Proofs.History.Serials
import StencilDesk.Proofs.Time

/-!
# Later dates have later serials

Numbers that are written with the same count of digits are in the order of their texts. So are, in
one century, the dates at the start of serials; and on one date the letters count the saves.
-/

namespace StencilDesk

/-!
## Texts of one length
-/

namespace Text

theorem append_lt_append {a b : List Char} (h : a < b) (hlength : a.length = b.length)
    (c d : List Char) : a ++ c < b ++ d := by
  -- Texts of one length differ at a place that both have, before anything that is appended.
  induction a generalizing b with
  | nil =>
      rw [List.eq_nil_of_length_eq_zero hlength.symm] at h
      exact absurd h (List.lt_irrefl [])
  | cons x a ih =>
      cases b with
      | nil => cases hlength
      | cons y b =>
          rw [List.cons_append, List.cons_append, List.cons_lt_cons_iff]
          rcases List.cons_lt_cons_iff.mp h with hfirst | ⟨hsame, hrest⟩
          · exact .inl hfirst
          · exact .inr ⟨hsame, ih hrest (Nat.succ.inj hlength)⟩

theorem singleton_lt_singleton {c d : Char} (h : c.toNat < d.toNat) : [c] < [d] :=
  List.cons_lt_cons_iff.mpr (.inl (UInt32.lt_iff_toNat_lt.mpr h))

theorem padded_lt_padded {width a b : Nat} (h : a < b) (hb : b < 10 ^ width) :
    padded width a < padded width b := by
  induction width generalizing a b with
  | zero =>
      rw [Nat.pow_zero] at hb
      omega
  | succ width ih =>
      rw [padded, padded]
      rcases Nat.lt_or_ge (a / 10) (b / 10) with htens | htens
      · have hsmall : b / 10 < 10 ^ width := by
          rw [Nat.pow_succ] at hb
          omega
        exact append_lt_append (ih htens hsmall) (by simp) _ _
      · have hsame : a / 10 = b / 10 := by omega
        rw [hsame]
        apply List.append_left_lt
        apply singleton_lt_singleton
        rw [toNat_lastDigit, toNat_lastDigit]
        omega

end Text

/-!
## Dates
-/

namespace Date

def Before (a b : Date) : Prop :=
  a.year < b.year ∨
    a.year = b.year ∧ (a.month < b.month ∨ a.month = b.month ∧ a.day < b.day)

instance (a b : Date) : Decidable (a.Before b) :=
  inferInstanceAs (Decidable (_ ∨ _))

theorem eq_or_before_of_not_before {a b : Date} (h : ¬b.Before a) : a = b ∨ a.Before b := by
  rcases a with ⟨year, month, day⟩
  rcases b with ⟨otherYear, otherMonth, otherDay⟩
  unfold Before at h ⊢
  simp only [mk.injEq] at h ⊢
  omega

end Date

namespace Serial

theorem datePrefix_lt {a b : Date} (ha : a.isValid = true) (hb : b.isValid = true)
    (hcentury : a.year / 100 = b.year / 100) (h : a.Before b) : datePrefix a < datePrefix b := by
  rcases Timestamp.month_lt_of_isValid ha with ⟨_, _⟩
  rcases Timestamp.month_lt_of_isValid hb with ⟨hmonth, hday⟩
  unfold datePrefix
  rcases h with hyear | ⟨hyear, hmonths | ⟨hmonths, hdays⟩⟩
  · have hshort : (a.year % 100).toNat < (b.year % 100).toNat := by omega
    have hsmall : (b.year % 100).toNat < 10 ^ 2 := by omega
    rw [List.append_assoc, List.append_assoc]
    exact Text.append_lt_append (Text.padded_lt_padded hshort hsmall) (by simp) _ _
  · rw [hyear, List.append_assoc, List.append_assoc]
    apply List.append_left_lt
    exact Text.append_lt_append (Text.padded_lt_padded hmonths hmonth) (by simp) _ _
  · rw [hyear, hmonths]
    apply List.append_left_lt
    exact Text.padded_lt_padded hdays hday

theorem datePrefix_eq_iff {a b : Date} (ha : a.isValid = true) (hb : b.isValid = true)
    (hcentury : a.year / 100 = b.year / 100) : datePrefix a = datePrefix b ↔ a = b := by
  constructor
  · intro hsame
    by_cases hback : b.Before a
    · have hlt := datePrefix_lt hb ha hcentury.symm hback
      rw [hsame] at hlt
      exact absurd hlt (List.lt_irrefl _)
    · rcases Date.eq_or_before_of_not_before hback with heq | hbefore
      · exact heq
      · have hlt := datePrefix_lt ha hb hcentury hbefore
        rw [hsame] at hlt
        exact absurd hlt (List.lt_irrefl _)
  · intro heq
    rw [heq]

/-!
## The order of serials
-/

theorem length_date (serial : Serial) : serial.date.length = 6 := by
  have hwell := serial.wellFormed
  simp only [isSerialText, Bool.and_eq_true, beq_iff_eq] at hwell
  unfold Serial.date
  rw [List.length_take, hwell.1.1]
  rfl

theorem toList_text (serial : Serial) : serial.text.toList = serial.date ++ [serial.letter] := by
  have hwell := serial.wellFormed
  simp only [isSerialText, Bool.and_eq_true, beq_iff_eq] at hwell
  have hlast : (serial.text.toList.drop 6).length = 1 := by
    rw [List.length_drop, hwell.1.1]
  rcases List.length_eq_one_iff.mp hlast with ⟨c, hc⟩
  have hletter : serial.letter = c := by
    unfold Serial.letter
    rw [hc]
    rfl
  unfold Serial.date
  rw [hletter, ← hc, List.take_append_drop]

theorem text_lt_of_date_lt {a b : Serial} (h : a.date < b.date) : a.text < b.text := by
  rw [String.lt_iff, toList_text, toList_text]
  exact Text.append_lt_append h (by rw [length_date, length_date]) _ _

theorem text_lt_of_letter_lt {a b : Serial} (hdate : a.date = b.date)
    (h : a.letter.toNat < b.letter.toNat) : a.text < b.text := by
  rw [String.lt_iff, toList_text, toList_text, hdate]
  exact List.append_left_lt (Text.singleton_lt_singleton h)

/-!
## The serial after the letters of a date
-/

theorem mem_of_foldl_laterOf {serials : List Serial} {first : Option Serial} {latest : Serial}
    (h : serials.foldl laterOf first = some latest) : latest ∈ serials ∨ first = some latest := by
  induction serials generalizing first with
  | nil => exact .inr h
  | cons serial rest ih =>
      rcases ih h with hmem | hsame
      · exact .inl (List.mem_cons_of_mem _ hmem)
      · unfold laterOf at hsame
        split at hsame
        · cases hsame
          exact .inl List.mem_cons_self
        · split at hsame
          · cases hsame
            exact .inl List.mem_cons_self
          · exact .inr hsame

theorem mem_of_latestLetter? {serials : List Serial} {latest : Serial}
    (h : latestLetter? serials = some latest) : latest ∈ serials := by
  rw [latestLetter?_eq] at h
  rcases mem_of_foldl_laterOf h with hmem | hnone
  · exact hmem
  · cases hnone

/-- Holds if the letters of a date are the first ones, as many as given. -/
def Lettered (existing : List Serial) (date : List Char) (count : Nat) : Prop :=
  ∀ number, (∃ serial ∈ existing, serial.date = date ∧ serial.letter.toNat = number) ↔
    65 ≤ number ∧ number < 65 + count

theorem toNat_latestLetter {existing : List Serial} {date : List Char} {count : Nat}
    {latest : Serial} (h : Lettered existing date count)
    (hlatest : latestLetter? (existing.filter fun serial => serial.date == date) = some latest) :
    latest.letter.toNat + 1 = 65 + count := by
  have hmem := mem_of_latestLetter? hlatest
  rw [List.mem_filter, beq_iff_eq] at hmem
  have hbounds := (h latest.letter.toNat).mp ⟨latest, hmem.1, hmem.2, rfl⟩
  -- The last letter is there too, so no letter before it is the latest one.
  rcases (h (65 + count - 1)).mpr (by omega) with ⟨other, hother, hdate, hnumber⟩
  have hle := letter_le_of_latestLetter? hlatest
    (List.mem_filter.mpr ⟨hother, beq_iff_eq.mpr hdate⟩)
  have hnat : other.letter.toNat ≤ latest.letter.toNat := UInt32.le_iff_toNat_le.mp hle
  omega

/-- The next serial of a date has the letter after those that are there; after twenty-six letters
there is none. -/
theorem next_of_lettered {date : Date} {existing : List Serial} {count : Nat}
    (h : Lettered existing (datePrefix date) count) :
    (∃ serial, next date existing = .ok serial ∧ serial.date = datePrefix date ∧
        serial.letter.toNat = 65 + count ∧ count < 26) ∨
      next date existing = .error (.exhausted (String.ofList (datePrefix date))) ∧ count = 26 := by
  unfold next
  split
  · rename_i hnone
    rw [latestLetter?_eq_none_iff, List.filter_eq_nil_iff] at hnone
    have hcount : count = 0 := by
      rcases Nat.eq_zero_or_pos count with hzero | hpos
      · exact hzero
      · rcases (h 65).mpr (by omega) with ⟨serial, hmem, hdate, _⟩
        exact absurd (beq_iff_eq.mpr hdate) (hnone serial hmem)
    left
    refine ⟨_, rfl, date_ofDate _ _ _, ?_, by omega⟩
    rw [letter_ofDate, hcount]
    rfl
  · rename_i latest hlatest
    have hnumber := toNat_latestLetter h hlatest
    split
    · rename_i hlast
      right
      rw [hlast] at hnumber
      have hz : 'Z'.toNat = 90 := rfl
      exact ⟨rfl, by omega⟩
    · rename_i hlast
      left
      have hle := toNat_le_of_isUpper (isUpper_letterAfter latest.isUpper_letter hlast)
      rw [toNat_letterAfter latest.isUpper_letter] at hle
      refine ⟨_, rfl, date_ofDate _ _ _, ?_, by omega⟩
      rw [letter_ofDate, toNat_letterAfter latest.isUpper_letter]
      exact hnumber

theorem Lettered.congr {existing listed : List Serial} {date : List Char} {count : Nat}
    (h : Lettered existing date count) (hmem : ∀ serial, serial ∈ listed ↔ serial ∈ existing) :
    Lettered listed date count := by
  intro number
  rw [← h number]
  simp only [hmem]

/-- Holds if the letters of every date are the first ones, each once. -/
def Counted (existing : List Serial) : Prop :=
  ∀ date, Lettered existing date (existing.countP fun serial => serial.date == date)

theorem counted_nil : Counted [] := by
  intro date number
  rw [List.countP_nil]
  constructor
  · intro ⟨serial, hmem, _⟩
    cases hmem
  · intro hbounds
    omega

theorem Counted.append {existing : List Serial} (h : Counted existing) {serial : Serial}
    (hletter : serial.letter.toNat =
      65 + existing.countP fun other => other.date == serial.date) :
    Counted (existing ++ [serial]) := by
  intro date number
  have hold := h date number
  have hmem : (∃ other ∈ existing ++ [serial], other.date = date ∧ other.letter.toNat = number) ↔
      (∃ other ∈ existing, other.date = date ∧ other.letter.toNat = number) ∨
        serial.date = date ∧ serial.letter.toNat = number := by
    simp only [List.mem_append, List.mem_singleton, or_and_right, exists_or, exists_eq_left]
  rw [hmem, hold, List.countP_append]
  by_cases hdate : serial.date = date
  · rw [hdate] at hletter
    rw [List.countP_cons_of_pos (by simpa using hdate), List.countP_nil]
    simp only [hdate, true_and]
    omega
  · rw [List.countP_cons_of_neg (by simpa using hdate), List.countP_nil]
    simp only [hdate, false_and, or_false]
    omega

end Serial
end StencilDesk
