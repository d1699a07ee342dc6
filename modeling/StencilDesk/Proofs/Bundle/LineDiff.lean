import Mathlib.Algebra.BigOperators.Group.Finset.Piecewise
import StencilDesk.Bundle.Diff

/-!
# Lines that differ at equal positions

A line counts as added if the other text does not have it at the same place, and as deleted if it
stands in the other text at such a place. So the additions of a comparison are a number of places of
the new text, the deletions one of the old text, and two texts that differ do so at some place.
-/

namespace StencilDesk
namespace DiffStat

def swap (stat : DiffStat) : DiffStat :=
  ⟨stat.deletions, stat.additions⟩

@[simp] theorem additions_add (a b : DiffStat) :
    (a.add b).additions = a.additions + b.additions := rfl

@[simp] theorem deletions_add (a b : DiffStat) :
    (a.add b).deletions = a.deletions + b.deletions := rfl

@[simp] theorem additions_swap (stat : DiffStat) : stat.swap.additions = stat.deletions := rfl

@[simp] theorem deletions_swap (stat : DiffStat) : stat.swap.deletions = stat.additions := rfl

theorem isEmpty_iff {stat : DiffStat} :
    stat.isEmpty = true ↔ stat.additions = 0 ∧ stat.deletions = 0 := by
  rw [isEmpty, Bool.and_eq_true, beq_iff_eq, beq_iff_eq]

/-!
## Places of new lines
-/

/-- The places of a text at which another one does not have the same line. -/
def addedPlaces (old new : List (List Char)) : Finset Nat :=
  (Finset.range new.length).filter fun i => old[i]? ≠ new[i]?

section
variable (old new : List (List Char))

theorem mem_addedPlaces {i : Nat} :
    i ∈ addedPlaces old new ↔ i < new.length ∧ old[i]? ≠ new[i]? := by
  rw [addedPlaces, Finset.mem_filter, Finset.mem_range]

theorem card_addedPlaces_cons (line : List Char) :
    (addedPlaces old (line :: new)).card =
      (addedPlaces old.tail new).card + if old.head? = some line then 0 else 1 := by
  rw [addedPlaces, addedPlaces, Finset.card_filter, Finset.card_filter, List.length_cons,
    Finset.sum_range_succ']
  congr 1
  · apply Finset.sum_congr rfl
    intro i _
    rw [List.getElem?_cons_succ, List.getElem?_tail]
  · rw [List.getElem?_cons_zero, List.head?_eq_getElem?]
    simp only [ne_eq, ite_not]

theorem ofLines_swap : ofLines new old = (ofLines old new).swap := by
  fun_induction ofLines old new with
  | case1 =>
      rw [ofLines]
      rfl
  | case2 line new ih =>
      rw [ofLines, ih]
      rfl
  | case3 line old ih =>
      rw [ofLines, ih]
      rfl
  | case4 line old new ih => rw [ofLines, if_pos rfl, ih]
  | case5 line old other new hdiffers ih =>
      rw [ofLines, if_neg (Ne.symm hdiffers), ih]
      rfl

/-- The added lines are those that the old text does not have at their places. -/
theorem additions_ofLines : (ofLines old new).additions = (addedPlaces old new).card := by
  fun_induction ofLines old new with
  | case1 => rfl
  | case2 line new ih =>
      rw [card_addedPlaces_cons, additions_add, ih]
      rfl
  | case3 line old ih =>
      rw [additions_add, ih]
      rfl
  | case4 line old new ih =>
      rw [card_addedPlaces_cons, ih]
      simp
  | case5 line old other new hdiffers ih =>
      rw [card_addedPlaces_cons, additions_add, ih]
      simp [hdiffers]

theorem deletions_ofLines : (ofLines old new).deletions = (addedPlaces new old).card := by
  rw [ofLines_swap, deletions_swap, additions_ofLines]

theorem additions_add_length :
    (ofLines old new).additions + old.length = (ofLines old new).deletions + new.length := by
  fun_induction ofLines old new with
  | case1 => rfl
  | case2 line new ih =>
      simp only [additions_add, deletions_add, List.length_cons]
      omega
  | case3 line old ih =>
      simp only [additions_add, deletions_add, List.length_cons]
      omega
  | case4 line old new ih =>
      rw [List.length_cons, List.length_cons]
      omega
  | case5 line old other new hdiffers ih =>
      simp only [additions_add, deletions_add, List.length_cons]
      omega

theorem additions_le_length : (ofLines old new).additions ≤ new.length := by
  rw [additions_ofLines]
  apply (Finset.card_filter_le _ _).trans
  rw [Finset.card_range]

theorem deletions_le_length : (ofLines old new).deletions ≤ old.length := by
  have hback := additions_le_length new old
  rwa [ofLines_swap, additions_swap] at hback

end

section
variable {old new : List (List Char)}

theorem additions_eq_zero_iff : (ofLines old new).additions = 0 ↔ new <+: old := by
  rw [additions_ofLines, Finset.card_eq_zero, Finset.eq_empty_iff_forall_notMem,
    List.prefix_iff_getElem?]
  constructor
  · intro hnone i hi
    have hsame := hnone i
    rw [mem_addedPlaces, not_and, not_not] at hsame
    rw [hsame hi, List.getElem?_eq_getElem hi]
  · intro hsame i hmem
    rcases (mem_addedPlaces old new).mp hmem with ⟨hi, hdiffers⟩
    exact hdiffers ((hsame i hi).trans (List.getElem?_eq_getElem hi).symm)

theorem isEmpty_ofLines_iff : (ofLines old new).isEmpty = true ↔ old = new := by
  have hdeletions : (ofLines old new).deletions = 0 ↔ old <+: new := by
    rw [← additions_eq_zero_iff, ofLines_swap old new, additions_swap]
  rw [isEmpty_iff, additions_eq_zero_iff, hdeletions]
  constructor
  · intro h
    exact h.2.eq_of_length_le h.1.length_le
  · rintro rfl
    exact ⟨List.prefix_rfl, List.prefix_rfl⟩

end

/-- A line that is not at its place at first was put there before or after any text in between. -/
theorem additions_triangle (first middle last : List (List Char)) :
    (ofLines first last).additions ≤
      (ofLines first middle).additions + (ofLines middle last).additions := by
  have hplaces : addedPlaces first last ⊆
      addedPlaces first middle ∪ addedPlaces middle last := by
    intro i hi
    rw [mem_addedPlaces] at hi
    rw [Finset.mem_union, mem_addedPlaces, mem_addedPlaces]
    by_cases hlater : middle[i]? = last[i]?
    · left
      have hmiddle : i < middle.length :=
        (List.getElem?_eq_some_iff.mp (hlater.trans (List.getElem?_eq_getElem hi.1))).1
      rw [hlater]
      exact ⟨hmiddle, hi.2⟩
    · exact .inr ⟨hi.1, hlater⟩
  rw [additions_ofLines, additions_ofLines, additions_ofLines]
  exact (Finset.card_le_card hplaces).trans (Finset.card_union_le _ _)

theorem deletions_triangle (first middle last : List (List Char)) :
    (ofLines first last).deletions ≤
      (ofLines first middle).deletions + (ofLines middle last).deletions := by
  have hback := additions_triangle last middle first
  rwa [ofLines_swap first last, ofLines_swap first middle, ofLines_swap middle last,
    additions_swap, additions_swap, additions_swap, Nat.add_comm] at hback

/-!
## Comparing texts
-/

def pieceCount (text : String) : Nat :=
  (Text.lines text.toList).length

/-- What holds of the comparisons of three texts. -/
structure Positional (first middle last : String) : Prop where
  isEmpty_iff : (ofTexts first last).isEmpty = true ↔ first = last
  swapped : ofTexts last first = (ofTexts first last).swap
  balanced : (ofTexts first last).additions + pieceCount first =
    (ofTexts first last).deletions + pieceCount last
  additions_le : (ofTexts first last).additions ≤ pieceCount last
  deletions_le : (ofTexts first last).deletions ≤ pieceCount first
  additions_triangle : (ofTexts first last).additions ≤
    (ofTexts first middle).additions + (ofTexts middle last).additions
  deletions_triangle : (ofTexts first last).deletions ≤
    (ofTexts first middle).deletions + (ofTexts middle last).deletions

theorem isEmpty_ofTexts_iff {old new : String} :
    (ofTexts old new).isEmpty = true ↔ old = new := by
  rw [ofTexts, isEmpty_ofLines_iff]
  constructor
  · intro h
    exact String.toList_inj.mp (Text.splitOn_injective h)
  · rintro rfl
    rfl

/-- Comparing texts line by line obeys the laws of places. -/
theorem positional_ofTexts (first middle last : String) : Positional first middle last where
  isEmpty_iff := isEmpty_ofTexts_iff
  swapped := ofLines_swap _ _
  balanced := additions_add_length _ _
  additions_le := additions_le_length _ _
  deletions_le := deletions_le_length _ _
  additions_triangle := additions_triangle _ _ _
  deletions_triangle := deletions_triangle _ _ _

end DiffStat
end StencilDesk
