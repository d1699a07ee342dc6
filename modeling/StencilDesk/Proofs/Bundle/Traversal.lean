import StencilDesk.Proofs.Bundle.Acceptance

/-!
# Paths that reach outside the bundle

A path with two points between its slashes is told apart from other broken paths, unless another
fault comes before the two points: then it is told as a path that is merely broken. A check that
tells every such path apart is described here as well, and the check of paths is compared with it.
-/

namespace StencilDesk
namespace Path

/-- What stands between the slashes of a text, and what stands before the first one. -/
def slices (path : String) : List String :=
  (pieces path).map String.ofList

/-- Holds of verdicts by which every path with two points is told apart, and exactly the paths that
keep the rules are fine. -/
structure TellsTraversal (path : String) (verdict : Except PathFault Unit) : Prop where
  traversal_iff : verdict = .error (.traversal path) ↔ ".." ∈ slices path
  fine_iff : verdict = .ok () ↔ path = root ∨ WellFormed path
  invalid_iff : verdict = .error (.invalid path) ↔
    ".." ∉ slices path ∧ path ≠ root ∧ ¬WellFormed path

/-- Holds of the paths with two points behind another fault: they do not start with a slash, or a
part before the first two points is empty or a single point. -/
inductive Overlooked (path : String) : Prop where
  | relative (hrelative : path.toList.head? ≠ some '/') (hpoints : ".." ∈ slices path)
  | improper {before after : List String} {part : String}
      (habsolute : path.toList.head? = some '/') (hparts : parts path = before ++ part :: after)
      (hbefore : ∀ part ∈ before, IsProper part) (hpart : part = "" ∨ part = ".")
      (hpoints : ".." ∈ after)

section
variable {path : String}

/-!
## Parts
-/

theorem slices_of_absolute (habsolute : path.toList.head? = some '/') :
    slices path = "" :: parts path := by
  cases hpath : path.toList with
  | nil => simp [hpath] at habsolute
  | cons c rest =>
      have hc : c = '/' := by simpa [hpath] using habsolute
      rw [slices, parts, pieces, hpath, hc, Text.splitOn_separator]
      rfl

theorem mem_slices_iff (habsolute : path.toList.head? = some '/') :
    ".." ∈ slices path ↔ ".." ∈ parts path := by
  rw [slices_of_absolute habsolute, List.mem_cons]
  simp

theorem not_mem_slices_root : ".." ∉ slices root := by
  decide

/-- Each part of a path is proper, or there is a first one that is not. -/
theorem proper_or_exists_first (list : List String) :
    (∀ part ∈ list, IsProper part) ∨ ∃ before part after, list = before ++ part :: after ∧
      (∀ part ∈ before, IsProper part) ∧ ¬IsProper part := by
  induction list with
  | nil => exact .inl (List.forall_mem_nil _)
  | cons first rest ih =>
      by_cases hfirst : IsProper first
      · rcases ih with hproper | ⟨before, part, after, hsplit, hbefore, hpart⟩
        · exact .inl (List.forall_mem_cons.mpr ⟨hfirst, hproper⟩)
        · refine .inr ⟨first :: before, part, after, congrArg (List.cons first) hsplit, ?_, hpart⟩
          exact List.forall_mem_cons.mpr ⟨hfirst, hbefore⟩
      · exact .inr ⟨[], first, rest, rfl, List.forall_mem_nil _, hfirst⟩

/-!
## Verdicts
-/

theorem mem_slices_of_check {fault : String} (h : check path = .error (.traversal fault)) :
    ".." ∈ slices path := by
  by_cases hroot : path = root
  · rw [hroot] at h
    cases h
  · cases (check_eq_error_iff hroot).mp h with
    | traversal habsolute hparts _ =>
        rw [mem_slices_iff habsolute, hparts]
        simp

theorem Overlooked.mem_slices (h : Overlooked path) : ".." ∈ slices path := by
  cases h with
  | relative _ hpoints => exact hpoints
  | improper habsolute hparts _ _ hpoints =>
      rw [mem_slices_iff habsolute, hparts]
      simp [hpoints]

theorem Overlooked.check_eq (h : Overlooked path) : check path = .error (.invalid path) := by
  have hroot : path ≠ root := by
    intro hsame
    exact not_mem_slices_root (hsame ▸ h.mem_slices)
  rw [check_eq_error_iff hroot]
  cases h with
  | relative hrelative _ => exact .relative hrelative
  | improper habsolute hparts hbefore hpart _ => exact .improper habsolute hparts hbefore hpart

theorem check_of_not_overlooked (hpoints : ".." ∈ slices path) (h : ¬Overlooked path) :
    check path = .error (.traversal path) := by
  have habsolute : path.toList.head? = some '/' := by
    by_contra hrelative
    exact h (.relative hrelative hpoints)
  have hroot : path ≠ root := by
    intro hsame
    exact not_mem_slices_root (hsame ▸ hpoints)
  rw [mem_slices_iff habsolute] at hpoints
  rw [check_eq_error_iff hroot]
  rcases proper_or_exists_first (parts path) with
    hproper | ⟨before, part, after, hparts, hbefore, hpart⟩
  · exact absurd rfl (hproper _ hpoints).2.2
  · by_cases htwo : part = ".."
    · exact .traversal habsolute (htwo ▸ hparts) hbefore
    · have hbad : part = "" ∨ part = "." := by
        by_contra hfine
        rw [not_or] at hfine
        exact hpart ⟨hfine.1, hfine.2, htwo⟩
      have hafter : ".." ∈ after := by
        rw [hparts, List.mem_append, List.mem_cons] at hpoints
        rcases hpoints with hearlier | hsame | hlater
        · exact absurd rfl (hbefore _ hearlier).2.2
        · exact absurd hsame.symm htwo
        · exact hlater
      exact absurd (.improper habsolute hparts hbefore hbad hafter) h

theorem check_cases (path : String) :
    check path = .ok () ∨ check path = .error (.traversal path) ∨
      check path = .error (.invalid path) := by
  by_cases hroot : path = root
  · exact .inl (hroot ▸ rfl)
  · cases hcheck : check path with
    | ok _ => exact .inl rfl
    | error fault =>
        right
        cases (check_eq_error_iff hroot).mp hcheck with
        | relative _ => exact .inr rfl
        | traversal _ _ _ => exact .inl rfl
        | improper _ _ _ _ => exact .inr rfl

theorem check_eq_ok_iff_root_or_wellFormed :
    check path = .ok () ↔ path = root ∨ WellFormed path := by
  by_cases hroot : path = root
  · rw [hroot]
    exact iff_of_true rfl (.inl rfl)
  · rw [check_eq_ok_iff_wellFormed hroot, or_iff_right hroot]

end

/-- The check tells a path with two points apart from other broken paths, unless the two points are
behind another fault. -/
theorem tellsTraversal_check (path : String) :
    (TellsTraversal path (check path) ↔ ¬Overlooked path) ∧
      (Overlooked path ↔ ".." ∈ slices path ∧ check path = .error (.invalid path)) := by
  constructor
  · constructor
    · intro htells hoverlooked
      have htraversal := htells.traversal_iff.mpr hoverlooked.mem_slices
      rw [hoverlooked.check_eq] at htraversal
      cases htraversal
    · intro hseen
      have htraversal : check path = .error (.traversal path) ↔ ".." ∈ slices path :=
        ⟨mem_slices_of_check, fun hpoints => check_of_not_overlooked hpoints hseen⟩
      refine ⟨htraversal, check_eq_ok_iff_root_or_wellFormed, ?_⟩
      rw [← htraversal, ← not_or, ← check_eq_ok_iff_root_or_wellFormed]
      rcases check_cases path with hcheck | hcheck | hcheck
      · simp [hcheck]
      · simp [hcheck]
      · simp [hcheck]
  · constructor
    · intro hoverlooked
      exact ⟨hoverlooked.mem_slices, hoverlooked.check_eq⟩
    · intro h
      by_contra hseen
      rw [check_of_not_overlooked h.1 hseen] at h
      cases h.2

/-- Behind a doubled slash, two points are told as nothing but an empty part. -/
theorem not_tellsTraversal_doubled : ¬TellsTraversal "//.." (check "//..") := by
  intro htells
  have hpoints : ".." ∈ slices "//.." := by decide
  have hcheck := htells.traversal_iff.mpr hpoints
  revert hcheck
  decide

end Path
end StencilDesk
