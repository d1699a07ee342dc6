import Mathlib.Data.List.Infix
import Mathlib.Data.List.TakeWhile
import StencilDesk.Bundle.Edit

/-!
# Paths above paths

The rules of paths, stated on the pieces between their slashes, and the folders above a path, which
are exactly the texts that the path continues behind a slash.
-/

namespace StencilDesk
namespace Path

theorem pairwise_lt_mergeSort {α : Type} (key : α → String) {items : List α}
    (h : (items.map key).Nodup) :
    (items.mergeSort fun a b => key a ≤ key b).Pairwise fun a b => key a < key b := by
  have hsorted : (items.mergeSort fun a b => key a ≤ key b).Pairwise
      fun a b => decide (key a ≤ key b) = true := by
    apply List.pairwise_mergeSort
    · intro a b c hab hbc
      rw [decide_eq_true_iff] at hab hbc ⊢
      exact String.le_trans hab hbc
    · intro a b
      rw [Bool.or_eq_true, decide_eq_true_iff, decide_eq_true_iff]
      exact String.le_total (key a) (key b)
  have hperm := List.mergeSort_perm items fun a b => key a ≤ key b
  have hnodup := List.pairwise_map.mp ((hperm.map key).nodup_iff.mpr h)
  apply (hsorted.and hnodup).imp
  intro a b ⟨hle, hne⟩
  rw [decide_eq_true_iff] at hle
  exact Std.lt_of_le_of_ne hle hne

/-!
## Well formed paths
-/

def ProperPiece (piece : List Char) : Prop :=
  piece ≠ [] ∧ piece ≠ ['.'] ∧ piece ≠ ['.', '.']

theorem checkPieces_eq_ok_iff {path : String} {pieces : List (List Char)} :
    checkPieces path pieces = .ok () ↔ ∀ piece ∈ pieces, ProperPiece piece := by
  induction pieces with
  | nil => simp [checkPieces]
  | cons piece rest ih =>
      rw [List.forall_mem_cons]
      unfold checkPieces
      by_cases htwo : piece = ['.', '.']
      · rw [if_pos htwo]
        constructor
        · intro h
          cases h
        · intro h
          exact absurd htwo h.1.2.2
      · rw [if_neg htwo]
        by_cases hbad : piece = ['.'] ∨ piece = []
        · rw [if_pos hbad]
          constructor
          · intro h
            cases h
          · intro h
            rcases hbad with hone | hnone
            · exact absurd hone h.1.2.1
            · exact absurd hnone h.1.1
        · rw [if_neg hbad, ih]
          rw [not_or] at hbad
          constructor
          · intro h
            exact ⟨⟨hbad.2, hbad.1, htwo⟩, h⟩
          · intro h
            exact h.2

/-- A path is well formed if it is the root, or a slash with proper pieces behind it. -/
theorem check_eq_ok_iff {path : String} :
    check path = .ok () ↔ path = root ∨
      ∃ rest, path.toList = '/' :: rest ∧ ∀ piece ∈ Text.splitOn '/' rest, ProperPiece piece := by
  unfold check pieces
  by_cases hroot : path = root
  · rw [hroot]
    simp [root]
  · cases hpath : path.toList with
    | nil => simp [hroot]
    | cons c rest =>
        by_cases hslash : c = '/'
        · rw [hslash, Text.splitOn_separator, if_neg (by simp), if_neg hroot,
            checkPieces_eq_ok_iff]
          simp [hroot]
        · simp [hslash, hroot]

theorem ne_empty_of_check {path : String} (h : check path = .ok ()) : path ≠ "" := by
  intro hempty
  rw [hempty] at h
  cases h

theorem properPiece_of_checkName {name : String} (h : checkName name = .ok ()) :
    ProperPiece name.toList ∧ '/' ∉ name.toList := by
  unfold checkName at h
  split at h
  · cases h
  · rename_i htwo
    split at h
    · cases h
    · rename_i hbad
      rw [not_or, not_or] at hbad
      rcases hbad with ⟨hblank, hone, hslash⟩
      refine ⟨⟨?_, ?_, ?_⟩, hslash⟩
      · intro hempty
        rw [hempty] at hblank
        exact hblank rfl
      · intro hpoint
        exact hone (String.toList_inj.mp hpoint)
      · intro hpoints
        exact htwo (String.toList_inj.mp hpoints)

theorem toList_join (parent name : String) :
    (join parent name).toList =
      (if parent = root then [] else parent.toList) ++ '/' :: name.toList := by
  unfold join
  split <;> simp [root]

theorem check_join {parent name : String} (hparent : check parent = .ok ())
    (hname : checkName name = .ok ()) :
    check (join parent name) = .ok () ∧ join parent name ≠ root := by
  rcases properPiece_of_checkName hname with ⟨hproper, hslash⟩
  have hpieces := Text.splitOn_of_not_mem hslash
  have htext := toList_join parent name
  constructor
  · rw [check_eq_ok_iff]
    right
    by_cases hroot : parent = root
    · refine ⟨name.toList, by simpa [hroot] using htext, ?_⟩
      intro piece hmem
      rw [hpieces, List.mem_singleton] at hmem
      rw [hmem]
      exact hproper
    · rcases (check_eq_ok_iff.mp hparent).resolve_left hroot with ⟨rest, hrest, hall⟩
      refine ⟨rest ++ '/' :: name.toList, by simpa [hroot, hrest] using htext, ?_⟩
      intro piece hmem
      rw [Text.splitOn_append_separator, hpieces, List.mem_append, List.mem_singleton] at hmem
      rcases hmem with hold | hnew
      · exact hall piece hold
      · rw [hnew]
        exact hproper
  · intro hroot
    have hlength := congrArg List.length (htext.symm.trans (congrArg String.toList hroot))
    rw [List.length_append, List.length_cons] at hlength
    have hsome : name.toList.length ≠ 0 := by
      rw [Ne, List.length_eq_zero_iff]
      exact hproper.1
    have hone : root.toList.length = 1 := rfl
    omega

/-!
## The folders above a path
-/

/-- Holds if a path continues another one behind a slash. -/
def IsAbove (above path : String) : Prop :=
  (above.toList ++ ['/']) <+: path.toList

instance (above path : String) : Decidable (IsAbove above path) :=
  inferInstanceAs (Decidable ((above.toList ++ ['/']) <+: path.toList))

theorem IsAbove.trans {above middle path : String} (h : IsAbove above middle)
    (hmiddle : IsAbove middle path) : IsAbove above path := by
  unfold IsAbove at h hmiddle ⊢
  exact h.trans ((List.prefix_append _ _).trans hmiddle)

theorem IsAbove.length_lt {above path : String} (h : IsAbove above path) :
    above.toList.length < path.toList.length := by
  have hle := h.length_le
  rw [List.length_append, List.length_singleton] at hle
  omega

theorem exists_lastSlash {text : List Char} (h : '/' ∈ text) :
    ∃ before name, text = before ++ '/' :: name ∧ '/' ∉ name := by
  rcases List.eq_append_cons_of_mem (List.mem_reverse.mpr h) with ⟨after, rest, htext, hslash⟩
  refine ⟨rest.reverse, after.reverse, ?_, ?_⟩
  · rw [← List.reverse_reverse text, htext]
    simp
  · rw [List.mem_reverse]
    exact hslash

theorem dropWhile_lastSlash {before name : List Char} (h : '/' ∉ name) :
    (before ++ '/' :: name).reverse.dropWhile (· != '/') = '/' :: before.reverse := by
  have hall : ∀ c ∈ name.reverse, (c != '/') = true := by
    intro c hmem
    rw [bne_iff_ne]
    intro hc
    rw [hc, List.mem_reverse] at hmem
    exact h hmem
  rw [List.reverse_append, List.reverse_cons, List.append_assoc,
    List.dropWhile_append_of_pos hall]
  rfl

theorem parent_of_lastSlash {path : String} {before name : List Char}
    (hpath : path.toList = before ++ '/' :: name) (h : '/' ∉ name) :
    parent path = if before = [] then root else String.ofList before := by
  unfold parent
  rw [hpath, dropWhile_lastSlash h]
  simp

theorem parent_of_no_slash {path : String} (h : '/' ∉ path.toList) : parent path = root := by
  unfold parent
  have hall : ∀ c ∈ path.toList.reverse, (c != '/') = true := by
    intro c hmem
    rw [bne_iff_ne]
    intro hc
    rw [hc, List.mem_reverse] at hmem
    exact h hmem
  rw [List.dropWhile_eq_nil_iff.mpr hall]

theorem isAbove_parent {path : String} (h : parent path ≠ root) :
    parent path ≠ "" ∧ IsAbove (parent path) path := by
  by_cases hslash : '/' ∈ path.toList
  · rcases exists_lastSlash hslash with ⟨before, name, hpath, hname⟩
    have hparent := parent_of_lastSlash hpath hname
    by_cases hempty : before = []
    · rw [if_pos hempty] at hparent
      exact absurd hparent h
    · rw [if_neg hempty] at hparent
      rw [hparent]
      constructor
      · intro hnone
        apply hempty
        rw [← String.toList_ofList (l := before), hnone]
        rfl
      · unfold IsAbove
        rw [hpath, String.toList_ofList]
        exact ⟨name, by simp⟩
  · exact absurd (parent_of_no_slash hslash) h

/-- A text up to some slash is the text up to the last slash, or a slash follows it there. -/
theorem eq_or_start_of_lastSlash {first rest before name : List Char}
    (h : first ++ '/' :: rest = before ++ '/' :: name) (hname : '/' ∉ name) :
    before = first ∨ (first ++ ['/']) <+: before := by
  rcases List.append_eq_append_iff.mp h with ⟨more, hbefore, hmore⟩ | ⟨more, hfirst, hmore⟩
  · cases more with
    | nil => exact .inl (by simpa using hbefore)
    | cons c more =>
        rw [List.cons_append, List.cons.injEq] at hmore
        right
        rw [hbefore, ← hmore.1]
        exact ⟨more, by simp⟩
  · cases more with
    | nil => exact .inl (by simpa using hfirst.symm)
    | cons c more =>
        rw [List.cons_append, List.cons.injEq] at hmore
        exfalso
        apply hname
        rw [hmore.2]
        simp

theorem isAbove_cases {above path : String} (h : IsAbove above path) (hempty : above ≠ "")
    (hroot : above ≠ root) :
    parent path ≠ root ∧ (above = parent path ∨ IsAbove above (parent path)) := by
  rcases h with ⟨rest, hrest⟩
  rw [List.append_assoc, List.singleton_append] at hrest
  have hslash : '/' ∈ path.toList := by
    rw [← hrest]
    simp
  rcases exists_lastSlash hslash with ⟨before, name, hpath, hname⟩
  have hparent := parent_of_lastSlash hpath hname
  have hsome : above.toList ≠ [] := by
    intro hnone
    exact hempty (String.toList_inj.mp hnone)
  rcases eq_or_start_of_lastSlash (hrest.trans hpath) hname with hsame | hstart
  · rw [if_neg (by rw [hsame]; exact hsome), hsame, String.ofList_toList] at hparent
    rw [hparent]
    exact ⟨hroot, .inl rfl⟩
  · have hlength := hstart.length_le
    rw [List.length_append, List.length_singleton] at hlength
    have hpositive : 0 < above.toList.length := List.length_pos_iff.mpr hsome
    have hbefore : before ≠ [] := by
      intro hnone
      rw [hnone] at hlength
      simp at hlength
    rw [if_neg hbefore] at hparent
    rw [hparent]
    constructor
    · intro hsame
      have hone : before.length = 1 := by
        rw [← String.toList_ofList (l := before), hsame]
        rfl
      omega
    · right
      unfold IsAbove
      rw [String.toList_ofList]
      exact hstart

end Path

namespace Bundle

theorem isAbove_of_mem_ancestors {fuel : Nat} {above path : String}
    (h : above ∈ ancestors fuel path) :
    above ≠ "" ∧ above ≠ Path.root ∧ Path.IsAbove above path := by
  induction fuel generalizing path with
  | zero => cases h
  | succ fuel ih =>
      unfold ancestors at h
      by_cases hroot : Path.parent path = Path.root
      · simp [hroot] at h
      · rcases Path.isAbove_parent hroot with ⟨hempty, hparent⟩
        simp only [if_neg hroot, List.mem_cons] at h
        rcases h with hsame | hmem
        · rw [hsame]
          exact ⟨hempty, hroot, hparent⟩
        · rcases ih hmem with ⟨hnonempty, hnotRoot, habove⟩
          exact ⟨hnonempty, hnotRoot, habove.trans hparent⟩

theorem mem_ancestors_of_isAbove {fuel : Nat} {above path : String}
    (hfuel : path.toList.length ≤ fuel) (h : Path.IsAbove above path) (hempty : above ≠ "")
    (hroot : above ≠ Path.root) : above ∈ ancestors fuel path := by
  induction fuel generalizing path with
  | zero =>
      have hlength := h.length_lt
      omega
  | succ fuel ih =>
      rcases Path.isAbove_cases h hempty hroot with ⟨hparent, hcases⟩
      unfold ancestors
      simp only [if_neg hparent, List.mem_cons]
      rcases hcases with hsame | habove
      · exact .inl hsame
      · right
        apply ih _ habove
        have hshorter := (Path.isAbove_parent hparent).2.length_lt
        omega

theorem mem_ancestors_iff {above path : String} :
    above ∈ ancestors path.toList.length path ↔
      above ≠ "" ∧ above ≠ Path.root ∧ Path.IsAbove above path := by
  constructor
  · exact isAbove_of_mem_ancestors
  · intro ⟨hempty, hroot, habove⟩
    exact mem_ancestors_of_isAbove (Nat.le_refl _) habove hempty hroot

theorem fileAbove?_eq_none_iff {files : List File} {path : String} :
    fileAbove? files path = none ↔
      ∀ file ∈ files, file.path ≠ "" → file.path ≠ Path.root → ¬Path.IsAbove file.path path := by
  unfold fileAbove?
  rw [List.find?_eq_none]
  constructor
  · intro h file hmem hempty hroot habove
    apply h file.path (mem_ancestors_iff.mpr ⟨hempty, hroot, habove⟩)
    exact File.existsAt_iff.mpr ⟨file, hmem, rfl⟩
  · intro h above hmem hexists
    rcases File.existsAt_iff.mp hexists with ⟨file, hfile, hpath⟩
    rcases mem_ancestors_iff.mp hmem with ⟨hempty, hroot, habove⟩
    rw [← hpath] at hempty hroot habove
    exact h file hfile hempty hroot habove

theorem isTaken_eq_false_iff {files : List File} {path : String} :
    isTaken files path = false ↔
      ∀ file ∈ files, file.path ≠ path ∧ ¬Path.IsAbove path file.path := by
  unfold isTaken Path.IsAbove
  rw [List.any_eq_false]
  simp

end Bundle
end StencilDesk
