import StencilDesk.Proofs.Bundle.Diff
import StencilDesk.Proofs.Bundle.Storable

/-!
# What trees and comparisons show of stored bundles

A tree lists each file of a bundle that the store accepts, and a comparison of two such bundles has
an entry for every path at which they differ. There is one exception: the store accepts a file at
the root, which neither of them shows.
-/

namespace StencilDesk

namespace TreeNode

variable {files : List File} {path : String}

theorem placesOf_eq (h : ∀ file ∈ files, Path.check file.path = .ok ()) :
    placesOf files = (files.map File.path).filter (· != Path.root) := by
  unfold placesOf
  induction files with
  | nil => rfl
  | cons file rest ih =>
      rw [List.forall_mem_cons] at h
      rw [List.map_cons]
      by_cases hroot : file.path = Path.root
      · have hnone : Path.segments file.path = [] := by
          rw [hroot]
          rfl
        rw [List.filter_cons_of_neg (by simp [hnone]), List.filter_cons_of_neg (by simp [hroot])]
        exact ih h.2
      · rcases Path.descend_segments h.1 hroot with ⟨hsome, hspelled⟩
        rw [List.filter_cons_of_pos (by simpa using hsome), List.map_cons, hspelled,
          List.filter_cons_of_pos (by simpa using hroot), ih h.2]

theorem mem_filePaths_iff (h : ∀ file ∈ files, Path.check file.path = .ok ()) :
    path ∈ (ofFiles files).filePaths ↔ path ≠ Path.root ∧ File.existsAt files path = true := by
  rw [(perm_filePaths_ofFiles files).mem_iff, placesOf_eq h, List.mem_filter, List.mem_map,
    bne_iff_ne, File.existsAt_iff, and_comm]

/-- Only a file at the root is missing in a tree. -/
theorem perm_filePaths_iff (h : ∀ file ∈ files, Path.check file.path = .ok ()) :
    (ofFiles files).filePaths.Perm (files.map File.path) ↔
      File.existsAt files Path.root = false := by
  have hperm := perm_filePaths_ofFiles files
  rw [placesOf_eq h] at hperm
  constructor
  · intro hall
    rw [Bool.eq_false_iff]
    intro hexists
    rcases File.existsAt_iff.mp hexists with ⟨file, hmem, hroot⟩
    have hlisted : Path.root ∈ (ofFiles files).filePaths := by
      rw [hall.mem_iff, ← hroot]
      exact List.mem_map_of_mem hmem
    exact ((mem_filePaths_iff h).mp hlisted).1 rfl
  · intro hnone
    have hkept : (files.map File.path).filter (· != Path.root) = files.map File.path := by
      rw [List.filter_eq_self]
      intro path hpath
      rw [bne_iff_ne]
      rintro rfl
      rcases List.mem_map.mp hpath with ⟨file, hmem, hroot⟩
      rw [File.existsAt_iff.mpr ⟨file, hmem, hroot⟩] at hnone
      cases hnone
    rw [hkept] at hperm
    exact hperm

end TreeNode

namespace Bundle

/-- Holds of files at different well formed paths below the root. -/
structure Addressed (files : List File) : Prop where
  wellFormed : ∀ file ∈ files, Path.check file.path = .ok ()
  notRoot : ∀ file ∈ files, file.path ≠ Path.root
  distinct : Distinct files

theorem Addressed.placesOf_eq {files : List File} (h : Addressed files) :
    TreeNode.placesOf files = files.map File.path := by
  rw [TreeNode.placesOf_eq h.wellFormed, List.filter_eq_self]
  intro path hpath
  rcases List.mem_map.mp hpath with ⟨file, hmem, rfl⟩
  rw [bne_iff_ne]
  exact h.notRoot file hmem

end Bundle

namespace BundleDiff

variable {old new : List File} {path : String}

theorem existsAt_merge_iff :
    File.existsAt (merge old new) path = true ↔
      File.existsAt old path = true ∨ File.existsAt new path = true := by
  unfold merge
  constructor
  · intro h
    rcases File.existsAt_iff.mp h with ⟨file, hmem, hpath⟩
    rcases List.mem_append.mp hmem with hnew | hold
    · exact .inr (File.existsAt_iff.mpr ⟨file, hnew, hpath⟩)
    · exact .inl (File.existsAt_iff.mpr ⟨file, List.mem_of_mem_filter hold, hpath⟩)
  · intro h
    rw [File.existsAt_append, Bool.or_eq_true]
    cases hnew : File.existsAt new path with
    | true => exact .inl rfl
    | false =>
        rw [hnew] at h
        rcases File.existsAt_iff.mp (h.resolve_right Bool.false_ne_true) with ⟨file, hmem, hpath⟩
        right
        rw [File.existsAt_iff]
        refine ⟨file, List.mem_filter.mpr ⟨hmem, ?_⟩, hpath⟩
        rw [hpath, hnew]
        rfl

theorem check_of_mem_merge (hold : ∀ file ∈ old, Path.check file.path = .ok ())
    (hnew : ∀ file ∈ new, Path.check file.path = .ok ()) :
    ∀ file ∈ merge old new, Path.check file.path = .ok () := by
  intro file hmem
  rcases List.mem_append.mp hmem with hthere | hgone
  · exact hnew file hthere
  · exact hold file (List.mem_of_mem_filter hgone)

theorem path_compareContents? {before after : Option String} {entry : FileDiff}
    (h : compareContents? path before after = some entry) : entry.path = path := by
  unfold compareContents? at h
  split at h
  · cases h
  · cases h
    rfl
  · cases h
    rfl
  · split at h
    · cases h
      rfl
    · cases h
      rfl

theorem exists_compareContents? {before after : Option String} (h : before ≠ after) :
    ∃ entry, compareContents? path before after = some entry ∧ entry.status ≠ .unchanged := by
  cases before with
  | none =>
      cases after with
      | none => exact absurd rfl h
      | some new => exact ⟨_, rfl, by simp⟩
  | some old =>
      cases after with
      | none => exact ⟨_, rfl, by simp⟩
      | some new =>
          have hdiffers : old ≠ new := fun hsame => h (congrArg some hsame)
          exact ⟨_, if_neg hdiffers, by simp⟩

theorem mem_compare_iff (hold : ∀ file ∈ old, Path.check file.path = .ok ())
    (hnew : ∀ file ∈ new, Path.check file.path = .ok ()) {entry : FileDiff} :
    entry ∈ (compare old new).files ↔ entry.path ≠ Path.root ∧
      compareContents? entry.path (lastContent? old entry.path) (lastContent? new entry.path) =
        some entry := by
  unfold compare
  simp only [List.mem_filterMap, TreeNode.mem_filePaths_iff (check_of_mem_merge hold hnew),
    existsAt_merge_iff]
  constructor
  · rintro ⟨path, ⟨hroot, _⟩, hentry⟩
    rw [path_compareContents? hentry]
    exact ⟨hroot, hentry⟩
  · rintro ⟨hroot, hentry⟩
    refine ⟨entry.path, ⟨hroot, ?_⟩, hentry⟩
    -- An entry needs a file in one of the bundles.
    by_contra hnone
    rw [not_or, Bool.not_eq_true, Bool.not_eq_true] at hnone
    rw [lastContent?_eq_none_iff.mpr hnone.1, lastContent?_eq_none_iff.mpr hnone.2] at hentry
    cases hentry

end BundleDiff

namespace Bundle

/-- Holds if the tree of a bundle lists its files, and a comparison with an older bundle tells where
the two differ, both of them up to a file at the root. -/
structure Shown (old new : List File) : Prop where
  listed : (TreeNode.ofFiles new).filePaths.Perm ((new.map File.path).filter (· != Path.root))
  complete : (TreeNode.ofFiles new).filePaths.Perm (new.map File.path) ↔
    File.existsAt new Path.root = false
  compared : ∀ path, path ≠ Path.root →
    (File.find? old path).map File.content ≠ (File.find? new path).map File.content →
    ∃ entry ∈ (BundleDiff.compare old new).files, entry.path = path ∧ entry.status ≠ .unchanged
  rootless : ∀ entry ∈ (BundleDiff.compare old new).files, entry.path ≠ Path.root

theorem distinct_of_accept {files : List File} {id : String} (h : accept id files = .ok ()) :
    Distinct files :=
  (checkPaths_eq_ok_iff.mp (checks_of_accept h).1).2.1

/-- Trees and comparisons show everything of the bundles that the store accepts, except for a file
at the root. -/
theorem shown_of_accept {old new : List File} {oldId newId : String}
    (hold : accept oldId old = .ok ()) (hnew : accept newId new = .ok ()) : Shown old new := by
  have holdChecked := wellFormed_of_accept hold
  have hnewChecked := wellFormed_of_accept hnew
  constructor
  · rw [← TreeNode.placesOf_eq hnewChecked]
    exact TreeNode.perm_filePaths_ofFiles new
  · exact TreeNode.perm_filePaths_iff hnewChecked
  · intro path hroot hdiffers
    rw [← (distinct_of_accept hold).lastContent?_eq,
      ← (distinct_of_accept hnew).lastContent?_eq] at hdiffers
    rcases BundleDiff.exists_compareContents? hdiffers with ⟨entry, hentry, hstatus⟩
    have hpath := BundleDiff.path_compareContents? hentry
    refine ⟨entry, ?_, hpath, hstatus⟩
    rw [BundleDiff.mem_compare_iff holdChecked hnewChecked, hpath]
    exact ⟨hroot, hentry⟩
  · intro entry hmem
    exact ((BundleDiff.mem_compare_iff holdChecked hnewChecked).mp hmem).1

def plainFiles : List File :=
  [File.ofPath "/stencil.yml" "stencil:\n  id: demo\n  name: Demo\n"]

def rootedFiles : List File :=
  plainFiles ++ [File.ofPath "/" "x"]

theorem accept_plainFiles : accept "demo" plainFiles = .ok () := rfl

theorem accept_rootedFiles : accept "demo" rootedFiles = .ok () := rfl

theorem shown_of_accept_rooted :
    accept "demo" plainFiles = .ok () ∧ accept "demo" rootedFiles = .ok () ∧
      Shown plainFiles rootedFiles :=
  ⟨accept_plainFiles, accept_rootedFiles, shown_of_accept accept_plainFiles accept_rootedFiles⟩

theorem not_shown_at_root :
    (¬ ∀ (id : String) (files : List File), accept id files = .ok () →
      (TreeNode.ofFiles files).filePaths.Perm (files.map File.path)) ∧
    ¬ ∀ (id : String) (old new : List File), accept id old = .ok () → accept id new = .ok () →
      ∀ path, (File.find? old path).map File.content ≠ (File.find? new path).map File.content →
        ∃ entry ∈ (BundleDiff.compare old new).files, entry.path = path := by
  have hplain := wellFormed_of_accept accept_plainFiles
  have hrooted := wellFormed_of_accept accept_rootedFiles
  constructor
  · intro h
    have hnone := (TreeNode.perm_filePaths_iff hrooted).mp (h "demo" rootedFiles accept_rootedFiles)
    cases hnone
  · intro h
    rcases h "demo" plainFiles rootedFiles accept_plainFiles accept_rootedFiles Path.root
      (by decide) with ⟨entry, hmem, hroot⟩
    exact ((BundleDiff.mem_compare_iff hplain hrooted).mp hmem).1 hroot

end Bundle
end StencilDesk
