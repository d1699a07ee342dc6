import Mathlib.Data.List.Nodup
import StencilDesk.Bundle.Diff
import StencilDesk.Proofs.Bundle.Tree

/-!
# Comparisons that find no change

A bundle that is compared with itself has no file that changed, and every file is listed as that. As
long as its paths are distinct, the content of a path is that of the file there.
-/

namespace StencilDesk

namespace Bundle

/-- Holds if no two files of a bundle have the same path. -/
def Distinct (files : List File) : Prop :=
  (files.map File.path).Nodup

theorem Distinct.find?_eq {files : List File} (h : Distinct files) {file : File}
    (hmem : file ∈ files) : File.find? files file.path = some file := by
  rcases File.exists_of_existsAt (File.existsAt_iff.mpr ⟨file, hmem, rfl⟩) with ⟨found, hfound⟩
  rcases File.of_find?_eq_some hfound with ⟨hfoundMem, hpath⟩
  rw [hfound, List.inj_on_of_nodup_map h hfoundMem hmem hpath]

theorem Distinct.lastContent?_eq {files : List File} (h : Distinct files) (path : String) :
    BundleDiff.lastContent? files path = (File.find? files path).map File.content := by
  have hreversed : Distinct files.reverse := by
    unfold Distinct
    rw [List.map_reverse, List.nodup_reverse]
    exact h
  unfold BundleDiff.lastContent?
  congr 1
  cases hfound : File.find? files path with
  | none =>
      rw [File.find?_eq_none_iff] at hfound ⊢
      unfold File.existsAt at hfound ⊢
      rw [List.any_reverse]
      exact hfound
  | some file =>
      rcases File.of_find?_eq_some hfound with ⟨hmem, hpath⟩
      rw [← hpath]
      exact hreversed.find?_eq (List.mem_reverse.mpr hmem)

end Bundle

namespace BundleDiff

/-- Holds of a comparison that lists the given files, all of them as unchanged. What is at the root
has no place in a tree, and is not listed. -/
structure FindsNoChange (diff : BundleDiff) (files : List File) : Prop where
  unchanged : ∀ entry ∈ diff.files, entry.status = .unchanged ∧ entry.stat = {}
  total_eq : diff.total = {}
  existing : ∀ entry ∈ diff.files, File.existsAt files entry.path = true
  complete : ∀ file ∈ files, file.path ≠ Path.root → ∃ entry ∈ diff.files, entry.path = file.path

section
variable {files : List File} {path : String}

theorem lastContent?_eq_none_iff :
    lastContent? files path = none ↔ File.existsAt files path = false := by
  unfold lastContent?
  rw [Option.map_eq_none_iff, File.find?_eq_none_iff]
  unfold File.existsAt
  rw [List.any_reverse]

theorem exists_lastContent? (h : File.existsAt files path = true) :
    ∃ content, lastContent? files path = some content := by
  cases hcontent : lastContent? files path with
  | none =>
      rw [lastContent?_eq_none_iff.mp hcontent] at h
      cases h
  | some content => exact ⟨content, rfl⟩

theorem existsAt_of_lastContent? {content : String} (h : lastContent? files path = some content) :
    File.existsAt files path = true := by
  cases hexists : File.existsAt files path with
  | true => rfl
  | false =>
      rw [lastContent?_eq_none_iff.mpr hexists] at h
      cases h

theorem merge_self (files : List File) : merge files files = files := by
  unfold merge
  have hnone : (files.filter fun file => !File.existsAt files file.path) = [] := by
    rw [List.filter_eq_nil_iff]
    intro file hmem
    simp [File.existsAt_iff.mpr ⟨file, hmem, rfl⟩]
  rw [hnone, List.append_nil]

theorem compareContents?_self (content : Option String) :
    compareContents? path content content = content.map fun _ => ⟨path, .unchanged, {}⟩ := by
  cases content with
  | none => rfl
  | some content => exact if_pos rfl

theorem foldl_add_of_zero {entries : List FileDiff} (h : ∀ entry ∈ entries, entry.stat = {})
    (total : DiffStat) : entries.foldl (fun total entry => total.add entry.stat) total = total := by
  induction entries generalizing total with
  | nil => rfl
  | cons entry rest ih =>
      rw [List.foldl_cons, h entry List.mem_cons_self]
      exact ih (fun other hmem => h other (List.mem_cons_of_mem _ hmem)) total

theorem mem_compare_self {entry : FileDiff} :
    entry ∈ (compare files files).files ↔
      ∃ path ∈ (TreeNode.ofFiles files).filePaths, ∃ content,
        lastContent? files path = some content ∧ ⟨path, .unchanged, {}⟩ = entry := by
  unfold compare
  rw [merge_self]
  simp only [List.mem_filterMap, compareContents?_self, Option.map_eq_some_iff]

theorem findsNoChange_compare_self (h : ∀ file ∈ files, Path.check file.path = .ok ()) :
    (compare files files).FindsNoChange files := by
  have hunchanged : ∀ entry ∈ (compare files files).files,
      entry.status = .unchanged ∧ entry.stat = {} := by
    intro entry hmem
    rcases mem_compare_self.mp hmem with ⟨path, _, content, _, hentry⟩
    rw [← hentry]
    exact ⟨rfl, rfl⟩
  constructor
  · exact hunchanged
  · exact foldl_add_of_zero (fun entry hmem => (hunchanged entry hmem).2) {}
  · intro entry hmem
    rcases mem_compare_self.mp hmem with ⟨path, _, content, hcontent, hentry⟩
    rw [← hentry]
    exact existsAt_of_lastContent? hcontent
  · intro file hmem hroot
    have hlisted := TreeNode.path_mem_filePaths hmem (h file hmem) hroot
    rcases exists_lastContent? (File.existsAt_iff.mpr ⟨file, hmem, rfl⟩) with ⟨content, hcontent⟩
    exact ⟨_, mem_compare_self.mpr ⟨file.path, hlisted, content, hcontent, rfl⟩, rfl⟩

end

end BundleDiff
end StencilDesk
