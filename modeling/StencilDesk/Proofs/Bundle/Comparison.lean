import Mathlib.Algebra.GroupWithZero.Nat
import StencilDesk.Proofs.Bundle.LineDiff
import StencilDesk.Proofs.Bundle.Mirror

/-!
# Comparisons of two bundles

A comparison has one entry for every path of the two bundles, in the order in which a tree of both
together lists them, even if one bundle has a file where the other has a folder. The contents before
and after decide what an entry tells. The comparison the other way round has the same entries with
everything exchanged.
-/

namespace StencilDesk

namespace Bundle

/-- Holds of a bundle that has the files at the paths of two others, whatever is in them. -/
def HasPathsOf (old new files : List File) : Prop :=
  ∀ path, path ∈ files.map File.path ↔ path ∈ old.map File.path ∨ path ∈ new.map File.path

def contentAt? (files : List File) (path : String) : Option String :=
  (File.find? files path).map File.content

section
variable {files old new : List File} {path : String}

theorem mem_paths_iff : path ∈ files.map File.path ↔ File.existsAt files path = true := by
  rw [List.mem_map, File.existsAt_iff]

theorem Addressed.of_hasPathsOf (hold : Addressed old) (hnew : Addressed new)
    (h : HasPathsOf old new files) (hdistinct : Distinct files) : Addressed files := by
  have horigin : ∀ file ∈ files, ∃ other, (other ∈ old ∨ other ∈ new) ∧ other.path = file.path := by
    intro file hmem
    rcases (h file.path).mp (List.mem_map_of_mem hmem) with hthere | hthere
    · rcases List.mem_map.mp hthere with ⟨other, hother, hpath⟩
      exact ⟨other, .inl hother, hpath⟩
    · rcases List.mem_map.mp hthere with ⟨other, hother, hpath⟩
      exact ⟨other, .inr hother, hpath⟩
  constructor
  · intro file hmem
    rcases horigin file hmem with ⟨other, hother, hpath⟩
    rw [← hpath]
    exact hother.elim (hold.wellFormed other) (hnew.wellFormed other)
  · intro file hmem
    rcases horigin file hmem with ⟨other, hother, hpath⟩
    rw [← hpath]
    exact hother.elim (hold.notRoot other) (hnew.notRoot other)
  · exact hdistinct

end
end Bundle

namespace FileStatus

def swap : FileStatus → FileStatus
  | added => removed
  | removed => added
  | modified => modified
  | unchanged => unchanged

end FileStatus

namespace FileDiff

def swap (entry : FileDiff) : FileDiff :=
  ⟨entry.path, entry.status.swap, entry.stat.swap⟩

end FileDiff

namespace BundleDiff
open StencilDesk.Bundle

def swap (diff : BundleDiff) : BundleDiff :=
  ⟨diff.files.map FileDiff.swap, diff.total.swap⟩

/-- What becomes of a file whose contents before and after are given, where there is one. -/
inductive Becomes : Option String → Option String → FileStatus → DiffStat → Prop where
  | added (text : String) : Becomes none (some text) .added ⟨lineCount text, 0⟩
  | removed (text : String) : Becomes (some text) none .removed ⟨0, lineCount text⟩
  | modified {before after : String} (differs : before ≠ after)
      (counted : (DiffStat.ofTexts before after).additions ≠ 0 ∨
        (DiffStat.ofTexts before after).deletions ≠ 0) :
      Becomes (some before) (some after) .modified (DiffStat.ofTexts before after)
  | unchanged (text : String) : Becomes (some text) (some text) .unchanged {}

/-- Holds of a comparison that tells of all files of two bundles, and nothing else. -/
structure Tells (old new : List File) (diff : BundleDiff) : Prop where
  distinct : (diff.files.map FileDiff.path).Nodup
  complete : ∀ path, path ∈ diff.files.map FileDiff.path ↔
    path ∈ old.map File.path ∨ path ∈ new.map File.path
  ordered : ∀ files, Distinct files → HasPathsOf old new files →
    diff.files.map FileDiff.path = (TreeNode.ofFiles files).filePaths
  becomes : ∀ entry ∈ diff.files,
    Becomes (contentAt? old entry.path) (contentAt? new entry.path) entry.status entry.stat
  total_eq : diff.total = ⟨(diff.files.map fun entry => entry.stat.additions).sum,
    (diff.files.map fun entry => entry.stat.deletions).sum⟩

/-!
## The files of both bundles
-/

section
variable {old new : List File}

theorem hasPathsOf_merge (old new : List File) : HasPathsOf old new (merge old new) := by
  intro path
  rw [mem_paths_iff, mem_paths_iff, mem_paths_iff]
  exact existsAt_merge_iff

theorem distinct_merge (hold : Distinct old) (hnew : Distinct new) :
    Distinct (merge old new) := by
  unfold Distinct merge
  rw [List.map_append, List.nodup_append]
  refine ⟨hnew, hold.sublist (List.filter_sublist.map _), ?_⟩
  intro path hpath other hother hsame
  rcases List.mem_map.mp hother with ⟨file, hmem, hfile⟩
  have hgone := (List.mem_filter.mp hmem).2
  rw [hfile, ← hsame, mem_paths_iff.mp hpath] at hgone
  cases hgone

theorem addressed_merge (hold : Addressed old) (hnew : Addressed new) :
    Addressed (merge old new) :=
  hold.of_hasPathsOf hnew (hasPathsOf_merge old new) (distinct_merge hold.distinct hnew.distinct)

/-- A tree of the files of both bundles lists the same paths, whichever has their contents. -/
theorem filePaths_merge (hold : Addressed old) (hnew : Addressed new) {files : List File}
    (hdistinct : Distinct files) (h : HasPathsOf old new files) :
    (TreeNode.ofFiles (merge old new)).filePaths = (TreeNode.ofFiles files).filePaths := by
  have hfiles := hold.of_hasPathsOf hnew h hdistinct
  have hmerged := addressed_merge hold hnew
  apply TreeNode.filePaths_ofFiles_congr
  · rw [hmerged.placesOf_eq]
    exact hmerged.distinct
  · rw [hfiles.placesOf_eq]
    exact hfiles.distinct
  · intro path
    rw [hmerged.placesOf_eq, hfiles.placesOf_eq]
    exact (hasPathsOf_merge old new path).trans (h path).symm

/-!
## The entries
-/

theorem exists_compareContents?_of_exists (path : String) {before after : Option String}
    (h : before.isSome = true ∨ after.isSome = true) :
    ∃ entry, compareContents? path before after = some entry := by
  cases before with
  | none =>
      cases after with
      | none => simp at h
      | some text => exact ⟨_, rfl⟩
  | some text =>
      cases after with
      | none => exact ⟨_, rfl⟩
      | some other =>
          by_cases hsame : text = other
          · exact ⟨_, if_pos hsame⟩
          · exact ⟨_, if_neg hsame⟩

theorem becomes_of_compareContents? {path : String} {before after : Option String}
    {entry : FileDiff} (h : compareContents? path before after = some entry) :
    Becomes before after entry.status entry.stat := by
  cases before with
  | none =>
      cases after with
      | none => cases h
      | some text =>
          cases h
          exact .added text
  | some text =>
      cases after with
      | none =>
          cases h
          exact .removed text
      | some other =>
          rw [compareContents?] at h
          split at h
          · next hsame =>
              cases h
              rw [hsame]
              exact .unchanged other
          · next hdiffers =>
              cases h
              apply Becomes.modified hdiffers
              by_contra hnone
              rw [not_or, not_not, not_not] at hnone
              exact hdiffers (DiffStat.isEmpty_ofTexts_iff.mp (DiffStat.isEmpty_iff.mpr hnone))

theorem compareContents?_swap (path : String) (before after : Option String) :
    compareContents? path after before =
      (compareContents? path before after).map FileDiff.swap := by
  cases before with
  | none => cases after <;> rfl
  | some text =>
      cases after with
      | none => rfl
      | some other =>
          rw [compareContents?, compareContents?]
          by_cases hsame : text = other
          · rw [if_pos hsame, if_pos hsame.symm]
            rfl
          · rw [if_neg hsame, if_neg (Ne.symm hsame), DiffStat.ofTexts, DiffStat.ofLines_swap]
            rfl

theorem isSome_lastContent?_iff {files : List File} {path : String} :
    (lastContent? files path).isSome = true ↔ path ∈ files.map File.path := by
  rw [mem_paths_iff, Option.isSome_iff_exists]
  constructor
  · rintro ⟨content, hcontent⟩
    exact existsAt_of_lastContent? hcontent
  · exact exists_lastContent?

theorem files_compare (old new : List File) : (compare old new).files =
    (TreeNode.ofFiles (merge old new)).filePaths.filterMap fun path =>
      compareContents? path (lastContent? old path) (lastContent? new path) := rfl

theorem paths_compare (hold : Addressed old) (hnew : Addressed new) :
    (compare old new).files.map FileDiff.path = (TreeNode.ofFiles (merge old new)).filePaths := by
  have hmerged := addressed_merge hold hnew
  have hpath : ∀ path ∈ (TreeNode.ofFiles (merge old new)).filePaths,
      (compareContents? path (lastContent? old path) (lastContent? new path)).map FileDiff.path =
        some path := by
    intro path hmem
    rw [(TreeNode.perm_filePaths_ofFiles _).mem_iff, hmerged.placesOf_eq,
      hasPathsOf_merge old new path] at hmem
    rw [← isSome_lastContent?_iff, ← isSome_lastContent?_iff] at hmem
    rcases exists_compareContents?_of_exists path hmem with ⟨entry, hentry⟩
    rw [hentry, Option.map_some, path_compareContents? hentry]
  rw [files_compare, List.map_filterMap, List.filterMap_congr hpath, List.filterMap_some]

theorem total_eq_sum (entries : List FileDiff) (total : DiffStat) :
    entries.foldl (fun total entry => total.add entry.stat) total =
      total.add ⟨(entries.map fun entry => entry.stat.additions).sum,
        (entries.map fun entry => entry.stat.deletions).sum⟩ := by
  induction entries generalizing total with
  | nil => rfl
  | cons entry rest ih =>
      rw [List.foldl_cons, ih]
      simp only [DiffStat.add, List.map_cons, List.sum_cons, Nat.add_assoc]

theorem total_compare (old new : List File) : (compare old new).total =
    ⟨((compare old new).files.map fun entry => entry.stat.additions).sum,
      ((compare old new).files.map fun entry => entry.stat.deletions).sum⟩ := by
  rw [compare, total_eq_sum]
  simp only [DiffStat.add, Nat.zero_add]

/-- The comparison the other way round has the same entries, with everything exchanged. -/
theorem compare_swap (hold : Addressed old) (hnew : Addressed new) :
    compare new old = (compare old new).swap := by
  have hpaths : (TreeNode.ofFiles (merge new old)).filePaths =
      (TreeNode.ofFiles (merge old new)).filePaths := by
    apply filePaths_merge hnew hold (distinct_merge hold.distinct hnew.distinct)
    intro path
    rw [hasPathsOf_merge old new path, or_comm]
  have hfiles : (compare new old).files = (compare old new).files.map FileDiff.swap := by
    rw [files_compare, files_compare, hpaths, List.map_filterMap]
    congr 1
    funext path
    exact compareContents?_swap path _ _
  have htotal : (compare new old).total = (compare old new).total.swap := by
    rw [total_compare, total_compare, hfiles, List.map_map, List.map_map]
    rfl
  show (⟨(compare new old).files, (compare new old).total⟩ : BundleDiff) = _
  rw [hfiles, htotal]
  rfl

/-!
## What a comparison tells
-/

theorem tells_of_addressed (hold : Addressed old) (hnew : Addressed new) :
    (compare old new).Tells old new := by
  have hpaths := paths_compare hold hnew
  have hmerged := addressed_merge hold hnew
  have hperm : ((compare old new).files.map FileDiff.path).Perm
      ((merge old new).map File.path) := by
    rw [hpaths, ← hmerged.placesOf_eq]
    exact TreeNode.perm_filePaths_ofFiles _
  constructor
  · exact hperm.nodup_iff.mpr hmerged.distinct
  · intro path
    rw [hperm.mem_iff]
    exact hasPathsOf_merge old new path
  · intro files hdistinct hfiles
    rw [hpaths]
    exact filePaths_merge hold hnew hdistinct hfiles
  · intro entry hmem
    have hentry := ((mem_compare_iff hold.wellFormed hnew.wellFormed).mp hmem).2
    rw [hold.distinct.lastContent?_eq, hnew.distinct.lastContent?_eq] at hentry
    exact becomes_of_compareContents? hentry
  · exact total_compare old new

/-- A comparison tells what became of every file, and the one the other way round the opposite. -/
theorem tells_compare (hold : Addressed old) (hnew : Addressed new) :
    (compare old new).Tells old new ∧ compare new old = (compare old new).swap :=
  ⟨tells_of_addressed hold hnew, compare_swap hold hnew⟩

end

def olderFiles : List File :=
  [File.ofPath "/t/a.ftl" "x\ny", File.ofPath "/stencil.yml" "stencil:\n  id: demo\n",
    File.ofPath "/t/b.ftl" "one\ntwo\n"]

def newerFiles : List File :=
  [File.ofPath "/stencil.yml" "stencil:\n  id: demo\n", File.ofPath "/t" "x",
    File.ofPath "/t/b.ftl" "one\n2\n"]

theorem addressed_olderFiles : Addressed olderFiles :=
  ⟨by decide, by decide, by unfold Distinct; decide⟩

theorem addressed_newerFiles : Addressed newerFiles :=
  ⟨by decide, by decide, by unfold Distinct; decide⟩

theorem tells_compare_newer :
    Addressed olderFiles ∧ Addressed newerFiles ∧
      (compare olderFiles newerFiles).Tells olderFiles newerFiles ∧
      compare newerFiles olderFiles = (compare olderFiles newerFiles).swap := by
  have htells := tells_compare addressed_olderFiles addressed_newerFiles
  exact ⟨addressed_olderFiles, addressed_newerFiles, htells.1, htells.2⟩

end BundleDiff
end StencilDesk
