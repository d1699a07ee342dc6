import Mathlib.Data.List.Dedup
import StencilDesk.Proofs.Bundle.Diff
import StencilDesk.Proofs.Bundle.Storable
import StencilDesk.Proofs.Session.Baseline
import StencilDesk.Proofs.Session.Step

/-!
# What counts as changed

A session tells the paths whose content is not the one that was last saved, in ascending order,
each once. It knows the saved contents by their checksums only, so this is exact as long as no two
contents of a path share a checksum. The paths of a bundle stay distinct all along.
-/

namespace StencilDesk

/-!
## Bundles with distinct paths
-/

namespace Bundle

theorem Distinct.append {files : List File} (h : Distinct files) {file : File}
    (htaken : isTaken files file.path = false) : Distinct (files ++ [file]) := by
  unfold Distinct
  rw [List.map_append, List.map_singleton, ← List.concat_eq_append]
  apply List.Nodup.concat _ h
  intro hmem
  rcases List.mem_map.mp hmem with ⟨old, hold, hpath⟩
  exact (isTaken_eq_false_iff.mp htaken old hold).1 hpath

theorem Distinct.createFile {files next : List File} (h : Distinct files) {parent name : String}
    (hcreate : createFile files parent name = .ok next) : Distinct next := by
  rcases createFile_eq_ok hcreate with ⟨_, _, _, htaken, hnext⟩
  rw [hnext]
  exact h.append htaken

theorem Distinct.of_sublist {files rest : List File} (h : Distinct files)
    (hrest : rest.Sublist files) : Distinct rest :=
  List.Nodup.sublist (hrest.map File.path) h

theorem Distinct.moveFile {files next : List File} (h : Distinct files) {path new : String}
    (hmove : moveFile files path new = .ok next) : Distinct next := by
  rcases moveFile_cases hmove with hkept | ⟨_, _, others, file, hsub, _, htaken, hperm⟩
  · rw [hkept]
    exact h
  · exact (hperm.map File.path).nodup_iff.mpr ((h.of_sublist hsub).append htaken)

theorem Distinct.change {files next : List File} (h : Distinct files)
    (hchange : Change Distinct files next) : Distinct next := by
  cases hchange with
  | kept => exact h
  | edited path content =>
      unfold Distinct
      rw [paths_replaceFirst (f := fun file => { file with content }) files fun _ => rfl]
      exact h
  | createdFile hcreate => exact h.createFile hcreate
  | createdFolder hcreate => exact h.createFile (createFolder_eq_ok hcreate).2.2
  | moved hmove => exact h.moveFile hmove
  | deleted hdelete =>
      rw [deleteFile_eq_ok hdelete]
      exact h.of_sublist List.filter_sublist
  | replaced hnext => exact hnext

end Bundle

namespace Session

open BundleDiff (lastContent?)

variable {σ : Type}

/-!
## The list of changed paths
-/

theorem nodup_paths_entries {α : Type} (map : PathMap α) : (map.entries.map Prod.fst).Nodup := by
  have hdiffer : (map.entries.map Prod.fst).Pairwise fun a b => a < b :=
    List.pairwise_map.mpr map.ascending
  apply hdiffer.imp
  intro a b hlt hsame
  rw [hsame] at hlt
  exact String.lt_irrefl b hlt

theorem nodup_changes (s : Session) :
    ((((checksums s.files).entries.filter fun entry =>
        s.baseline.get? entry.1 != some entry.2) ++
      s.baseline.entries.filter fun entry =>
        ((checksums s.files).get? entry.1).isNone).map Prod.fst).Nodup := by
  rw [List.map_append, List.nodup_append]
  refine ⟨?_, ?_, ?_⟩
  · exact (nodup_paths_entries _).sublist (List.filter_sublist.map Prod.fst)
  · exact (nodup_paths_entries _).sublist (List.filter_sublist.map Prod.fst)
  · intro path hnow other hgone hsame
    rcases List.mem_map.mp hnow with ⟨entry, hentry, hpath⟩
    rcases List.mem_map.mp hgone with ⟨old, hold, hother⟩
    have hthere := PathMap.get?_of_mem_entries (List.mem_filter.mp hentry).1
    have hnone := (List.mem_filter.mp hold).2
    rw [hother, ← hsame, ← hpath, hthere] at hnone
    cases hnone

theorem pairwise_changedPaths (s : Session) : s.changedPaths.Pairwise fun a b => a < b :=
  Path.pairwise_lt_mergeSort id (by simpa using nodup_changes s)

/-!
## Contents and checksums
-/

/-- Holds if the contents that the files of two bundles have at one path differ in their checksums,
unless they are the same. -/
def Discerns (saved files : List File) : Prop :=
  ∀ path old new, lastContent? saved path = some old → lastContent? files path = some new →
    Checksum.ofText old = Checksum.ofText new → old = new

theorem checksum_eq_iff {saved files : List File} (h : Discerns saved files) (path : String) :
    (lastContent? saved path).map Checksum.ofText = (lastContent? files path).map Checksum.ofText ↔
      lastContent? saved path = lastContent? files path := by
  constructor
  · intro hsums
    cases hold : lastContent? saved path with
    | none =>
        rw [hold, Option.map_none, eq_comm, Option.map_eq_none_iff] at hsums
        exact hsums.symm
    | some old =>
        rw [hold, Option.map_some, eq_comm, Option.map_eq_some_iff] at hsums
        rcases hsums with ⟨new, hnew, hsum⟩
        rw [hnew, h path old new hold hnew hsum.symm]
  · intro hsame
    rw [hsame]

/-- What a session tells about changes, if the given files were saved last. -/
structure Reports (s : Session) (saved : List File) : Prop where
  ascending : s.changedPaths.Pairwise fun a b => a < b
  exact : ∀ path, path ∈ s.changedPaths ↔ lastContent? saved path ≠ lastContent? s.files path
  unsaved : s.hasUnsavedChanges = false ↔
    (∀ tab ∈ s.tabs, tab.dirty = false) ∧
      ∀ path, lastContent? saved path = lastContent? s.files path

theorem hasUnsavedChanges_eq_false_iff {s : Session} :
    s.hasUnsavedChanges = false ↔ (∀ tab ∈ s.tabs, tab.dirty = false) ∧ s.changedPaths = [] := by
  unfold hasUnsavedChanges
  rw [Bool.or_eq_false_iff, List.any_eq_false, Bool.not_eq_false', List.isEmpty_iff]
  simp only [Bool.not_eq_true]

theorem reports_of_baseline {s : Session} {saved : List File}
    (hbaseline : s.baseline = checksums saved) (hsums : Discerns saved s.files) :
    s.Reports saved := by
  have hexact : ∀ path,
      path ∈ s.changedPaths ↔ lastContent? saved path ≠ lastContent? s.files path := by
    intro path
    rw [mem_changedPaths_iff, hbaseline, get?_checksums, get?_checksums, ne_eq,
      checksum_eq_iff hsums]
  refine ⟨pairwise_changedPaths s, hexact, ?_⟩
  rw [hasUnsavedChanges_eq_false_iff, List.eq_nil_iff_forall_not_mem]
  simp only [hexact, not_not]

theorem clean_of_save {service : StoreService σ} {s next : Session} {author : String}
    {message : Option String} {store after : σ} {answer : SaveAnswer}
    (h : s.save service author message store = ((.ok answer, next), after)) :
    next.changedPaths = [] ∧ (∀ tab ∈ next.tabs, tab.dirty = false) ∧
      next.hasUnsavedChanges = false := by
  have hnext : ∃ saved versions, next = (s.saved saved).setVersions versions := by
    rcases save_answer_cases service s author message store with
      ⟨fault, hfailed⟩ | ⟨saved, versions, _, _, hsaved⟩
    · rw [h] at hfailed
      cases hfailed
    · rw [h] at hsaved
      exact ⟨saved.serial, versions, congrArg Prod.snd hsaved⟩
  rcases hnext with ⟨saved, versions, hnext⟩
  have hpaths : next.changedPaths = [] := by
    rw [List.eq_nil_iff_forall_not_mem]
    intro path hmem
    rw [mem_changedPaths_iff, hnext] at hmem
    exact hmem rfl
  have htabs : ∀ tab ∈ next.tabs, tab.dirty = false := by
    intro tab hmem
    rw [hnext] at hmem
    rcases List.mem_map.mp hmem with ⟨old, _, hsaved⟩
    rw [← hsaved]
    rfl
  exact ⟨hpaths, htabs, hasUnsavedChanges_eq_false_iff.mpr ⟨htabs, hpaths⟩⟩

/-!
## Runs
-/

theorem distinct_savedBy {service : StoreService σ} {s : Session} {saved : List File}
    (hfiles : Bundle.Distinct s.files) (hsaved : Bundle.Distinct saved) (store : σ)
    (operation : Operation) : Bundle.Distinct (s.savedBy service saved store operation) := by
  cases operation with
  | save author message =>
      rw [savedBy]
      split
      · exact hfiles
      · exact hsaved
  | _ => exact hsaved

theorem distinct_run {service : StoreService σ} {operations : List Operation} {s : Session}
    {saved : List File} (hfiles : Bundle.Distinct s.files) (hsaved : Bundle.Distinct saved)
    (hinstalls : ∀ operation ∈ operations,
      operation.Installs service s.stencilId Bundle.Distinct) (store : σ) :
    Bundle.Distinct (s.run service operations store).1.files ∧
      Bundle.Distinct (s.savedFiles service saved store operations) := by
  induction operations generalizing s saved store with
  | nil => exact ⟨hfiles, hsaved⟩
  | cons operation rest ih =>
      have hstep := step_perform (hinstalls operation List.mem_cons_self) store
      rw [run_cons, savedFiles]
      apply ih (hfiles.change hstep.change) (distinct_savedBy hfiles hsaved store operation)
      intro other hmem
      rw [hstep.stencilId_eq]
      exact hinstalls other (List.mem_cons_of_mem _ hmem)

/-- After any run a session tells exactly the paths whose content is not the one that was last
saved, and nothing right after the next save. If paths are distinct, contents are those of the
files at the paths. -/
theorem reports_run {service : StoreService σ} {s : Session} (hbegins : s.Begins fun _ => True)
    (operations : List Operation) (store : σ)
    (hsums : Discerns (s.savedFiles service s.files store operations)
      (s.run service operations store).1.files) :
    (s.run service operations store).1.Reports (s.savedFiles service s.files store operations) ∧
      (∀ author message store' answer next after,
        (s.run service operations store).1.save service author message store' =
            ((.ok answer, next), after) →
          next.changedPaths = [] ∧ (∀ tab ∈ next.tabs, tab.dirty = false) ∧
            next.hasUnsavedChanges = false) ∧
      (Bundle.Distinct s.files →
        (∀ operation ∈ operations, operation.Installs service s.stencilId Bundle.Distinct) →
        ∀ path,
          lastContent? (s.savedFiles service s.files store operations) path =
              (File.find? (s.savedFiles service s.files store operations) path).map
                File.content ∧
            lastContent? (s.run service operations store).1.files path =
              ((s.run service operations store).1.file? path).map File.content) := by
  constructor
  · exact reports_of_baseline (baseline_run operations store (baseline_of_begins hbegins)) hsums
  constructor
  · intro author message store' answer next after hsave
    exact clean_of_save hsave
  · intro hfiles hinstalls path
    rcases distinct_run hfiles hfiles hinstalls store with ⟨hnow, hsaved⟩
    exact ⟨hsaved.lastContent?_eq path, hnow.lastContent?_eq path⟩

def jotFiles : List File :=
  [File.ofPath "/stencil.yml" "a:", File.ofPath "/note.txt" "n"]

def jotOperations : List Operation :=
  [.openFile "/note.txt", .edit "/note.txt" "m", .createFile "/" "new.txt",
    .deleteFile "/stencil.yml", .save "ann" none]

def jotStore : DirectoryStore :=
  { now := ⟨⟨2025, 9, 13⟩, 10, 0, 0, 0, 0⟩ }

theorem savedFiles_jot :
    (start "demo" jotFiles).savedFiles DirectoryStore.service jotFiles jotStore jotOperations =
      [File.ofPath "/stencil.yml" "a:", File.ofPath "/note.txt" "n"] := by decide +kernel

theorem files_jot :
    ((start "demo" jotFiles).run DirectoryStore.service jotOperations jotStore).1.files =
      [File.ofPath "/note.txt" "m", File.ofPath "/new.txt" ""] := by decide +kernel

theorem discerns_jot :
    Discerns [File.ofPath "/stencil.yml" "a:", File.ofPath "/note.txt" "n"]
      [File.ofPath "/note.txt" "m", File.ofPath "/new.txt" ""] := by
  have hsums : Checksum.ofText "n" ≠ Checksum.ofText "m" := by decide +kernel
  intro path old new hold hnew hsum
  rcases File.existsAt_iff.mp (BundleDiff.existsAt_of_lastContent? hold) with ⟨file, hmem, hpath⟩
  rw [← hpath] at hold hnew
  simp only [List.mem_cons, List.not_mem_nil, or_false] at hmem
  rcases hmem with hconfig | hnote
  · rw [hconfig] at hnew
    cases hnew
  · rw [hnote] at hold hnew
    cases hold
    cases hnew
    exact absurd hsum hsums

theorem reports_run_jot :
    (start "demo" jotFiles).Begins (fun _ => True) ∧
      Discerns ((start "demo" jotFiles).savedFiles DirectoryStore.service jotFiles jotStore
          jotOperations)
        ((start "demo" jotFiles).run DirectoryStore.service jotOperations jotStore).1.files ∧
      ∀ path ∈ ["/new.txt", "/note.txt", "/stencil.yml"], path ∈
        ((start "demo" jotFiles).run DirectoryStore.service jotOperations
          jotStore).1.changedPaths := by
  have hbegins : (start "demo" jotFiles).Begins (fun _ => True) := .start "demo" trivial
  have hsums := discerns_jot
  rw [← savedFiles_jot, ← files_jot] at hsums
  have hexact := (reports_run hbegins jotOperations jotStore hsums).1.exact
  rw [show (start "demo" jotFiles).files = jotFiles from rfl, savedFiles_jot, files_jot] at hexact
  refine ⟨hbegins, hsums, ?_⟩
  intro path hmem
  rw [hexact]
  revert path
  decide

end Session
end StencilDesk
