import Mathlib.Data.List.Induction
import StencilDesk.Proofs.Findings
import StencilDesk.Proofs.Session.Effect

/-!
# The baseline of a session

The baseline holds the checksums of the files as they were when the session was last saved, or when
it began. No other operation touches it, so what counts as changed can be read off those files.
-/

namespace StencilDesk

/-!
## Checksums of files
-/

namespace PathMap

variable {α : Type}

theorem exists_mem_entries_iff {map : PathMap α} {path : String} {p : α → Prop} :
    (∃ entry ∈ map.entries, entry.1 = path ∧ p entry.2) ↔
      ∃ value, map.get? path = some value ∧ p value := by
  constructor
  · rintro ⟨entry, hmem, hpath, hvalue⟩
    rw [← hpath]
    exact ⟨entry.2, get?_of_mem_entries hmem, hvalue⟩
  · rintro ⟨value, hfound, hvalue⟩
    rcases Option.map_eq_some_iff.mp hfound with ⟨entry, hentry, hsame⟩
    rw [← hsame] at hvalue
    exact ⟨entry, List.mem_of_find?_eq_some hentry, by simpa using List.find?_some hentry, hvalue⟩

end PathMap

namespace BundleDiff

theorem lastContent?_concat (files : List File) (file : File) (path : String) :
    lastContent? (files ++ [file]) path =
      if file.path = path then some file.content else lastContent? files path := by
  unfold lastContent? File.find?
  rw [List.reverse_append, List.reverse_singleton, List.singleton_append]
  by_cases hsame : file.path = path
  · rw [List.find?_cons_of_pos (by simpa using hsame), if_pos hsame]
    rfl
  · rw [List.find?_cons_of_neg (by simpa using hsame), if_neg hsame]

end BundleDiff

namespace Session

variable {σ : Type}

theorem checksums_concat (files : List File) (file : File) :
    checksums (files ++ [file]) =
      (checksums files).insert file.path (Checksum.ofText file.content) := by
  unfold checksums PathMap.ofList
  rw [List.map_append, List.foldl_append]
  rfl

theorem get?_checksums (files : List File) (path : String) :
    (checksums files).get? path =
      (BundleDiff.lastContent? files path).map Checksum.ofText := by
  induction files using List.reverseRecOn with
  | nil => rfl
  | append_singleton files file ih =>
      rw [checksums_concat, BundleDiff.lastContent?_concat]
      by_cases hsame : file.path = path
      · rw [if_pos hsame, hsame, PathMap.get?_insert_self]
        rfl
      · rw [if_neg hsame, PathMap.get?_insert_of_ne _ _ (Ne.symm hsame), ih]

/-- A path is changed if its checksum is not the one of the baseline, or there is only one. -/
theorem mem_changedPaths_iff {s : Session} {path : String} :
    path ∈ s.changedPaths ↔ s.baseline.get? path ≠ (checksums s.files).get? path := by
  unfold changedPaths
  rw [List.mem_mergeSort, List.map_append, List.mem_append]
  have hchanged : (path ∈ ((checksums s.files).entries.filter fun entry =>
      s.baseline.get? entry.1 != some entry.2).map Prod.fst) ↔
      ∃ sum, (checksums s.files).get? path = some sum ∧ s.baseline.get? path ≠ some sum := by
    rw [List.mem_map, ← PathMap.exists_mem_entries_iff]
    constructor
    · rintro ⟨entry, hmem, hpath⟩
      rcases List.mem_filter.mp hmem with ⟨hentry, hdiffers⟩
      rw [hpath] at hdiffers
      exact ⟨entry, hentry, hpath, by simpa using hdiffers⟩
    · rintro ⟨entry, hentry, hpath, hdiffers⟩
      refine ⟨entry, List.mem_filter.mpr ⟨hentry, ?_⟩, hpath⟩
      rw [hpath]
      simpa using hdiffers
  have hgone : (path ∈ (s.baseline.entries.filter fun entry =>
      ((checksums s.files).get? entry.1).isNone).map Prod.fst) ↔
      ∃ sum, s.baseline.get? path = some sum ∧ (checksums s.files).get? path = none := by
    rw [List.mem_map, ← PathMap.exists_mem_entries_iff]
    constructor
    · rintro ⟨entry, hmem, hpath⟩
      rcases List.mem_filter.mp hmem with ⟨hentry, hnone⟩
      rw [hpath] at hnone
      exact ⟨entry, hentry, hpath, by simpa using hnone⟩
    · rintro ⟨entry, hentry, hpath, hnone⟩
      refine ⟨entry, List.mem_filter.mpr ⟨hentry, ?_⟩, hpath⟩
      rw [hpath]
      simpa using hnone
  rw [hchanged, hgone]
  cases hnow : (checksums s.files).get? path <;> cases hthen : s.baseline.get? path <;> simp

/-!
## The files that the baseline is about
-/

def savedBy (service : StoreService σ) (s : Session) (saved : List File) (store : σ) :
    Operation → List File
  | .save author message =>
      match (s.save service author message store).1.1 with
      | .ok _ => s.files
      | .error _ => saved
  | _ => saved

/-- The files as they were last saved, after some operations. -/
def savedFiles (service : StoreService σ) (s : Session) (saved : List File) (store : σ) :
    List Operation → List File
  | [] => saved
  | operation :: rest =>
      (s.perform service operation store).1.savedFiles service
        (s.savedBy service saved store operation) (s.perform service operation store).2 rest

theorem baseline_of_begins {P : List File → Prop} {s : Session} (h : s.Begins P) :
    s.baseline = checksums s.files := by
  cases h with
  | start => rfl
  | loaded => rfl

theorem baseline_installed (s : Session) (files : List File) (board : FindingBoard) :
    (s.installed files board).baseline = s.baseline := by
  rcases replaceFiles_eq s files with ⟨tabs, active, replaced, hreplaced⟩
  unfold installed
  rw [hreplaced]

theorem baseline_perform (service : StoreService σ) (s : Session) (store : σ)
    (operation : Operation) {saved : List File} (h : s.baseline = checksums saved) :
    (s.perform service operation store).1.baseline =
      checksums (s.savedBy service saved store operation) := by
  have heffect := effect_perform service s store operation
  cases operation with
  | save author message =>
      rcases save_answer_cases service s author message store with
        ⟨fault, hfailed⟩ | ⟨answer, versions, _, _, hsaved⟩
      · have hkept : (s.perform service (.save author message) store).1 = s :=
          congrArg Prod.snd hfailed
        rw [hkept, savedBy, hfailed]
        exact h
      · have hnext : (s.perform service (.save author message) store).1 =
            (s.saved answer.serial).setVersions versions := congrArg Prod.snd hsaved
        rw [hnext, savedBy, hsaved]
        rfl
  | install files =>
      generalize (s.perform service (.install files) store).1 = next at heffect ⊢
      cases heffect with
      | none => exact h
      | install _ board => exact (baseline_installed s files board).trans h
  | restore serial =>
      generalize (s.perform service (.restore serial) store).1 = next at heffect ⊢
      cases heffect with
      | none => exact h
      | restore _ board => exact (baseline_installed s _ board).trans h
  | _ =>
      -- No other effect mentions the baseline.
      suffices hkept : (s.perform service _ store).1.baseline = s.baseline from hkept.trans h
      generalize (s.perform service _ store).1 = next at heffect ⊢
      cases heffect <;> rfl

theorem baseline_run {service : StoreService σ} {s : Session} {saved : List File}
    (operations : List Operation) (store : σ) (h : s.baseline = checksums saved) :
    (s.run service operations store).1.baseline =
      checksums (s.savedFiles service saved store operations) := by
  induction operations generalizing s saved store with
  | nil => exact h
  | cons operation rest ih =>
      rw [run_cons, savedFiles]
      exact ih _ (baseline_perform service s store operation h)

/-- The checksums of a run are those of the files that it began with, or has last saved. -/
theorem get?_baseline_run {P : List File → Prop} {service : StoreService σ} {s : Session}
    (hbegins : s.Begins P) (operations : List Operation) (store : σ) (path : String) :
    (s.run service operations store).1.baseline.get? path =
      (BundleDiff.lastContent? (s.savedFiles service s.files store operations) path).map
        Checksum.ofText := by
  rw [baseline_run operations store (baseline_of_begins hbegins), get?_checksums]

end Session
end StencilDesk
