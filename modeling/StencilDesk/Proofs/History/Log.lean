import StencilDesk.Proofs.History.Isolation
import StencilDesk.Proofs.History.Serials

/-!
# A folder that keeps a log

The folder of a stencil keeps a log of versions if it holds the text of each of them under its
serial, no other files of versions, and names the last one as active. What the store reads from
such a folder is the log.
-/

namespace StencilDesk
namespace Store

open Directory

/-- Holds if the folder of a stencil keeps the given versions, the oldest one first. -/
structure Keeps (root : Location) (id : String) (directory : Directory)
    (log : List Snapshot) : Prop where
  distinct : (directory.under (root ++ [id])).Distinct
  folderFree : directory.isFile (root ++ [id]) = false
  versionsFree : directory.isFile (versionsFolder (root ++ [id])) = false
  activeFree : directory.isFolder (activeFile (root ++ [id])) = false
  valid : log ≠ [] → Bundle.isStencilId id = true
  prepared : log ≠ [] → directory.isFolder (versionsFolder (root ++ [id])) = true
  stored : ∀ version ∈ log, ∃ text,
    directory.item? (versionFile (root ++ [id]) version.serial) = some (.file (.text text)) ∧
      Snapshot.ofText? text = some version
  onlyStored : ∀ serial, serial ∉ log.map Snapshot.serial →
    directory.item? (versionFile (root ++ [id]) serial) = none
  serialsDistinct : (log.map Snapshot.serial).Nodup
  configured : ∀ version ∈ log, File.existsAt version.files File.mainConfigPath = true
  marked : ∀ version ∈ log, version.isActive = true
  named : ∀ before last, log = before ++ [last] →
    directory.item? (activeFile (root ++ [id])) = some (.file (.text last.serial.text))

def shownAfter (last version : Snapshot) : Snapshot :=
  { version with isActive := some last.serial == some version.serial }

/-!
## Single versions
-/

section
variable {root : Location} {id : String} {directory : Directory} {log before : List Snapshot}
  {last version : Snapshot}

theorem Keeps.existingFolder (h : Keeps root id directory log) (hsome : log ≠ []) :
    existingFolder directory root id = .ok (root ++ [id]) := by
  unfold Store.existingFolder stencilFolder
  rw [if_pos (h.valid hsome)]
  simp only [bind, Except.bind, h.prepared hsome, Bool.not_true]
  rfl

theorem namedActive_of_text {folder : Location} {serial : Serial}
    (h : directory.item? (activeFile folder) = some (.file (.text serial.text))) :
    namedActive directory folder = .ok (some serial) := by
  have hsome : serial.text.toList.isEmpty = false := by
    rw [List.isEmpty_eq_false_iff]
    exact serial.text_ne_nil
  unfold namedActive
  rw [h]
  simp only [Serial.trim_text, hsome, String.ofList_toList, Serial.ofText_text]
  rfl

theorem Keeps.active (h : Keeps root id directory (before ++ [last])) :
    active directory (root ++ [id]) = .ok (some last.serial) := by
  unfold Store.active
  rw [namedActive_of_text (h.named before last rfl)]
  rfl

theorem Keeps.readVersion (h : Keeps root id directory log) (hmem : version ∈ log) :
    readVersion directory (root ++ [id]) (some last.serial) version.serial =
      .ok (shownAfter last version) := by
  rcases h.stored version hmem with ⟨text, hitem, hread⟩
  unfold Store.readVersion
  rw [hitem]
  simp only [hread]
  rfl

theorem Keeps.mem_serials_iff (h : Keeps root id directory log) {serial : Serial} :
    serial ∈ serials directory (root ++ [id]) ↔ serial ∈ log.map Snapshot.serial := by
  rw [Store.mem_serials_iff]
  constructor
  · intro hfile
    by_cases hmem : serial ∈ log.map Snapshot.serial
    · exact hmem
    · exact absurd (h.onlyStored serial hmem) (item?_ne_none_of_isFile hfile)
  · intro hmem
    rcases List.mem_map.mp hmem with ⟨version, hversion, hsame⟩
    rcases h.stored version hversion with ⟨text, hitem, _⟩
    rw [← hsame]
    exact isFile_of_item? hitem

theorem Keeps.eq_of_serial_eq (h : Keeps root id directory log) {other : Snapshot}
    (hmem : version ∈ log) (hother : other ∈ log) (hsame : version.serial = other.serial) :
    version = other :=
  List.inj_on_of_nodup_map h.serialsDistinct hmem hother hsame

/-- Every version of the log can be read, and is marked as active if it is the last one. -/
theorem Keeps.snapshot (h : Keeps root id directory (before ++ [last]))
    (hmem : version ∈ before ++ [last]) :
    snapshot directory root id version.serial = .ok (shownAfter last version) := by
  unfold Store.snapshot
  rw [h.existingFolder (by simp)]
  simp only [bind, Except.bind, h.active, h.readVersion hmem]

theorem shownAfter_self (h : last.isActive = true) : shownAfter last last = last := by
  unfold shownAfter
  rw [beq_self_eq_true, ← h]

theorem isActive_shownAfter_of_ne (h : version.serial ≠ last.serial) :
    (shownAfter last version).isActive = false := by
  show (some last.serial == some version.serial) = false
  rw [beq_eq_false_iff_ne]
  intro hsame
  exact h (Option.some.inj hsame).symm

/-!
## All versions
-/

theorem mapM_eq_ok {α β : Type} {f : α → Except StoreFault β} {R : α → β → Prop} {list : List α}
    (h : ∀ a ∈ list, ∃ b, f a = .ok b ∧ R a b) :
    ∃ results, list.mapM f = .ok results ∧ List.Forall₂ R list results := by
  induction list with
  | nil => exact ⟨[], rfl, .nil⟩
  | cons a rest ih =>
      rcases h a List.mem_cons_self with ⟨b, hfirst, hrelated⟩
      rcases ih fun other hmem => h other (List.mem_cons_of_mem _ hmem) with
        ⟨results, hrest, hall⟩
      refine ⟨b :: results, ?_, .cons hrelated hall⟩
      rw [List.mapM_cons, hfirst]
      simp only [bind, Except.bind, hrest]
      rfl

def ReadAs (log : List Snapshot) (last : Snapshot) (serial : Serial) (read : Snapshot) : Prop :=
  ∃ version ∈ log, version.serial = serial ∧ read = shownAfter last version

theorem serials_of_readAs {list : List Serial} {results : List Snapshot}
    (h : List.Forall₂ (ReadAs log last) list results) :
    results.map Snapshot.serial = list := by
  induction h with
  | nil => rfl
  | cons hread _ ih =>
      rcases hread with ⟨version, _, hserial, hshown⟩
      rw [List.map_cons, ih, hshown]
      congr 1

theorem mem_of_readAs {list : List Serial} {results : List Snapshot}
    (h : List.Forall₂ (ReadAs log last) list results) {read : Snapshot} (hmem : read ∈ results) :
    ∃ version ∈ log, read = shownAfter last version := by
  induction h with
  | nil => cases hmem
  | cons hread _ ih =>
      rcases List.mem_cons.mp hmem with hfirst | hrest
      · rcases hread with ⟨version, hversion, _, hshown⟩
        exact ⟨version, hversion, hfirst.trans hshown⟩
      · exact ih hrest

theorem nodup_map_shownAfter (h : (log.map Snapshot.serial).Nodup) :
    (log.map (shownAfter last)).Nodup := by
  apply List.Nodup.of_map Snapshot.serial
  rw [List.map_map]
  exact h

theorem Keeps.readVersions (h : Keeps root id directory (before ++ [last])) :
    ∃ versions, (serials directory (root ++ [id])).reverse.mapM
        (Store.readVersion directory (root ++ [id]) (some last.serial)) = .ok versions ∧
      List.Forall₂ (ReadAs (before ++ [last]) last) (serials directory (root ++ [id])).reverse
        versions := by
  apply mapM_eq_ok
  intro serial hmem
  rw [List.mem_reverse, h.mem_serials_iff] at hmem
  rcases List.mem_map.mp hmem with ⟨version, hversion, hsame⟩
  rw [← hsame]
  exact ⟨shownAfter last version, h.readVersion hversion, version, hversion, rfl, rfl⟩

theorem Keeps.perm_of_readAs (h : Keeps root id directory log) {versions : List Snapshot}
    (hall : List.Forall₂ (ReadAs log last) (serials directory (root ++ [id])).reverse versions) :
    versions.Perm (log.map (shownAfter last)) := by
  have hserials := serials_of_readAs hall
  have hnodup : versions.Nodup := by
    apply List.Nodup.of_map Snapshot.serial
    rw [hserials, List.nodup_reverse]
    exact nodup_serials h.distinct
  rw [List.perm_ext_iff_of_nodup hnodup (nodup_map_shownAfter h.serialsDistinct)]
  intro read
  constructor
  · intro hmem
    rcases mem_of_readAs hall hmem with ⟨version, hversion, hshown⟩
    rw [hshown]
    exact List.mem_map_of_mem hversion
  · intro hmem
    rcases List.mem_map.mp hmem with ⟨version, hversion, hshown⟩
    have hlisted : version.serial ∈ versions.map Snapshot.serial := by
      rw [hserials, List.mem_reverse, h.mem_serials_iff]
      exact List.mem_map_of_mem hversion
    rcases List.mem_map.mp hlisted with ⟨other, hother, hsame⟩
    rcases mem_of_readAs hall hother with ⟨source, hsource, hshownOther⟩
    -- Serials are distinct in the log, so what was read under this serial is this version.
    have hsourceEq : source = version := by
      apply h.eq_of_serial_eq hsource hversion
      rw [← hsame, hshownOther]
      rfl
    rw [← hshown, ← hsourceEq, ← hshownOther]
    exact hother

theorem mergeSort_of_descending {versions : List Snapshot}
    (h : versions.Pairwise fun a b => b.serial.text < a.serial.text) :
    versions.mergeSort listedBefore = versions := by
  apply List.mergeSort_of_pairwise
  apply h.imp
  intro a b hlater
  unfold listedBefore
  rw [Serial.le_iff, ← String.not_lt]
  intro hback
  exact String.lt_irrefl _ (String.lt_trans hlater hback)

/-- The listing of a folder that keeps a log: each version once, later serials first. -/
theorem Keeps.versionsIn (h : Keeps root id directory (before ++ [last])) :
    ∃ versions, versionsIn directory (root ++ [id]) = .ok versions ∧
      versions.Pairwise (fun a b => b.serial.text < a.serial.text) ∧
      versions.Perm ((before ++ [last]).map (shownAfter last)) := by
  rcases h.readVersions with ⟨versions, hread, hall⟩
  have hdescending : versions.Pairwise fun a b => b.serial.text < a.serial.text := by
    have hascending := pairwise_serials h.distinct
    rw [← List.pairwise_reverse, ← serials_of_readAs hall, List.pairwise_map] at hascending
    exact hascending
  refine ⟨versions, ?_, hdescending, h.perm_of_readAs hall⟩
  unfold Store.versionsIn
  rw [h.active]
  simp only [bind, Except.bind, hread, mergeSort_of_descending hdescending]
  rfl

end

end Store
end StencilDesk
