import StencilDesk.Proofs.History.Growth

/-!
# The store over whole runs

After any number of saves, on any stencils and at any times, the store serves of each stencil what
was saved of it: every version as it was requested, the last one active.
-/

namespace StencilDesk
namespace Store

open Directory

structure SaveCall where
  request : SaveRequest
  now : Timestamp

def saveAll (root : Location) (directory : Directory) :
    List SaveCall → Directory × List (SaveCall × Except StoreFault SaveAnswer)
  | [] => (directory, [])
  | call :: rest =>
      let (next, answer) := save root call.request call.now directory
      let (last, answers) := saveAll root next rest
      (last, (call, answer) :: answers)

def savedVersion? (id : String) : SaveCall × Except StoreFault SaveAnswer → Option Snapshot
  | (call, .ok answer) =>
      if call.request.stencilId = id then
        some (requestedVersion call.request call.now answer.serial)
      else none
  | (_, .error _) => none

def savedVersions (id : String) (answers : List (SaveCall × Except StoreFault SaveAnswer)) :
    List Snapshot :=
  answers.filterMap (savedVersion? id)

structure Vacant (root : Location) (directory : Directory) : Prop where
  clear : Clear root directory
  nothing : ∀ name names, directory.item? (root ++ name :: names) = none

def retired (version : Snapshot) : Snapshot :=
  { version with isActive := false }

/-- What the store answers about a stencil of which some versions were saved, one of them last. -/
structure Serves (root : Location) (id : String) (directory : Directory)
    (before : List Snapshot) (last : Snapshot) : Prop where
  /-- Every version is listed once, later serials first, and only the last one is active. -/
  history : ∃ versions, history directory root id = .ok versions ∧
    versions.Pairwise (fun a b => b.serial.text < a.serial.text) ∧
    versions.Perm (before.map retired ++ [last]) ∧
    versions.filter Snapshot.isActive = [last]
  snapshotBefore : ∀ version ∈ before,
    snapshot directory root id version.serial = .ok (retired version)
  snapshotLast : snapshot directory root id last.serial = .ok last
  load : ∃ loaded, load directory root id none = .ok loaded ∧ loaded.stencilId = id ∧
    loaded.serial = last.serial ∧ loaded.files = last.files ∧
    Store.history directory root id = .ok loaded.versions

structure SameAnswers (root : Location) (id : String) (a b : Directory) : Prop where
  history : Store.history a root id = Store.history b root id
  snapshot : ∀ serial, Store.snapshot a root id serial = Store.snapshot b root id serial
  load : ∀ serial, Store.load a root id serial = Store.load b root id serial

section
variable {root : Location} {id : String} {directory : Directory} {before : List Snapshot}
  {last : Snapshot}

/-!
## From the log to the answers
-/

theorem shownAfter_of_mem_before (h : ((before ++ [last]).map Snapshot.serial).Nodup)
    {version : Snapshot} (hmem : version ∈ before) : shownAfter last version = retired version := by
  have hne : version.serial ≠ last.serial := by
    intro hsame
    rw [List.map_append, List.map_singleton, List.nodup_append] at h
    exact h.2.2 _ (List.mem_map_of_mem hmem) _ List.mem_cons_self hsame
  have hinactive : (some last.serial == some version.serial) = false :=
    isActive_shownAfter_of_ne hne
  unfold shownAfter
  rw [hinactive]
  rfl

theorem map_shownAfter (h : ((before ++ [last]).map Snapshot.serial).Nodup)
    (hmarked : last.isActive = true) :
    (before ++ [last]).map (shownAfter last) = before.map retired ++ [last] := by
  rw [List.map_append, List.map_singleton, shownAfter_self hmarked]
  congr 1
  apply List.map_congr_left
  intro version hmem
  exact shownAfter_of_mem_before h hmem

theorem filter_isActive (hmarked : last.isActive = true) {versions : List Snapshot}
    (h : versions.Perm (before.map retired ++ [last])) :
    versions.filter Snapshot.isActive = [last] := by
  have hnone : (before.map retired).filter Snapshot.isActive = [] := by
    rw [List.filter_eq_nil_iff]
    intro version hmem
    rcases List.mem_map.mp hmem with ⟨old, _, hretired⟩
    rw [← hretired]
    exact Bool.false_ne_true
  have hfiltered := h.filter Snapshot.isActive
  rw [List.filter_append, hnone, List.nil_append, List.filter_cons_of_pos hmarked,
    List.filter_nil] at hfiltered
  exact List.perm_singleton.mp hfiltered

theorem Keeps.load (h : Keeps root id directory (before ++ [last])) {versions : List Snapshot}
    (hversions : Store.versionsIn directory (root ++ [id]) = .ok versions) :
    ∃ loaded, Store.load directory root id none = .ok loaded ∧ loaded.stencilId = id ∧
      loaded.serial = last.serial ∧ loaded.files = last.files ∧ loaded.versions = versions := by
  have hlast : last ∈ before ++ [last] := List.mem_append_right _ List.mem_cons_self
  have hread : Store.readVersion directory (root ++ [id]) (some last.serial) last.serial =
      .ok (shownAfter last last) := h.readVersion hlast
  rw [shownAfter_self (h.marked last hlast)] at hread
  rcases File.exists_of_existsAt (h.configured last hlast) with ⟨config, hconfig⟩
  have hfile : last.file? File.mainConfigPath = some config := hconfig
  unfold Store.load
  rw [h.existingFolder (by simp)]
  have hchosen : (none <|> some last.serial) = some last.serial := rfl
  simp only [bind, Except.bind, h.active, hchosen, hread, hfile, hversions]
  exact ⟨_, rfl, rfl, rfl, rfl, rfl⟩

theorem Keeps.serves (h : Keeps root id directory (before ++ [last])) :
    Serves root id directory before last := by
  have hlast : last ∈ before ++ [last] := List.mem_append_right _ List.mem_cons_self
  have hmarked := h.marked last hlast
  rcases h.versionsIn with ⟨versions, hversions, hdescending, hperm⟩
  rw [map_shownAfter h.serialsDistinct hmarked] at hperm
  have hhistory : Store.history directory root id = .ok versions := by
    unfold Store.history
    rw [h.existingFolder (by simp)]
    exact hversions
  constructor
  · exact ⟨versions, hhistory, hdescending, hperm, filter_isActive hmarked hperm⟩
  · intro version hmem
    rw [h.snapshot (List.mem_append_left _ hmem), shownAfter_of_mem_before h.serialsDistinct hmem]
  · rw [h.snapshot hlast, shownAfter_self hmarked]
  · rcases h.load hversions with ⟨loaded, hload, hid, hserial, hfiles, hlisted⟩
    refine ⟨loaded, hload, hid, hserial, hfiles, ?_⟩
    rw [hlisted]
    exact hhistory

/-!
## From the run to the log
-/

theorem Vacant.keeps (h : Vacant root directory) (id : String) : Keeps root id directory [] := by
  have hbelow : ∀ names, directory.item? (root ++ [id] ++ names) = none := by
    intro names
    rw [List.append_assoc, List.singleton_append]
    exact h.nothing id names
  have hfolder := h.nothing id []
  have hversions : directory.item? (versionsFolder (root ++ [id])) = none := hbelow [versionsName]
  have hactive : directory.item? (activeFile (root ++ [id])) = none := hbelow [activeName]
  constructor
  · rw [under_eq_empty (stencilFolder_ne_nil root id) hbelow]
    exact List.nodup_nil
  · exact isFile_eq_false_iff.mpr (.inl hfolder)
  · exact isFile_eq_false_iff.mpr (.inl hversions)
  · unfold isFolder
    rw [hactive]
    rfl
  · intro hsome
    exact absurd rfl hsome
  · intro hsome
    exact absurd rfl hsome
  · intro version hmem
    cases hmem
  · intro serial _
    rw [versionFile_eq]
    exact hbelow _
  · exact List.nodup_nil
  · intro version hmem
    cases hmem
  · intro version hmem
    cases hmem
  · intro before last hlog
    simp at hlog

/-- Holds if the way to a store is clear, and the folder of each stencil keeps its log. -/
structure KeepsAll (root : Location) (directory : Directory) (logs : String → List Snapshot) :
    Prop where
  clear : Clear root directory
  keeps : ∀ id, Keeps root id directory (logs id)

variable {logs : String → List Snapshot} {request : SaveRequest} {now : Timestamp}

theorem Vacant.keepsAll (h : Vacant root directory) : KeepsAll root directory fun _ => [] :=
  ⟨h.clear, h.keeps⟩

theorem savedVersion?_ok (call : SaveCall) (answer : SaveAnswer) :
    savedVersion? call.request.stencilId (call, .ok answer) =
      some (requestedVersion call.request call.now answer.serial) := by
  unfold savedVersion?
  exact if_pos rfl

theorem savedVersion?_error (id : String) (call : SaveCall) (fault : StoreFault) :
    savedVersion? id (call, .error fault) = none := rfl

theorem savedVersion?_of_ne {call : SaveCall} (answer : Except StoreFault SaveAnswer)
    (h : call.request.stencilId ≠ id) : savedVersion? id (call, answer) = none := by
  cases answer with
  | error fault => rfl
  | ok answer => exact if_neg h

/-- A save adds what it has made to the log of its stencil, and leaves the other logs alone. -/
theorem KeepsAll.save (h : KeepsAll root directory logs) {call : SaveCall}
    (htime : call.now.Expressible) :
    KeepsAll root (save root call.request call.now directory).1 fun id =>
      logs id ++
        (savedVersion? id (call, (save root call.request call.now directory).2)).toList := by
  constructor
  · exact h.clear.save (h.keeps _) htime
  · intro id
    by_cases hid : call.request.stencilId = id
    · rw [← hid]
      rcases (h.keeps call.request.stencilId).save htime with
        ⟨fault, hrefused, hkept⟩ | ⟨serial, hsaved, hkept⟩
      · rw [hrefused, savedVersion?_error, Option.toList_none, List.append_nil]
        exact hkept
      · rw [hsaved, savedVersion?_ok]
        exact hkept
    · rw [savedVersion?_of_ne _ hid, Option.toList_none, List.append_nil]
      exact (h.keeps id).of_under_eq (under_save (Ne.symm hid))

theorem savedVersions_saveAll_cons (id : String) (call : SaveCall) (rest : List SaveCall) :
    savedVersions id (saveAll root directory (call :: rest)).2 =
      (savedVersion? id (call, (save root call.request call.now directory).2)).toList ++
        savedVersions id
          (saveAll root (save root call.request call.now directory).1 rest).2 := by
  unfold savedVersions
  rw [saveAll, List.filterMap_cons]
  cases savedVersion? id (call, (save root call.request call.now directory).2) with
  | none => rfl
  | some version => rfl

theorem KeepsAll.saveAll (h : KeepsAll root directory logs) {calls : List SaveCall}
    (htimes : ∀ call ∈ calls, call.now.Expressible) :
    KeepsAll root (saveAll root directory calls).1 fun id =>
      logs id ++ savedVersions id (saveAll root directory calls).2 := by
  -- The logs grow from call to call, so the induction is over the calls with any logs before them.
  induction calls generalizing directory logs with
  | nil =>
      show KeepsAll root directory fun id => logs id ++ []
      simp only [List.append_nil]
      exact h
  | cons call rest ih =>
      have hfirst := h.save (htimes call List.mem_cons_self)
      have hrest := ih hfirst fun other hmem => htimes other (List.mem_cons_of_mem _ hmem)
      simp only [savedVersions_saveAll_cons, ← List.append_assoc]
      exact hrest

theorem sameAnswers_save (h : id ≠ request.stencilId) :
    SameAnswers root id (save root request now directory).1 directory := by
  have hsame : (save root request now directory).1.under (root ++ [id]) =
      directory.under (root ++ [id]) := under_save h
  constructor
  · exact history_congr hsame
  · exact snapshot_congr hsame
  · exact load_congr hsame

/-- After any run of saves the store serves of each stencil what was saved of it. A further save
fails only through one of its checks, and does not show in what is read of other stencils. -/
theorem serves_saveAll (h : Vacant root directory) {calls : List SaveCall}
    (htimes : ∀ call ∈ calls, call.now.Expressible) :
    (∀ id before last, savedVersions id (saveAll root directory calls).2 = before ++ [last] →
      Serves root id (saveAll root directory calls).1 before last) ∧
    (∀ call : SaveCall, call.now.Expressible →
      (∃ serial, (save root call.request call.now (saveAll root directory calls).1).2 =
        .ok ⟨serial, true⟩) ∨
      Bundle.isStencilId call.request.stencilId = false ∨
      (∃ fault, Bundle.accept call.request.stencilId call.request.files = .error fault) ∨
      (save root call.request call.now (saveAll root directory calls).1).2 =
        .error (.invalidSerial (.exhausted (String.ofList (Serial.datePrefix call.now.date))))) ∧
    ∀ (call : SaveCall) (id : String), id ≠ call.request.stencilId →
      SameAnswers root id (save root call.request call.now (saveAll root directory calls).1).1
        (saveAll root directory calls).1 := by
  have hall := h.keepsAll.saveAll htimes
  constructor
  · intro id before last hsaved
    have hkept := hall.keeps id
    rw [List.nil_append, hsaved] at hkept
    exact hkept.serves
  constructor
  · intro call htime
    cases hid : Bundle.isStencilId call.request.stencilId with
    | false => exact .inr (.inl rfl)
    | true =>
        cases haccept : Bundle.accept call.request.stencilId call.request.files with
        | error fault => exact .inr (.inr (.inl ⟨fault, rfl⟩))
        | ok _ =>
            rcases (hall.keeps _).save_of_checks hall.clear htime hid haccept with
              hsaved | hexhausted
            · exact .inl hsaved
            · exact .inr (.inr (.inr hexhausted))
  · intro call id hother
    exact sameAnswers_save hother

end

def backwardCalls : List SaveCall :=
  [⟨⟨"demo", none, [File.ofPath "/stencil.yml" "a:"], "ann", none⟩,
      ⟨⟨2025, 9, 13⟩, 10, 0, 0, 0, 0⟩⟩,
    ⟨⟨"other", none, [File.ofPath "/stencil.yml" "b:"], "ann", none⟩,
      ⟨⟨2025, 9, 13⟩, 10, 0, 0, 0, 0⟩⟩,
    ⟨⟨"demo", some ⟨"250913A", rfl⟩, [File.ofPath "/stencil.yml" "c:"], "ben", some "again"⟩,
      ⟨⟨2025, 9, 12⟩, 23, 0, 0, 0, 0⟩⟩]

theorem serves_saveAll_backward :
    Vacant ["stencils"] {} ∧ (∀ call ∈ backwardCalls, call.now.Expressible) ∧
      Serves ["stencils"] "demo" (saveAll ["stencils"] {} backwardCalls).1
        [⟨⟨"250913A", rfl⟩, ⟨⟨2025, 9, 13⟩, 10, 0, 0, 0, 0⟩, "ann", true, none,
          [File.ofPath "/stencil.yml" "a:"]⟩]
        ⟨⟨"250912A", rfl⟩, ⟨⟨2025, 9, 12⟩, 23, 0, 0, 0, 0⟩, "ben", true,
          some "again", [File.ofPath "/stencil.yml" "c:"]⟩ := by
  have hvacant : Vacant ["stencils"] {} := by
    constructor
    · intro location _
      rw [isFile_eq_false_iff]
      by_cases hempty : location = []
      · exact .inr (if_pos hempty)
      · exact .inl (item?_of_ne_nil _ hempty)
    · intro name names
      rfl
  have htimes : ∀ call ∈ backwardCalls, call.now.Expressible := by
    intro call hmem
    unfold backwardCalls at hmem
    simp only [List.mem_cons, List.not_mem_nil, or_false] at hmem
    rcases hmem with rfl | rfl | rfl
    · exact ⟨by decide, by decide, by decide, by decide, by decide, by decide⟩
    · exact ⟨by decide, by decide, by decide, by decide, by decide, by decide⟩
    · exact ⟨by decide, by decide, by decide, by decide, by decide, by decide⟩
  refine ⟨hvacant, htimes, (serves_saveAll hvacant htimes).1 _ _ _ ?_⟩
  decide +kernel

end Store
end StencilDesk
