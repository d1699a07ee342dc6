import StencilDesk.Proofs.Bundle.Storable
import StencilDesk.Proofs.History.Runs

/-!
# What was saved can be read ever after

A version that was saved stays as it is, whatever later saves come to. That includes saves that
stop half way, because their time cannot be written: these leave a file behind that cannot be read,
but never in the place of a version.
-/

namespace StencilDesk

/-!
## Times of a clock
-/

namespace Timestamp

structure Possible (time : Timestamp) : Prop where
  date_valid : time.date.isValid = true
  hour_le : time.hour ≤ 23
  minute_le : time.minute ≤ 59
  second_le : time.second ≤ 59
  nanosecond_lt : time.nanosecond < 1000000000

theorem Possible.expressible {time : Timestamp} (h : time.Possible) {text : String}
    (htext : time.text? = some text) : time.Expressible := by
  refine ⟨h.date_valid, h.hour_le, h.minute_le, h.second_le, h.nanosecond_lt, ?_⟩
  cases hwritable : time.isWritable with
  | true => rfl
  | false =>
      unfold text? at htext
      rw [hwritable] at htext
      cases htext

end Timestamp

theorem Snapshot.ofText?_of_text? {version : Snapshot} (h : version.createdAt.Possible)
    {text : String} (htext : version.text? = some text) : ofText? text = some version := by
  have htime : ∃ time, version.createdAt.text? = some time := by
    unfold text? toJson? at htext
    cases hwritten : version.createdAt.text? with
    | none =>
        rw [hwritten] at htext
        cases htext
    | some time => exact ⟨time, rfl⟩
  rcases htime with ⟨time, hwritten⟩
  rcases exists_text (h.expressible hwritten) with ⟨stored, hstored, hread⟩
  rw [htext, Option.some.injEq] at hstored
  rw [hstored]
  exact hread

namespace Store

open Directory

variable {root : Location} {id : String} {directory prepared next : Directory}
  {versions : List Snapshot} {version : Snapshot} {request : SaveRequest} {now : Timestamp}

/-!
## What a save may do
-/

/-- What a save comes to in any directory: it does nothing, makes folders, leaves a file behind, or
publishes a version. The file of the version is a new one. -/
inductive Attempt (root : Location) (request : SaveRequest) (now : Timestamp)
    (directory : Directory) : Directory × Except StoreFault SaveAnswer → Prop where
  | refused (fault : StoreFault) : Attempt root request now directory (directory, .error fault)
  | prepared {prepared : Directory} (fault : StoreFault)
      (hprepare : prepare root request directory = .ok prepared) :
      Attempt root request now directory (prepared, .error fault)
  | abandoned {prepared : Directory} {serial : Serial} (fault : StoreFault) (text : String)
      (hprepare : prepare root request directory = .ok prepared)
      (hfree : prepared.item? (versionFile (root ++ [request.stencilId]) serial) = none) :
      Attempt root request now directory
        ((prepared.set (versionFile (root ++ [request.stencilId]) serial) (.file (.text ""))).set
          (versionFile (root ++ [request.stencilId]) serial) (.file (.text text)), .error fault)
  | published {prepared : Directory} {serial : Serial} {text : String}
      (hprepare : prepare root request directory = .ok prepared)
      (hfree : prepared.item? (versionFile (root ++ [request.stencilId]) serial) = none)
      (htext : (requestedVersion request now serial).text? = some text) :
      Attempt root request now directory
        (Store.published prepared (root ++ [request.stencilId]) serial text, .ok ⟨serial, true⟩)

theorem set_of_createVersion {folder : Location} {serial : Serial} {created : Directory}
    (h : createVersion folder serial prepared = .ok created) :
    prepared.item? (versionFile folder serial) = none ∧
      created = prepared.set (versionFile folder serial) (.file (.text "")) := by
  rcases createVersion_eq_ok h with ⟨hfree, hwritten⟩
  unfold isOccupied at hfree
  rw [Option.isSome_eq_false_iff, Option.isNone_iff_eq_none] at hfree
  exact ⟨hfree, write?_eq_some hwritten⟩

theorem attempt_save : Attempt root request now directory (save root request now directory) := by
  -- Stage by stage. A save gets past the creation of its file only if nothing was there.
  cases hprepared : prepare root request directory with
  | error fault =>
      rw [save_of_refused hprepared]
      exact .refused _
  | ok prepared =>
      cases hnext : Serial.next now.date (serials prepared (root ++ [request.stencilId])) with
      | error fault =>
          rw [save_of_exhausted hprepared hnext]
          exact .prepared _ hprepared
      | ok serial =>
          cases hcreated : createVersion (root ++ [request.stencilId]) serial prepared with
          | error fault =>
              rw [save_of_occupied hprepared hnext hcreated]
              exact .prepared _ hprepared
          | ok created =>
              rcases set_of_createVersion hcreated with ⟨hfree, hset⟩
              cases htext : (requestedVersion request now serial).text? with
              | none =>
                  rw [save_of_unwritable hprepared hnext hcreated htext, hset]
                  exact .abandoned _ _ hprepared hfree
              | some text =>
                  cases hnamed : (created.set (versionFile (root ++ [request.stencilId]) serial)
                      (.file (.text text))).write? (activeFile (root ++ [request.stencilId]))
                      (.text serial.text) with
                  | none =>
                      rw [save_of_locked hprepared hnext hcreated htext hnamed, hset]
                      exact .abandoned _ _ hprepared hfree
                  | some last =>
                      rw [save_of_named hprepared hnext hcreated htext hnamed,
                        write?_eq_some hnamed, hset]
                      exact .published hprepared hfree htext

/-!
## Versions that can be read
-/

/-- Holds if no version is named as the active one, or some serial is. -/
def NamesSerial (root : Location) (id : String) (directory : Directory) : Prop :=
  directory.item? (activeFile (root ++ [id])) = none ∨
    ∃ serial : Serial,
      directory.item? (activeFile (root ++ [id])) = some (.file (.text serial.text))

/-- Holds if the folder of a stencil has some versions. There may be other files. -/
structure Archives (root : Location) (id : String) (directory : Directory)
    (versions : List Snapshot) : Prop where
  valid : versions ≠ [] → Bundle.isStencilId id = true
  prepared : versions ≠ [] → directory.isFolder (versionsFolder (root ++ [id])) = true
  stored : ∀ version ∈ versions, ∃ text,
    directory.item? (versionFile (root ++ [id]) version.serial) = some (.file (.text text)) ∧
      Snapshot.ofText? text = some version
  accepted : ∀ version ∈ versions, Bundle.accept id version.files = .ok ()
  named : NamesSerial root id directory

theorem NamesSerial.active (h : NamesSerial root id directory) :
    ∃ serial, active directory (root ++ [id]) = .ok serial := by
  unfold Store.active
  rcases h with hnone | ⟨serial, hnamed⟩
  · have hread : namedActive directory (root ++ [id]) = .ok none := by
      unfold namedActive
      rw [hnone]
    rw [hread]
    exact ⟨_, rfl⟩
  · rw [namedActive_of_text hnamed]
    exact ⟨_, rfl⟩

/-- A version of an archive can be read. Whether it is the active one may have changed. -/
theorem Archives.snapshot (h : Archives root id directory versions) (hmem : version ∈ versions) :
    ∃ isActive,
      Store.snapshot directory root id version.serial = .ok { version with isActive } := by
  have hsome : versions ≠ [] := List.ne_nil_of_mem hmem
  rcases h.named.active with ⟨active, hactive⟩
  rcases h.stored version hmem with ⟨text, hitem, hread⟩
  have hversion : readVersion directory (root ++ [id]) active version.serial =
      .ok { version with isActive := active == some version.serial } := by
    unfold readVersion
    rw [hitem]
    simp only [hread]
  have hfolder : existingFolder directory root id = .ok (root ++ [id]) := by
    unfold existingFolder stencilFolder
    rw [if_pos (h.valid hsome)]
    simp only [bind, Except.bind, h.prepared hsome, Bool.not_true]
    rfl
  unfold Store.snapshot
  rw [hfolder]
  simp only [bind, Except.bind, hactive, hversion]
  exact ⟨_, rfl⟩

/-!
## Archives grow
-/

theorem Archives.frame (h : Archives root id directory versions)
    (hprepared : versions ≠ [] → next.isFolder (versionsFolder (root ++ [id])) = true)
    (hfiles : ∀ serial, directory.item? (versionFile (root ++ [id]) serial) ≠ none →
      next.item? (versionFile (root ++ [id]) serial) =
        directory.item? (versionFile (root ++ [id]) serial))
    (hnamed : NamesSerial root id next) : Archives root id next versions := by
  refine ⟨h.valid, hprepared, ?_, h.accepted, hnamed⟩
  intro version hmem
  rcases h.stored version hmem with ⟨text, hitem, hread⟩
  refine ⟨text, ?_, hread⟩
  rw [hfiles version.serial (by simp [hitem])]
  exact hitem

theorem Archives.append (h : Archives root id directory versions)
    (hid : Bundle.isStencilId id = true)
    (hprepared : directory.isFolder (versionsFolder (root ++ [id])) = true) {text : String}
    (hread : Snapshot.ofText? text = some version)
    (hitem : directory.item? (versionFile (root ++ [id]) version.serial) =
      some (.file (.text text)))
    (haccept : Bundle.accept id version.files = .ok ()) :
    Archives root id directory (versions ++ [version]) := by
  refine ⟨fun _ => hid, fun _ => hprepared, ?_, ?_, h.named⟩
  · rw [List.forall_mem_append, List.forall_mem_singleton]
    exact ⟨h.stored, text, hitem, hread⟩
  · rw [List.forall_mem_append, List.forall_mem_singleton]
    exact ⟨h.accepted, haccept⟩

theorem Archives.prepare (h : Archives root request.stencilId directory versions)
    (hprepare : Store.prepare root request directory = .ok prepared) :
    Archives root request.stencilId prepared versions := by
  apply h.frame
  · intro _
    exact isFolder_of_prepare hprepare (List.prefix_refl _)
  · intro serial _
    exact item?_of_prepare hprepare (versionFile_off_way _ serial)
  · have hsame := item?_of_prepare hprepare (activeFile_off_way (root ++ [request.stencilId]))
    unfold NamesSerial
    rw [hsame]
    exact h.named

theorem Archives.abandoned (h : Archives root id directory versions) {serial : Serial}
    (hfree : directory.item? (versionFile (root ++ [id]) serial) = none) (text : String) :
    Archives root id ((directory.set (versionFile (root ++ [id]) serial) (.file (.text ""))).set
      (versionFile (root ++ [id]) serial) (.file (.text text))) versions := by
  have hkept : ∀ location, location ≠ versionFile (root ++ [id]) serial →
      ((directory.set (versionFile (root ++ [id]) serial) (.file (.text ""))).set
        (versionFile (root ++ [id]) serial) (.file (.text text))).item? location =
        directory.item? location := by
    intro location hne
    rw [item?_set_other _ _ hne, item?_set_other _ _ hne]
  apply h.frame
  · intro hsome
    have hne : versionsFolder (root ++ [id]) ≠ versionFile (root ++ [id]) serial := by
      intro hsame
      apply versionFile_off_way (root ++ [id]) serial
      rw [← hsame]
    rw [isFolder_congr (hkept _ hne)]
    exact h.prepared hsome
  · intro other hother
    apply hkept
    intro hsame
    rw [hsame] at hother
    exact hother hfree
  · unfold NamesSerial
    rw [hkept _ (versionFile_ne_activeFile _ serial).symm]
    exact h.named

theorem Archives.published (h : Archives root id directory versions)
    (hid : Bundle.isStencilId id = true)
    (hprepared : directory.isFolder (versionsFolder (root ++ [id])) = true) {text : String}
    (hread : Snapshot.ofText? text = some version)
    (hfree : directory.item? (versionFile (root ++ [id]) version.serial) = none)
    (haccept : Bundle.accept id version.files = .ok ()) :
    Archives root id (Store.published directory (root ++ [id]) version.serial text)
      (versions ++ [version]) := by
  have hfolder : (Store.published directory (root ++ [id]) version.serial text).isFolder
      (versionsFolder (root ++ [id])) = true := by
    rw [isFolder_congr (item?_published_way _ _ (List.prefix_refl _))]
    exact hprepared
  have hold : Archives root id (Store.published directory (root ++ [id]) version.serial text)
      versions := by
    apply h.frame
    · intro _
      exact hfolder
    · intro other hother
      apply item?_published_of_ne
      intro hsame
      rw [hsame] at hother
      exact hother hfree
    · exact .inr ⟨version.serial, item?_published_active _ _ _⟩
  exact hold.append hid hfolder hread (item?_published_version _ _ _) haccept

theorem Archives.of_under_eq (h : Archives root id directory versions)
    (hsame : next.under (root ++ [id]) = directory.under (root ++ [id])) :
    Archives root id next versions := by
  have hitems := item?_congr (stencilFolder_ne_nil root id) hsame
  have hversions : next.item? (versionsFolder (root ++ [id])) =
      directory.item? (versionsFolder (root ++ [id])) := hitems [versionsName]
  have hactive : next.item? (activeFile (root ++ [id])) =
      directory.item? (activeFile (root ++ [id])) := hitems [activeName]
  apply h.frame
  · rw [isFolder_congr hversions]
    exact h.prepared
  · intro serial _
    rw [versionFile_eq]
    exact hitems _
  · unfold NamesSerial
    rw [hactive]
    exact h.named

theorem Archives.save (h : Archives root request.stencilId directory versions)
    (htime : now.Possible) :
    (∃ fault, (save root request now directory).2 = .error fault ∧
        Archives root request.stencilId (save root request now directory).1 versions) ∨
      ∃ serial, (save root request now directory).2 = .ok ⟨serial, true⟩ ∧
        Archives root request.stencilId (save root request now directory).1
          (versions ++ [requestedVersion request now serial]) := by
  have hattempt : Attempt root request now directory (Store.save root request now directory) :=
    attempt_save
  generalize Store.save root request now directory = result at hattempt ⊢
  cases hattempt with
  | refused fault => exact .inl ⟨fault, rfl, h⟩
  | prepared fault hprepare => exact .inl ⟨fault, rfl, h.prepare hprepare⟩
  | abandoned fault text hprepare hfree =>
      exact .inl ⟨fault, rfl, (h.prepare hprepare).abandoned hfree text⟩
  | published hprepare hfree htext =>
      rename_i prepared serial text
      rcases prepare_eq_ok hprepare with ⟨hid, haccept, _⟩
      have hfolder := isFolder_of_prepare hprepare (List.prefix_refl _)
      have hread : Snapshot.ofText? text = some (requestedVersion request now serial) :=
        Snapshot.ofText?_of_text? htime htext
      have hgrown := (h.prepare hprepare).published hid hfolder hread hfree haccept
      exact .inr ⟨serial, rfl, hgrown⟩

/-!
## All saves
-/

theorem vacant_empty (root : Location) : Vacant root {} := by
  constructor
  · intro location _
    rw [isFile_eq_false_iff]
    by_cases hempty : location = []
    · exact .inr (if_pos hempty)
    · exact .inl (item?_of_ne_nil _ hempty)
  · intro name names
    rw [item?_of_ne_nil _ (by simp)]
    rfl

theorem Vacant.archives (h : Vacant root directory) (id : String) :
    Archives root id directory [] := by
  have hactive : directory.item? (activeFile (root ++ [id])) = none := by
    unfold activeFile
    rw [List.append_assoc]
    exact h.nothing id [activeName]
  refine ⟨?_, ?_, ?_, ?_, .inl hactive⟩
  · intro hsome
    exact absurd rfl hsome
  · intro hsome
    exact absurd rfl hsome
  · intro version hmem
    cases hmem
  · intro version hmem
    cases hmem

variable {logs : String → List Snapshot}

theorem archives_save (h : ∀ id, Archives root id directory (logs id)) {call : SaveCall}
    (htime : call.now.Possible) (id : String) :
    Archives root id (save root call.request call.now directory).1
      (logs id ++
        (savedVersion? id (call, (save root call.request call.now directory).2)).toList) := by
  by_cases hid : call.request.stencilId = id
  · rw [← hid]
    rcases (h call.request.stencilId).save htime with
      ⟨fault, hfailed, hkept⟩ | ⟨serial, hsaved, hgrown⟩
    · rw [hfailed, savedVersion?_error, Option.toList_none, List.append_nil]
      exact hkept
    · rw [hsaved, savedVersion?_ok]
      exact hgrown
  · rw [savedVersion?_of_ne _ hid, Option.toList_none, List.append_nil]
    exact (h id).of_under_eq (under_save (Ne.symm hid))

/-- What some saves have made of a stencil can be read, whatever became of the other saves. -/
theorem archives_saveAll (h : ∀ id, Archives root id directory (logs id)) {calls : List SaveCall}
    (htimes : ∀ call ∈ calls, call.now.Possible) (id : String) :
    Archives root id (saveAll root directory calls).1
      (logs id ++ savedVersions id (saveAll root directory calls).2) := by
  -- As for the logs, the induction is over the calls with any archives before them.
  induction calls generalizing directory logs with
  | nil =>
      show Archives root id directory (logs id ++ [])
      rw [List.append_nil]
      exact h id
  | cons call rest ih =>
      have hfirst := archives_save h (htimes call List.mem_cons_self)
      have hrest := ih hfirst fun other hmem => htimes other (List.mem_cons_of_mem _ hmem)
      rw [savedVersions_saveAll_cons, ← List.append_assoc]
      exact hrest

end Store
end StencilDesk
