import StencilDesk.Proofs.History.Failing

/-!
# The steps of a save

What a single step of a save changes, in whatever directory it is taken, and what it leaves alone.
A file is only created where nothing is, and no step of a save changes a version that is there,
unless the save itself has created it.
-/

namespace StencilDesk

namespace SaveStage

def saved? : SaveStage → Option Serial
  | finished (.ok serial) => some serial
  | _ => none

def held? : SaveStage → Option Serial
  | created snapshot => some snapshot.serial
  | written serial => some serial
  | stage => stage.saved?

theorem eq_finished_of_saved? {stage : SaveStage} {serial : Serial}
    (h : stage.saved? = some serial) : stage = finished (.ok serial) := by
  unfold saved? at h
  split at h
  · cases h
    rfl
  · cases h

/-- Holds of the stages at which a save has created a file, and of the outcomes after them. -/
def IsPast : SaveStage → Prop
  | created _ | written _ | finished (.ok _) => True
  | finished (.error fault) => fault = .format ∨ fault = .access
  | _ => False

def stepsLeft : SaveStage → Nat
  | requested => 6
  | prepared => 5
  | listed _ => 4
  | chosen _ => 3
  | created _ => 2
  | written _ => 1
  | finished _ => 0

end SaveStage

namespace Store

open Directory

variable {root : Location} {call : SaveCall} {begun directory next : Directory}
  {stage after : SaveStage} {serial : Serial}

def savedConcurrently (serial : Serial) : StoreFault :=
  .rejected s!"version {serial.text} was saved concurrently"

/-- What a save does with its next step, by the stage to which it has come. -/
inductive Move (root : Location) (call : SaveCall) (directory : Directory) :
    SaveStage → Directory → SaveStage → Prop where
  | refused {fault : StoreFault} (hprepare : prepare root call.request directory = .error fault) :
      Move root call directory .requested directory (.finished (.error fault))
  | prepared {next : Directory} (hprepare : prepare root call.request directory = .ok next) :
      Move root call directory .requested next .prepared
  | listed :
      Move root call directory .prepared directory
        (.listed (serials directory (root ++ [call.request.stencilId])))
  | exhausted {existing : List Serial} {fault : SerialFault}
      (hnext : Serial.next call.now.date existing = .error fault) :
      Move root call directory (.listed existing) directory
        (.finished (.error (.invalidSerial fault)))
  | chosen {existing : List Serial} {serial : Serial}
      (hnext : Serial.next call.now.date existing = .ok serial) :
      Move root call directory (.listed existing) directory
        (.chosen (requestedVersion call.request call.now serial))
  | occupied {version : Snapshot}
      (hthere : directory.isOccupied
        (versionFile (root ++ [call.request.stencilId]) version.serial) = true) :
      Move root call directory (.chosen version) directory
        (.finished (.error (savedConcurrently version.serial)))
  | unopened {version : Snapshot}
      (hfree : directory.item?
        (versionFile (root ++ [call.request.stencilId]) version.serial) = none) :
      Move root call directory (.chosen version) directory (.finished (.error .access))
  | created {version : Snapshot}
      (hfree : directory.item?
        (versionFile (root ++ [call.request.stencilId]) version.serial) = none) :
      Move root call directory (.chosen version)
        (directory.set (versionFile (root ++ [call.request.stencilId]) version.serial)
          (.file (.text ""))) (.created version)
  | broken {version : Snapshot} (htext : version.text? = none) :
      Move root call directory (.created version)
        (directory.set (versionFile (root ++ [call.request.stencilId]) version.serial)
          (.file (.text version.brokenText))) (.finished (.error .format))
  | written {version : Snapshot} {text : String} (htext : version.text? = some text) :
      Move root call directory (.created version)
        (directory.set (versionFile (root ++ [call.request.stencilId]) version.serial)
          (.file (.text text))) (.written version.serial)
  | unnamed {serial : Serial} :
      Move root call directory (.written serial) directory (.finished (.error .access))
  | named {serial : Serial} :
      Move root call directory (.written serial)
        (directory.set (activeFile (root ++ [call.request.stencilId]))
          (.file (.text serial.text))) (.finished (.ok serial))
  | finished (outcome : Except StoreFault Serial) :
      Move root call directory (.finished outcome) directory (.finished outcome)

theorem createVersion_eq_error {folder : Location} {fault : StoreFault}
    (h : createVersion folder serial directory = .error fault) :
    directory.isOccupied (versionFile folder serial) = true ∧ fault = savedConcurrently serial ∨
      directory.item? (versionFile folder serial) = none ∧ fault = .access := by
  unfold createVersion at h
  dsimp only at h
  split at h
  · rename_i hthere
    cases h
    exact .inl ⟨hthere, rfl⟩
  · rename_i hthere
    rw [Bool.not_eq_true, isOccupied, Option.isSome_eq_false_iff,
      Option.isNone_iff_eq_none] at hthere
    split at h
    · cases h
    · cases h
      exact .inr ⟨hthere, rfl⟩

theorem move_advance (stage : SaveStage) :
    Move root call directory stage (advance root call.request call.now directory stage).1
      (advance root call.request call.now directory stage).2 := by
  cases stage with
  | requested =>
      cases hprepare : prepare root call.request directory with
      | error fault =>
          rw [advance_requested_of_error hprepare]
          exact .refused hprepare
      | ok prepared =>
          rw [advance_requested_of_ok hprepare]
          exact .prepared hprepare
  | prepared => exact .listed
  | listed existing =>
      cases hnext : Serial.next call.now.date existing with
      | error fault =>
          rw [advance_listed_of_error hnext]
          exact .exhausted hnext
      | ok serial =>
          rw [advance_listed_of_ok hnext]
          exact .chosen hnext
  | chosen version =>
      cases hcreated : createVersion (root ++ [call.request.stencilId]) version.serial
          directory with
      | error fault =>
          rw [advance_chosen_of_error version hcreated]
          rcases createVersion_eq_error hcreated with ⟨hthere, hfault⟩ | ⟨hfree, hfault⟩
          · rw [hfault]
            exact .occupied hthere
          · rw [hfault]
            exact .unopened hfree
      | ok created =>
          rw [advance_chosen_of_ok version hcreated]
          rcases set_of_createVersion hcreated with ⟨hfree, hset⟩
          rw [hset]
          exact .created hfree
  | created version =>
      cases htext : version.text? with
      | none =>
          rw [advance_created_of_none htext]
          exact .broken htext
      | some text =>
          rw [advance_created_of_some htext]
          exact .written htext
  | written serial =>
      cases hnamed : directory.write? (activeFile (root ++ [call.request.stencilId]))
          (.text serial.text) with
      | none =>
          rw [advance_written_of_none hnamed]
          exact .unnamed
      | some last =>
          rw [advance_written_of_some hnamed, write?_eq_some hnamed]
          exact .named
  | finished outcome => exact .finished outcome

/-!
## What a step leaves alone
-/

theorem item?_set_version_of_ne (directory : Directory) {folder : Location} {a b : Serial}
    (item : DirectoryItem) (h : a ≠ b) :
    (directory.set (versionFile folder b) item).item? (versionFile folder a) =
      directory.item? (versionFile folder a) := by
  apply item?_set_other
  intro hsame
  exact h (versionFile_injective hsame)

theorem Move.item?_version (h : Move root call directory stage next after)
    (hthere : directory.item? (versionFile (root ++ [call.request.stencilId]) serial) ≠ none)
    (hother : stage.held? ≠ some serial) :
    next.item? (versionFile (root ++ [call.request.stencilId]) serial) =
      directory.item? (versionFile (root ++ [call.request.stencilId]) serial) := by
  cases h with
  | prepared hprepare => exact item?_of_prepare hprepare (versionFile_off_way _ _)
  | created hfree =>
      apply item?_set_version_of_ne
      intro hsame
      rw [hsame] at hthere
      exact hthere hfree
  | broken _ =>
      apply item?_set_version_of_ne
      intro hsame
      rw [hsame] at hother
      exact hother rfl
  | written _ =>
      apply item?_set_version_of_ne
      intro hsame
      rw [hsame] at hother
      exact hother rfl
  | named => exact item?_set_other _ _ (versionFile_ne_activeFile _ _)
  | _ => rfl

theorem Move.isFolder (h : Move root call directory stage next after)
    (hfolder : directory.isFolder (versionsFolder (root ++ [call.request.stencilId])) = true) :
    next.isFolder (versionsFolder (root ++ [call.request.stencilId])) = true := by
  cases h with
  | prepared hprepare => exact isFolder_of_prepare hprepare (List.prefix_refl _)
  | created _ | broken _ | written _ =>
      rw [isFolder_congr (item?_set_other _ _ (versionsFolder_ne_versionFile _ _))]
      exact hfolder
  | named =>
      rw [isFolder_congr (item?_set_other _ _ (versionsFolder_ne_activeFile _))]
      exact hfolder
  | _ => exact hfolder

/-- The active version is named by the last step of a save that succeeds, and by no other. -/
theorem Move.active (h : Move root call directory stage next after) :
    next.item? (activeFile (root ++ [call.request.stencilId])) =
          directory.item? (activeFile (root ++ [call.request.stencilId])) ∧
        after.saved? = stage.saved? ∨
      ∃ serial, after.saved? = some serial ∧
        next.item? (activeFile (root ++ [call.request.stencilId])) =
          some (.file (.text serial.text)) := by
  cases h with
  | prepared hprepare => exact .inl ⟨item?_of_prepare hprepare (activeFile_off_way _), rfl⟩
  | created _ | broken _ | written _ =>
      exact .inl ⟨item?_set_other _ _ (versionFile_ne_activeFile _ _).symm, rfl⟩
  | named => exact .inr ⟨_, rfl, item?_set_self _ _ (activeFile_ne_nil _)⟩
  | _ => exact .inl ⟨rfl, rfl⟩

theorem Move.content? (h : Move root call directory stage next after) (hpast : ¬after.IsPast)
    (location : Location) : next.content? location = directory.content? location := by
  cases h with
  | prepared hprepare =>
      exact content?_of_makeFoldersBelow? (prepare_eq_ok hprepare).2.2 location
  | created _ => exact absurd trivial hpast
  | broken _ => exact absurd (.inl rfl) hpast
  | written _ => exact absurd trivial hpast
  | named => exact absurd trivial hpast
  | _ => rfl

theorem Move.isPast (h : Move root call directory stage next after) (hpast : stage.IsPast) :
    after.IsPast := by
  cases h with
  | broken _ => exact .inl rfl
  | written _ => exact trivial
  | unnamed => exact .inr rfl
  | named => exact trivial
  | finished _ => exact hpast
  | _ => exact hpast.elim

theorem Move.stepsLeft (h : Move root call directory stage next after) :
    after.stepsLeft ≤ stage.stepsLeft - 1 := by
  cases h with
  | prepared _ | listed | chosen _ | created _ | written _ => exact Nat.le_refl _
  | _ => exact Nat.zero_le _

theorem Move.eq_of_finished {outcome : Except StoreFault Serial}
    (h : Move root call directory (.finished outcome) next after) : after = .finished outcome := by
  cases h
  rfl

theorem Move.of_occupied {version : Snapshot}
    (h : Move root call directory (.chosen version) next after)
    (hthere : directory.isOccupied
      (versionFile (root ++ [call.request.stencilId]) version.serial) = true) :
    after = .finished (.error (savedConcurrently version.serial)) := by
  unfold isOccupied at hthere
  cases h with
  | occupied _ => rfl
  | unopened hfree =>
      rw [hfree] at hthere
      cases hthere
  | created hfree =>
      rw [hfree] at hthere
      cases hthere

theorem Move.held? (h : Move root call directory stage next after)
    (hheld : after.held? = some serial) :
    stage.held? = some serial ∨
      directory.item? (versionFile (root ++ [call.request.stencilId]) serial) = none := by
  cases h with
  | created hfree =>
      cases hheld
      exact .inr hfree
  | written _ | named | finished _ => exact .inl hheld
  | _ => cases hheld

/-!
## What a save stands for
-/

/-- What is there when a save has come to a stage, in a directory that has changed since the saves
began. -/
def Stands (root : Location) (call : SaveCall) (begun directory : Directory) : SaveStage → Prop
  | .requested | .finished (.error _) => True
  | .prepared | .listed _ =>
      Bundle.isStencilId call.request.stencilId = true ∧
        directory.isFolder (versionsFolder (root ++ [call.request.stencilId])) = true
  | .chosen version =>
      Bundle.isStencilId call.request.stencilId = true ∧
        directory.isFolder (versionsFolder (root ++ [call.request.stencilId])) = true ∧
        version = requestedVersion call.request call.now version.serial
  | .created version =>
      Opened root call.request begun version.serial directory ∧
        version = requestedVersion call.request call.now version.serial
  | .written serial | .finished (.ok serial) =>
      Opened root call.request begun serial directory ∧ ∃ text,
        directory.item? (versionFile (root ++ [call.request.stencilId]) serial) =
            some (.file (.text text)) ∧
          Snapshot.ofText? text = some (requestedVersion call.request call.now serial)

theorem Stands.opened (h : Stands root call begun directory stage)
    (hheld : stage.held? = some serial) : Opened root call.request begun serial directory := by
  cases stage with
  | created version =>
      cases hheld
      exact h.1
  | written serial =>
      cases hheld
      exact h.1
  | finished outcome =>
      cases outcome with
      | ok serial =>
          cases hheld
          exact h.1
      | error fault => cases hheld
  | _ => cases hheld

theorem Stands.frame (h : Stands root call begun directory stage)
    (hfolder : directory.isFolder (versionsFolder (root ++ [call.request.stencilId])) = true →
      next.isFolder (versionsFolder (root ++ [call.request.stencilId])) = true)
    (hfile : ∀ serial, stage.held? = some serial →
      next.item? (versionFile (root ++ [call.request.stencilId]) serial) =
        directory.item? (versionFile (root ++ [call.request.stencilId]) serial)) :
    Stands root call begun next stage := by
  have hopened : ∀ serial, stage.held? = some serial →
      Opened root call.request begun serial next := by
    intro serial hheld
    have hold := h.opened hheld
    refine ⟨hold.valid, hold.free, ?_, hfolder hold.folder⟩
    rw [hfile serial hheld]
    exact hold.there
  cases stage with
  | requested => exact trivial
  | prepared => exact ⟨h.1, hfolder h.2⟩
  | listed existing => exact ⟨h.1, hfolder h.2⟩
  | chosen version => exact ⟨h.1, hfolder h.2.1, h.2.2⟩
  | created version => exact ⟨hopened _ rfl, h.2⟩
  | written serial =>
      refine ⟨hopened _ rfl, ?_⟩
      rw [hfile _ rfl]
      exact h.2
  | finished outcome =>
      cases outcome with
      | ok serial =>
          refine ⟨hopened _ rfl, ?_⟩
          rw [hfile _ rfl]
          exact h.2
      | error fault => exact trivial

theorem Stands.move (h : Stands root call begun directory stage)
    (hmove : Move root call directory stage next after) (htime : call.now.Possible)
    (hkept : ∀ serial,
      begun.item? (versionFile (root ++ [call.request.stencilId]) serial) ≠ none →
      directory.item? (versionFile (root ++ [call.request.stencilId]) serial) ≠ none) :
    Stands root call begun next after := by
  cases hmove with
  | prepared hprepare =>
      exact ⟨(prepare_eq_ok hprepare).1, isFolder_of_prepare hprepare (List.prefix_refl _)⟩
  | listed => exact h
  | chosen _ => exact ⟨h.1, h.2, rfl⟩
  | created hfree =>
      rename_i version
      refine ⟨⟨h.1, ?_, ?_, ?_⟩, h.2.2⟩
      · by_contra hbegun
        exact hkept version.serial hbegun hfree
      · rw [item?_set_self _ _ (versionFile_ne_nil _ _)]
        simp
      · rw [isFolder_congr (item?_set_other _ _ (versionsFolder_ne_versionFile _ _))]
        exact h.2.1
  | written htext =>
      rename_i version text
      refine ⟨h.1.set _ (versionsFolder_ne_versionFile _ _), text,
        item?_set_self _ _ (versionFile_ne_nil _ _), ?_⟩
      rw [← h.2]
      apply Snapshot.ofText?_of_text? _ htext
      rw [h.2]
      exact htime
  | named =>
      refine ⟨h.1.set _ (versionsFolder_ne_activeFile _), ?_⟩
      rw [item?_set_other _ _ (versionFile_ne_activeFile _ _)]
      exact h.2
  | finished outcome => exact h
  | _ => exact trivial

end Store
end StencilDesk
