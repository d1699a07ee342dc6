import StencilDesk.History.Store

/-!
# Saving a version

A save takes several steps, each of which reads or changes the directory once: make the folders,
list the serials, choose the next one, create the file, write it, and name it as the active
version. The steps of several saves may be interleaved. A file that exists is never overwritten.
-/

namespace StencilDesk

inductive SaveStage where
  | requested
  /-- The folders are there. -/
  | prepared
  | listed (existing : List Serial)
  | chosen (snapshot : Snapshot)
  /-- The empty file of the version is there. -/
  | created (snapshot : Snapshot)
  | written (serial : Serial)
  | finished (outcome : Except StoreFault Serial)

namespace SaveStage

def outcome? : SaveStage → Option (Except StoreFault Serial)
  | finished outcome => some outcome
  | _ => none

end SaveStage

namespace Store

def requestedVersion (request : SaveRequest) (now : Timestamp) (serial : Serial) : Snapshot :=
  { serial, createdAt := now, createdBy := request.author, isActive := true
    message := request.message, files := request.files }

def prepare (root : Location) (request : SaveRequest) (directory : Directory) :
    Except StoreFault Directory := do
  let folder ← stencilFolder root request.stencilId
  Bundle.accept request.stencilId request.files
  match directory.makeFolders? (versionsFolder folder) with
  | some directory => return directory
  | none => throw .access

def createVersion (folder : Location) (serial : Serial) (directory : Directory) :
    Except StoreFault Directory :=
  let file := versionFile folder serial
  if directory.isOccupied file then
    .error (.rejected s!"version {serial.text} was saved concurrently")
  else
    match directory.write? file (.text "") with
    | some directory => .ok directory
    | none => .error .access

def advance (root : Location) (request : SaveRequest) (now : Timestamp) (directory : Directory) :
    SaveStage → Directory × SaveStage
  | .requested =>
      match prepare root request directory with
      | .ok directory => (directory, .prepared)
      | .error fault => (directory, .finished (.error fault))
  | .prepared => (directory, .listed (serials directory (root ++ [request.stencilId])))
  | .listed existing =>
      match Serial.next now.date existing with
      | .ok serial => (directory, .chosen (requestedVersion request now serial))
      | .error fault => (directory, .finished (.error (.invalidSerial fault)))
  | .chosen snapshot =>
      match createVersion (root ++ [request.stencilId]) snapshot.serial directory with
      | .ok directory => (directory, .created snapshot)
      | .error fault => (directory, .finished (.error fault))
  | .created snapshot =>
      let file := versionFile (root ++ [request.stencilId]) snapshot.serial
      match snapshot.text? with
      | some text => (directory.set file (.file (.text text)), .written snapshot.serial)
      | none =>
          (directory.set file (.file (.text snapshot.brokenText)), .finished (.error .format))
  | .written serial =>
      let active := activeFile (root ++ [request.stencilId])
      match directory.write? active (.text serial.text) with
      | some directory => (directory, .finished (.ok serial))
      | none => (directory, .finished (.error .access))
  | .finished outcome => (directory, .finished outcome)

def stepCount : Nat := 6

def advanceBy (root : Location) (request : SaveRequest) (now : Timestamp) :
    Nat → Directory × SaveStage → Directory × SaveStage
  | 0, state => state
  | steps + 1, state => advanceBy root request now steps (advance root request now state.1 state.2)

def save (root : Location) (request : SaveRequest) (now : Timestamp) (directory : Directory) :
    Directory × Except StoreFault SaveAnswer :=
  match advanceBy root request now stepCount (directory, .requested) with
  | (directory, .finished (.ok serial)) => (directory, .ok ⟨serial, true⟩)
  | (directory, .finished (.error fault)) => (directory, .error fault)
  | (directory, _) => (directory, .error .access)

/-! ## What a save comes to -/

section
variable {root : Location} {request : SaveRequest} {now : Timestamp}
  {directory prepared created : Directory} {serial : Serial}

theorem prepare_eq_ok (h : prepare root request directory = .ok prepared) :
    Bundle.isStencilId request.stencilId = true ∧
      Bundle.accept request.stencilId request.files = .ok () ∧
      directory.makeFolders? (versionsFolder (root ++ [request.stencilId])) = some prepared := by
  rcases Bundle.bind_eq_ok h with ⟨folder, hfolder, h⟩
  rcases Bundle.bind_eq_ok h with ⟨_, haccept, h⟩
  rcases stencilFolder_eq_ok hfolder with ⟨hsame, hid⟩
  rw [hsame] at h
  refine ⟨hid, haccept, ?_⟩
  split at h
  · rename_i hmade
    cases h
    exact hmade
  · cases h

theorem prepare_of_makeFolders? (hid : Bundle.isStencilId request.stencilId = true)
    (haccept : Bundle.accept request.stencilId request.files = .ok ())
    (hmade : directory.makeFolders? (versionsFolder (root ++ [request.stencilId])) =
      some prepared) : prepare root request directory = .ok prepared := by
  unfold prepare stencilFolder
  simp only [hid, if_true, bind, Except.bind, haccept, hmade]
  rfl

theorem createVersion_eq_ok {folder : Location}
    (h : createVersion folder serial directory = .ok created) :
    directory.isOccupied (versionFile folder serial) = false ∧
      directory.write? (versionFile folder serial) (.text "") = some created := by
  unfold createVersion at h
  dsimp only at h
  split at h
  · cases h
  · rename_i hfree
    split at h
    · rename_i hwritten
      cases h
      exact ⟨by simpa using hfree, hwritten⟩
    · cases h

theorem createVersion_of_write? {folder : Location}
    (hfree : directory.isOccupied (versionFile folder serial) = false)
    (hwritten : directory.write? (versionFile folder serial) (.text "") = some created) :
    createVersion folder serial directory = .ok created := by
  unfold createVersion
  simp only [hfree, hwritten]
  rfl

theorem advanceBy_finished (steps : Nat) (outcome : Except StoreFault Serial) :
    advanceBy root request now steps (directory, .finished outcome) =
      (directory, .finished outcome) := by
  induction steps with
  | zero => rfl
  | succ steps ih => exact ih

theorem advanceBy_of_advance {stage next : SaveStage} {after : Directory}
    (h : advance root request now directory stage = (after, next)) (steps : Nat) :
    advanceBy root request now (steps + 1) (directory, stage) =
      advanceBy root request now steps (after, next) := by
  rw [advanceBy, h]

theorem advance_requested_of_error {fault : StoreFault}
    (h : prepare root request directory = .error fault) :
    advance root request now directory .requested = (directory, .finished (.error fault)) := by
  unfold advance
  simp only [h]

theorem advance_requested_of_ok (h : prepare root request directory = .ok prepared) :
    advance root request now directory .requested = (prepared, .prepared) := by
  unfold advance
  simp only [h]

theorem advance_prepared :
    advance root request now directory .prepared =
      (directory, .listed (serials directory (root ++ [request.stencilId]))) := rfl

theorem advance_listed_of_error {existing : List Serial} {fault : SerialFault}
    (h : Serial.next now.date existing = .error fault) :
    advance root request now directory (.listed existing) =
      (directory, .finished (.error (.invalidSerial fault))) := by
  unfold advance
  simp only [h]

theorem advance_listed_of_ok {existing : List Serial}
    (h : Serial.next now.date existing = .ok serial) :
    advance root request now directory (.listed existing) =
      (directory, .chosen (requestedVersion request now serial)) := by
  unfold advance
  simp only [h]

theorem advance_chosen_of_error (version : Snapshot) {fault : StoreFault}
    (h : createVersion (root ++ [request.stencilId]) version.serial directory = .error fault) :
    advance root request now directory (.chosen version) =
      (directory, .finished (.error fault)) := by
  unfold advance
  simp only [h]

theorem advance_chosen_of_ok (version : Snapshot)
    (h : createVersion (root ++ [request.stencilId]) version.serial directory = .ok created) :
    advance root request now directory (.chosen version) = (created, .created version) := by
  unfold advance
  simp only [h]

theorem advance_created_of_none {version : Snapshot} (h : version.text? = none) :
    advance root request now directory (.created version) =
      (directory.set (versionFile (root ++ [request.stencilId]) version.serial)
        (.file (.text version.brokenText)), .finished (.error .format)) := by
  unfold advance
  simp only [h]

theorem advance_created_of_some {version : Snapshot} {text : String}
    (h : version.text? = some text) :
    advance root request now directory (.created version) =
      (directory.set (versionFile (root ++ [request.stencilId]) version.serial)
        (.file (.text text)), .written version.serial) := by
  unfold advance
  simp only [h]

theorem advance_written_of_none
    (h : directory.write? (activeFile (root ++ [request.stencilId])) (.text serial.text) = none) :
    advance root request now directory (.written serial) =
      (directory, .finished (.error .access)) := by
  unfold advance
  simp only [h]

theorem advance_written_of_some {last : Directory}
    (h : directory.write? (activeFile (root ++ [request.stencilId])) (.text serial.text) =
      some last) :
    advance root request now directory (.written serial) = (last, .finished (.ok serial)) := by
  unfold advance
  simp only [h]

theorem save_of_refused {fault : StoreFault}
    (h : prepare root request directory = .error fault) :
    save root request now directory = (directory, .error fault) := by
  unfold save stepCount
  rw [advanceBy_of_advance (advance_requested_of_error h), advanceBy_finished]

theorem save_of_exhausted {fault : SerialFault}
    (hprepared : prepare root request directory = .ok prepared)
    (h : Serial.next now.date (serials prepared (root ++ [request.stencilId])) = .error fault) :
    save root request now directory = (prepared, .error (.invalidSerial fault)) := by
  unfold save stepCount
  rw [advanceBy_of_advance (advance_requested_of_ok hprepared),
    advanceBy_of_advance advance_prepared, advanceBy_of_advance (advance_listed_of_error h),
    advanceBy_finished]

theorem save_of_occupied {fault : StoreFault}
    (hprepared : prepare root request directory = .ok prepared)
    (hnext : Serial.next now.date (serials prepared (root ++ [request.stencilId])) = .ok serial)
    (h : createVersion (root ++ [request.stencilId]) serial prepared = .error fault) :
    save root request now directory = (prepared, .error fault) := by
  unfold save stepCount
  rw [advanceBy_of_advance (advance_requested_of_ok hprepared),
    advanceBy_of_advance advance_prepared, advanceBy_of_advance (advance_listed_of_ok hnext),
    advanceBy_of_advance (advance_chosen_of_error (requestedVersion request now serial) h),
    advanceBy_finished]

@[simp] theorem serial_requestedVersion :
    (requestedVersion request now serial).serial = serial := rfl

/-- The steps of a save until the empty file of its version is there. -/
theorem advanceBy_created
    (hprepared : prepare root request directory = .ok prepared)
    (hnext : Serial.next now.date (serials prepared (root ++ [request.stencilId])) = .ok serial)
    (hcreated : createVersion (root ++ [request.stencilId]) serial prepared = .ok created)
    (steps : Nat) :
    advanceBy root request now (steps + 4) (directory, .requested) =
      advanceBy root request now steps
        (created, .created (requestedVersion request now serial)) := by
  rw [advanceBy_of_advance (advance_requested_of_ok hprepared),
    advanceBy_of_advance advance_prepared, advanceBy_of_advance (advance_listed_of_ok hnext),
    advanceBy_of_advance (advance_chosen_of_ok (requestedVersion request now serial) hcreated)]

theorem save_of_unwritable
    (hprepared : prepare root request directory = .ok prepared)
    (hnext : Serial.next now.date (serials prepared (root ++ [request.stencilId])) = .ok serial)
    (hcreated : createVersion (root ++ [request.stencilId]) serial prepared = .ok created)
    (h : (requestedVersion request now serial).text? = none) :
    save root request now directory =
      (created.set (versionFile (root ++ [request.stencilId]) serial)
        (.file (.text (requestedVersion request now serial).brokenText)), .error .format) := by
  unfold save stepCount
  rw [advanceBy_created hprepared hnext hcreated,
    advanceBy_of_advance (advance_created_of_none h), advanceBy_finished, serial_requestedVersion]

theorem save_of_locked {text : String}
    (hprepared : prepare root request directory = .ok prepared)
    (hnext : Serial.next now.date (serials prepared (root ++ [request.stencilId])) = .ok serial)
    (hcreated : createVersion (root ++ [request.stencilId]) serial prepared = .ok created)
    (htext : (requestedVersion request now serial).text? = some text)
    (h : (created.set (versionFile (root ++ [request.stencilId]) serial)
        (.file (.text text))).write? (activeFile (root ++ [request.stencilId]))
        (.text serial.text) = none) :
    save root request now directory =
      (created.set (versionFile (root ++ [request.stencilId]) serial) (.file (.text text)),
        .error .access) := by
  unfold save stepCount
  rw [advanceBy_created hprepared hnext hcreated,
    advanceBy_of_advance (advance_created_of_some htext), serial_requestedVersion,
    advanceBy_of_advance (advance_written_of_none h), advanceBy_finished]

theorem save_of_named {text : String} {last : Directory}
    (hprepared : prepare root request directory = .ok prepared)
    (hnext : Serial.next now.date (serials prepared (root ++ [request.stencilId])) = .ok serial)
    (hcreated : createVersion (root ++ [request.stencilId]) serial prepared = .ok created)
    (htext : (requestedVersion request now serial).text? = some text)
    (h : (created.set (versionFile (root ++ [request.stencilId]) serial)
        (.file (.text text))).write? (activeFile (root ++ [request.stencilId]))
        (.text serial.text) = some last) :
    save root request now directory = (last, .ok ⟨serial, true⟩) := by
  unfold save stepCount
  rw [advanceBy_created hprepared hnext hcreated,
    advanceBy_of_advance (advance_created_of_some htext), serial_requestedVersion,
    advanceBy_of_advance (advance_written_of_some h), advanceBy_finished]
end

end Store

end StencilDesk
