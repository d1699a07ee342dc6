import StencilDesk.Editor.Documents

/-!
# Operations

Everything that an operator can ask of an editor. The operations on versions go to a store, which
may fail at every call; a failed one leaves the session as it was.
-/

namespace StencilDesk

namespace Editor

variable {σ : Type}

def sessionOn (e : Editor) (loaded : LoadedStencil) : Session :=
  let s := Session.ofLoaded loaded
  if e.expected.isEmpty then s else s.expect e.expected

def loadedCommands (id : String) (serial : Serial) (s : Session) : List Command :=
  [s.treeCommand, s.tabsCommand, s.historyCommand,
    .notify .info s!"Loaded stencil '{id}' version {serial.text}."]

/-- Starts a session on a version of a stencil, the active one unless another is asked for. -/
def load (service : StoreService σ) (e : Editor) (id : String) (serial : Option Serial) :
    StateM σ (Outcome Unit) := do
  match ← service.load id serial with
  | .error fault => return e.fail (.store fault)
  | .ok loaded =>
      let s := e.sessionOn loaded
      let e := { e with confirmations := e.confirmations.clear }
      return e.proceed s (loadedCommands id loaded.serial s) ()

def savedCommands (serial : Serial) (s : Session) : List Command :=
  [s.tabsCommand, s.historyCommand, .notify .info s!"Saved as version {serial.text}."]

def save (service : StoreService σ) (e : Editor) (author : String) (message : Option String) :
    StateM σ (Outcome Unit) := do
  match e.session with
  | none => return e.unloaded
  | some s =>
      match ← s.save service author message with
      | (.error fault, s) => return (e.holding s).fail (.session fault)
      | (.ok answer, s) =>
          return e.proceed s (savedCommands answer.serial s) ()

def saveQuestion (errors : Nat) : String :=
  let noun := if errors = 1 then "error" else "errors"
  s!"The stencil has {errors} {noun}. Save anyway?"

/-- Saves the session at once if it has no errors, else once the question is answered. -/
def requestSave (service : StoreService σ) (e : Editor) (message : Option String) :
    StateM σ (Outcome (Option Confirmation)) := do
  match e.session with
  | none => return e.fail .noStencilLoaded
  | some s =>
      if s.errorCount = 0 then
        let (answer, e) ← e.save service e.author message
        return (answer.map fun _ => none, e)
      else
        let (answer, e) := e.ask "Save with errors" (saveQuestion s.errorCount)
          (.save e.author message)
        return (answer.map some, e)

def restoredCommands (serial : Serial) (report : RestoreReport) (s : Session) : List Command :=
  let count := report.replacement.dirty.length
  let note := s!"Restored version {serial.text} ({count} modified tab(s)). Save to keep it."
  [s.treeCommand, s.tabsCommand] ++ s.openDocumentCommands ++ [.notify .info note]

def restore (service : StoreService σ) (e : Editor) (serial : Serial) :
    StateM σ (Outcome Unit) := do
  match e.session with
  | none => return e.unloaded
  | some s =>
      match ← s.restore service serial with
      | (.error fault, s) => return (e.holding s).fail (.session fault)
      | (.ok report, s) => return e.proceed s (restoredCommands serial report s) ()

def runPending (service : StoreService σ) (e : Editor) : PendingAction → StateM σ (Outcome Unit)
  | .closeTab path => return e.closeTab path
  | .deleteFile path => return e.deleteFile path
  | .save author message => e.save service author message
  | .restore serial => e.restore service serial

/-- Answers a question: what waited for it is run if it is confirmed, and dropped if not. -/
def resolve (service : StoreService σ) (e : Editor) (id : Nat) (confirmed : Bool) :
    StateM σ (Outcome Unit) := do
  match e.confirmations.take? id with
  | none => return e.fail (.unknownConfirmation id)
  | some (question, confirmations) =>
      let e := { e with confirmations }
      if confirmed then e.runPending service question.action else return (.ok (), e)

def refreshHistory (service : StoreService σ) (e : Editor) : StateM σ (Outcome Unit) := do
  match e.session with
  | none => return e.fail .noStencilLoaded
  | some s =>
      match ← service.history s.stencilId with
      | .error fault => return e.fail (.store fault)
      | .ok versions =>
          let s := s.setVersions versions
          return e.proceed s [s.historyCommand] ()

def compareVersions (service : StoreService σ) (e : Editor) (old new : Serial) :
    StateM σ (Outcome BundleDiff) := do
  match e.session with
  | none => return e.fail .noStencilLoaded
  | some s =>
      match ← StencilDesk.compareVersions service s.stencilId old new with
      | .error fault => return e.fail (.store fault)
      | .ok diff => return (.ok diff, e.queue [.showDiff diff])

/-! ## What the store's answers lead to -/

section
variable {service : StoreService σ} {e : Editor} {s : Session} {store after : σ}

theorem load_of_error {id : String} {serial : Option Serial} {fault : StoreFault}
    (h : service.load id serial store = (.error fault, after)) :
    e.load service id serial store = (e.fail (.store fault), after) := by
  unfold load
  simp only [bind, StateT.bind, h]
  rfl

theorem load_of_ok {id : String} {serial : Option Serial} {loaded : LoadedStencil}
    (h : service.load id serial store = (.ok loaded, after)) :
    e.load service id serial store =
      ({ e with confirmations := e.confirmations.clear }.proceed (e.sessionOn loaded)
        (loadedCommands id loaded.serial (e.sessionOn loaded)) (), after) := by
  unfold load
  simp only [bind, StateT.bind, h]
  rfl

theorem save_of_none (author : String) (message : Option String) (h : e.session = none) :
    e.save service author message store = (e.unloaded, store) := by
  unfold save
  rw [h]
  rfl

theorem save_of_error {author : String} {message : Option String} {fault : SessionFault}
    {next : Session} (hs : e.session = some s)
    (h : s.save service author message store = ((.error fault, next), after)) :
    e.save service author message store =
      ((e.holding next).fail (.session fault), after) := by
  unfold save
  rw [hs]
  simp only [bind, StateT.bind, h]
  rfl

theorem save_of_ok {author : String} {message : Option String} {answer : SaveAnswer}
    {next : Session} (hs : e.session = some s)
    (h : s.save service author message store = ((.ok answer, next), after)) :
    e.save service author message store =
      (e.proceed next (savedCommands answer.serial next) (), after) := by
  unfold save
  rw [hs]
  simp only [bind, StateT.bind, h]
  rfl

theorem restore_of_none (serial : Serial) (h : e.session = none) :
    e.restore service serial store = (e.unloaded, store) := by
  unfold restore
  rw [h]
  rfl

theorem restore_of_error {serial : Serial} {fault : SessionFault} {next : Session}
    (hs : e.session = some s)
    (h : s.restore service serial store = ((.error fault, next), after)) :
    e.restore service serial store = ((e.holding next).fail (.session fault), after) := by
  unfold restore
  rw [hs]
  simp only [bind, StateT.bind, h]
  rfl

theorem restore_of_ok {serial : Serial} {report : RestoreReport} {next : Session}
    (hs : e.session = some s)
    (h : s.restore service serial store = ((.ok report, next), after)) :
    e.restore service serial store =
      (e.proceed next (restoredCommands serial report next) (), after) := by
  unfold restore
  rw [hs]
  simp only [bind, StateT.bind, h]
  rfl

theorem requestSave_of_none (message : Option String) (h : e.session = none) :
    e.requestSave service message store = (e.fail .noStencilLoaded, store) := by
  unfold requestSave
  rw [h]
  rfl

theorem requestSave_of_clean (message : Option String) (hs : e.session = some s)
    (h : s.errorCount = 0) :
    e.requestSave service message store =
      (((e.save service e.author message store).1.1.map fun _ => none,
        (e.save service e.author message store).1.2),
        (e.save service e.author message store).2) := by
  unfold requestSave
  rw [hs]
  simp only [if_pos h]
  rfl

theorem requestSave_of_errors (message : Option String) (hs : e.session = some s)
    (h : s.errorCount ≠ 0) :
    e.requestSave service message store =
      (((e.ask "Save with errors" (saveQuestion s.errorCount) (.save e.author message)).1.map some,
        (e.ask "Save with errors" (saveQuestion s.errorCount) (.save e.author message)).2),
        store) := by
  unfold requestSave
  rw [hs]
  simp only [if_neg h]
  rfl

theorem resolve_of_unknown {id : Nat} (confirmed : Bool) (h : e.confirmations.take? id = none) :
    e.resolve service id confirmed store = (e.fail (.unknownConfirmation id), store) := by
  unfold resolve
  rw [h]
  rfl

theorem resolve_of_declined {id : Nat} {question : Confirmation} {rest : ConfirmationQueue}
    (h : e.confirmations.take? id = some (question, rest)) :
    e.resolve service id false store = ((.ok (), { e with confirmations := rest }), store) := by
  unfold resolve
  rw [h]
  rfl

theorem resolve_of_confirmed {id : Nat} {question : Confirmation} {rest : ConfirmationQueue}
    (h : e.confirmations.take? id = some (question, rest)) :
    e.resolve service id true store =
      { e with confirmations := rest }.runPending service question.action store := by
  unfold resolve
  rw [h]
  rfl

theorem refreshHistory_of_none (h : e.session = none) :
    e.refreshHistory service store = (e.fail .noStencilLoaded, store) := by
  unfold refreshHistory
  rw [h]
  rfl

theorem refreshHistory_of_error {fault : StoreFault} (hs : e.session = some s)
    (h : service.history s.stencilId store = (.error fault, after)) :
    e.refreshHistory service store = (e.fail (.store fault), after) := by
  unfold refreshHistory
  rw [hs]
  simp only [bind, StateT.bind, h]
  rfl

theorem refreshHistory_of_ok {versions : List Snapshot} (hs : e.session = some s)
    (h : service.history s.stencilId store = (.ok versions, after)) :
    e.refreshHistory service store =
      (e.proceed (s.setVersions versions) [(s.setVersions versions).historyCommand] (),
        after) := by
  unfold refreshHistory
  rw [hs]
  simp only [bind, StateT.bind, h]
  rfl

theorem compareVersions_of_none (old new : Serial) (h : e.session = none) :
    e.compareVersions service old new store = (e.fail .noStencilLoaded, store) := by
  unfold compareVersions
  rw [h]
  rfl

theorem compareVersions_of_error {old new : Serial} {fault : StoreFault}
    (hs : e.session = some s)
    (h : StencilDesk.compareVersions service s.stencilId old new store = (.error fault, after)) :
    e.compareVersions service old new store = (e.fail (.store fault), after) := by
  unfold compareVersions
  rw [hs]
  simp only [bind, StateT.bind, h]
  rfl

theorem compareVersions_of_ok {old new : Serial} {diff : BundleDiff} (hs : e.session = some s)
    (h : StencilDesk.compareVersions service s.stencilId old new store = (.ok diff, after)) :
    e.compareVersions service old new store =
      ((.ok diff, e.queue [.showDiff diff]), after) := by
  unfold compareVersions
  rw [hs]
  simp only [bind, StateT.bind, h]
  rfl
end

inductive Operation where
  | load (id : String) (serial : Option Serial)
  | expect (expected : List String)
  | openFile (path : String)
  | activate (path : String)
  | edit (path content : String)
  | requestClose (path : String)
  | requestSave (message : Option String)
  | requestDelete (path : String)
  | requestRestore (serial : Serial)
  | resolve (id : Nat) (confirmed : Bool)
  | createFile (parent name : String)
  | createFolder (parent name : String)
  | moveFile (path new : String)
  | refreshHistory
  | compareVersions (old new : Serial)
deriving DecidableEq, Repr

inductive Reply where
  | done
  /-- The question that the operation filed, if it filed one. -/
  | asked (question : Option Confirmation)
  | path (path : String)
  | diff (diff : BundleDiff)
deriving DecidableEq, Repr

def Outcome.reply {α : Type} (f : α → Reply) (outcome : Outcome α) : Outcome Reply :=
  (outcome.1.map f, outcome.2)

def Outcome.done (outcome : Outcome Unit) : Outcome Reply :=
  outcome.reply fun _ => .done

def perform (service : StoreService σ) (e : Editor) : Operation → StateM σ (Outcome Reply)
  | .load id serial => Outcome.done <$> e.load service id serial
  | .expect expected => return (.ok .done, e.expect expected)
  | .openFile path => return (e.openFile path).done
  | .activate path => return (e.activate path).done
  | .edit path content => return (e.edit path content).done
  | .requestClose path => return (e.requestClose path).reply .asked
  | .requestSave message => Outcome.reply .asked <$> e.requestSave service message
  | .requestDelete path => return (e.requestDelete path).reply (.asked ∘ some)
  | .requestRestore serial => return (e.requestRestore serial).reply (.asked ∘ some)
  | .resolve id confirmed => Outcome.done <$> e.resolve service id confirmed
  | .createFile parent name => return (e.createFile parent name).reply .path
  | .createFolder parent name => return (e.createFolder parent name).reply .path
  | .moveFile path new => return (e.moveFile path new).done
  | .refreshHistory => Outcome.done <$> e.refreshHistory service
  | .compareVersions old new => Outcome.reply .diff <$> e.compareVersions service old new

end Editor

end StencilDesk
