import StencilDesk.Editor.Command

/-!
# The editor

An editor works on one session at a time on behalf of an operator. Every outcome is queued as
commands for the display. An operation that fails leaves the session as it was, and queues one
command: the notification of its fault.
-/

namespace StencilDesk

structure Editor where
  author : String
  session : Option Session := none
  /-- The variables that templates of every session are expected to use. -/
  expected : List String := []
  confirmations : ConfirmationQueue := ConfirmationQueue.empty
  /-- The commands that the display has not taken yet, oldest first. -/
  commands : List Command := []

inductive EditorFault where
  | noStencilLoaded
  | unknownConfirmation (id : Nat)
  | session (fault : SessionFault)
  | store (fault : StoreFault)
deriving DecidableEq, Repr

namespace EditorFault

def message : EditorFault → String
  | noStencilLoaded => "No stencil is loaded"
  | unknownConfirmation id => s!"Confirmation {Confirmation.idText id} is not pending"
  | session fault => fault.message
  | store fault => fault.message

/-- Holds if a fault goes back to another one. -/
def hasSource : EditorFault → Bool
  | session _ | store _ => true
  | _ => false

end EditorFault

abbrev Editor.Outcome (α : Type) := Except EditorFault α × Editor

namespace Editor

def queue (e : Editor) (commands : List Command) : Editor :=
  { e with commands := e.commands ++ commands }

def fail {α : Type} (e : Editor) (fault : EditorFault) : Outcome α :=
  (.error fault, e.queue [.notify .error fault.message])

def holding (e : Editor) (s : Session) : Editor :=
  { e with session := some s }

def proceed {α : Type} (e : Editor) (s : Session) (commands : List Command) (reply : α) :
    Outcome α :=
  (.ok reply, (e.holding s).queue commands)

def ask (e : Editor) (title body : String) (action : PendingAction) : Outcome Confirmation :=
  let (question, confirmations) := e.confirmations.file title body action
  (.ok question, { e with confirmations }.queue [.showConfirmation question])

def dequeue (e : Editor) : Option Command × Editor :=
  (e.commands.head?, { e with commands := e.commands.tail })

def drain (e : Editor) : List Command × Editor :=
  (e.commands, { e with commands := [] })

def pendingChanges (e : Editor) : List String :=
  match e.session with
  | some s => s.changedPaths
  | none => []

def withSession {α : Type} (e : Editor) (operation : Session → Outcome α) : Outcome α :=
  match e.session with
  | some s => operation s
  | none => e.fail .noStencilLoaded

/-- Fails without a notification. A question that was answered relies on the session that it was
asked about, and does not look for it again. -/
def unloaded {α : Type} (e : Editor) : Outcome α :=
  (.error .noStencilLoaded, e)

def proceedWith {α : Type} (e : Editor) (result : Except SessionFault Session)
    (commands : Session → List Command) (reply : α) : Outcome α :=
  match result with
  | .ok s => e.proceed s (commands s) reply
  | .error fault => e.fail (.session fault)

end Editor

end StencilDesk
