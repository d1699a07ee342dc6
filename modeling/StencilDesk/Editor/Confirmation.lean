import StencilDesk.History.Serial

/-!
# Confirmations

Questions to the operator about operations that lose something. A question is filed with the
operation that waits for its answer, under an id that is never used again, and it is answered once.
-/

namespace StencilDesk

inductive PendingAction where
  | closeTab (path : String)
  | deleteFile (path : String)
  | save (author : String) (message : Option String)
  | restore (serial : Serial)
deriving DecidableEq, Repr

structure Confirmation where
  id : Nat
  title : String
  body : String
  action : PendingAction
deriving DecidableEq, Repr

namespace Confirmation

def idText (id : Nat) : String :=
  s!"#{id}"

end Confirmation

/-- The unanswered questions in the order in which they were filed, and the next id. -/
structure ConfirmationQueue where
  nextId : Nat := 1
  pending : List Confirmation := []
deriving DecidableEq, Repr

namespace ConfirmationQueue

def empty : ConfirmationQueue := {}

instance : Inhabited ConfirmationQueue := ⟨empty⟩

def isEmpty (queue : ConfirmationQueue) : Bool :=
  queue.pending.isEmpty

def upcoming (queue : ConfirmationQueue) (title body : String) (action : PendingAction) :
    Confirmation :=
  { id := queue.nextId, title, body, action }

def file (queue : ConfirmationQueue) (title body : String) (action : PendingAction) :
    Confirmation × ConfirmationQueue :=
  let question := queue.upcoming title body action
  (question, { nextId := queue.nextId + 1, pending := queue.pending ++ [question] })

/-- Takes out the question with an id; there is none if it was answered before. -/
def take? (queue : ConfirmationQueue) (id : Nat) : Option (Confirmation × ConfirmationQueue) :=
  match queue.pending.find? fun question => question.id == id with
  | none => none
  | some question =>
      some (question, { queue with pending := queue.pending.eraseP fun q => q.id == id })

/-- Drops all questions. Their ids stay used. -/
def clear (queue : ConfirmationQueue) : ConfirmationQueue :=
  { queue with pending := [] }

@[simp] theorem pending_file (queue : ConfirmationQueue) (title body : String)
    (action : PendingAction) : (queue.file title body action).2.pending =
      queue.pending ++ [(queue.file title body action).1] := rfl

@[simp] theorem pending_clear (queue : ConfirmationQueue) : queue.clear.pending = [] := rfl

theorem take?_eq_none_iff {queue : ConfirmationQueue} {id : Nat} :
    queue.take? id = none ↔ ∀ question ∈ queue.pending, question.id ≠ id := by
  unfold take?
  cases found : queue.pending.find? fun question => question.id == id with
  | none => simpa [List.find?_eq_none] using found
  | some question =>
      have same : question.id = id := by simpa using List.find?_some found
      simp only [reduceCtorEq, false_iff]
      intro differs
      exact differs question (List.mem_of_find?_eq_some found) same

theorem of_take?_eq_some {queue rest : ConfirmationQueue} {id : Nat} {question : Confirmation}
    (h : queue.take? id = some (question, rest)) :
    question ∈ queue.pending ∧ question.id = id ∧ rest.nextId = queue.nextId ∧
      rest.pending = queue.pending.eraseP fun q => q.id == id := by
  unfold take? at h
  cases found : queue.pending.find? fun question => question.id == id with
  | none =>
      rw [found] at h
      cases h
  | some other =>
      rw [found] at h
      cases h
      exact ⟨List.mem_of_find?_eq_some found, by simpa using List.find?_some found, rfl, rfl⟩

end ConfirmationQueue

end StencilDesk
