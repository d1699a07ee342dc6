import StencilDesk.Proofs.Editor.Turns

/-!
# The questions of a run

Questions get their ids in order, one by one, over a whole run of an editor. One that was answered
or dropped does not come back, and its id is not known any more.
-/

namespace StencilDesk
namespace Editor

/-- What happens to an editor: it is asked for an operation on some store, or its display takes
commands. -/
inductive Event where
  | performed {σ : Type} (service : StoreService σ) (store : σ) (operation : Operation)
  | dequeued
  | drained

def after (e : Editor) : Event → Editor
  | .performed service store operation => (e.perform service operation store).1.2
  | .dequeued => e.dequeue.2
  | .drained => e.drain.2

def afterAll (e : Editor) (events : List Event) : Editor :=
  events.foldl after e

def issuedBy (e : Editor) : Event → List Nat
  | .performed service store operation =>
      ((question? (e.perform service operation store).1.1).map Confirmation.id).toList
  | _ => []

def issued (e : Editor) : List Event → List Nat
  | [] => []
  | event :: rest => e.issuedBy event ++ (e.after event).issued rest

/-- Holds if an event answers the pending question with an id, or drops it. -/
inductive Dismisses (e : Editor) : Event → Nat → Prop where
  | answered {σ : Type} (service : StoreService σ) (store : σ) {question : Confirmation}
      (hmem : question ∈ e.confirmations.pending) (confirmed : Bool) :
      Dismisses e (.performed service store (.resolve question.id confirmed)) question.id
  | dropped {σ : Type} {service : StoreService σ} {store : σ} {id : String}
      {serial : Option Serial}
      (hloaded : (e.perform service (.load id serial) store).1.1 = .ok .done)
      {question : Confirmation} (hmem : question ∈ e.confirmations.pending) :
      Dismisses e (.performed service store (.load id serial)) question.id

/-- Holds of an id that was given out, and under which no question is pending. -/
structure Spent (e : Editor) (id : Nat) : Prop where
  used : id < e.confirmations.nextId
  gone : ∀ question ∈ e.confirmations.pending, question.id ≠ id

variable {e : Editor}

theorem Reachable.after (h : e.Reachable) (event : Event) : (e.after event).Reachable := by
  cases event with
  | performed service store operation => exact h.performed service store operation
  | dequeued => exact h.dequeued
  | drained => exact h.drained

theorem Reachable.afterAll (h : e.Reachable) (events : List Event) :
    (e.afterAll events).Reachable := by
  induction events generalizing e with
  | nil => exact h
  | cons event rest ih => exact ih (h.after event)

/-!
## Ids
-/

/-- What becomes of the questions with the given ones filed: one comes to their end under the next
id, or none comes and some may leave. -/
inductive Filing (queue next : ConfirmationQueue) : List Nat → Prop where
  | none (hnext : next.nextId = queue.nextId) (hsub : next.pending ⊆ queue.pending) :
      Filing queue next []
  | one {question : Confirmation} (hid : question.id = queue.nextId)
      (hnext : next.nextId = queue.nextId + 1)
      (hpending : next.pending = queue.pending ++ [question]) : Filing queue next [question.id]

theorem filing_refl (queue : ConfirmationQueue) : Filing queue queue [] :=
  .none rfl fun _ hmem => hmem

theorem filing_of_take? {queue rest : ConfirmationQueue} {id : Nat} {question : Confirmation}
    (h : queue.take? id = some (question, rest)) : Filing queue rest [] := by
  rcases ConfirmationQueue.of_take?_eq_some h with ⟨_, _, hnext, hpending⟩
  apply Filing.none hnext
  rw [hpending]
  exact List.eraseP_subset

theorem Turn.filing {σ : Type} {service : StoreService σ} {store : σ} {operation : Operation}
    {asked : Option Confirmation} {next : Editor}
    (h : Turn service e store operation asked next) :
    Filing e.confirmations next.confirmations (asked.map Confirmation.id).toList := by
  cases h with
  | kept _ hqueue => exact hqueue ▸ filing_refl e.confirmations
  | driven _ _ _ hqueue => exact hqueue ▸ filing_refl e.confirmations
  | asked title body action _ _ hqueue =>
      rw [hqueue]
      exact .one rfl rfl rfl
  | declined htake _ hqueue => exact hqueue ▸ filing_of_take? htake
  | confirmed htake _ _ hqueue => exact hqueue ▸ filing_of_take? htake
  | loaded hqueue =>
      rw [hqueue]
      exact .none rfl (List.nil_subset _)

theorem filing_after (h : e.Settled) (event : Event) :
    Filing e.confirmations (e.after event).confirmations (e.issuedBy event) := by
  cases event with
  | dequeued => exact filing_refl e.confirmations
  | drained => exact filing_refl e.confirmations
  | performed service store operation => exact (turn_perform h operation).filing

theorem issued_eq_range' (h : e.Reachable) (events : List Event) :
    e.issued events = List.range' e.confirmations.nextId (e.issued events).length := by
  induction events generalizing e with
  | nil => rfl
  | cons event rest ih =>
      have hrest := ih (h.after event)
      have hfiling := filing_after h.settled event
      rw [issued]
      generalize e.issuedBy event = ids at hfiling ⊢
      cases hfiling with
      | none hnext _ =>
          rw [hnext] at hrest
          exact hrest
      | one hid hnext _ =>
          rw [hnext] at hrest
          rw [List.singleton_append, List.length_cons, List.range'_succ, hid]
          exact congrArg _ hrest

/-!
## Questions that are gone
-/

theorem Spent.after {id : Nat} (h : e.Spent id) (he : e.Settled) (event : Event) :
    (e.after event).Spent id := by
  have hfiling := filing_after he event
  generalize e.issuedBy event = ids at hfiling
  cases hfiling with
  | none hnext hsub =>
      constructor
      · rw [hnext]
        exact h.used
      · intro other hmem
        exact h.gone other (hsub hmem)
  | one hid hnext hpending =>
      constructor
      · rw [hnext]
        exact Nat.lt_succ_of_lt h.used
      · intro other hmem
        rw [hpending] at hmem
        rcases List.mem_append.mp hmem with hold | hnew
        · exact h.gone other hold
        · -- The new question has the next id, and this one was given out before.
          rw [List.mem_singleton.mp hnew, hid]
          exact Nat.ne_of_gt h.used

theorem Spent.afterAll {id : Nat} (h : e.Spent id) (he : e.Reachable) (events : List Event) :
    (e.afterAll events).Spent id := by
  induction events generalizing e with
  | nil => exact h
  | cons event rest ih => exact ih (h.after he.settled event) (he.after event)

theorem gone_of_take? (h : e.Settled) {question taken : Confirmation} {rest : ConfirmationQueue}
    (hmem : question ∈ e.confirmations.pending)
    (htake : e.confirmations.take? question.id = some (taken, rest)) :
    ∀ other ∈ rest.pending, other.id ≠ question.id := by
  rcases h.exists_take hmem with ⟨before, behind, hpending, hfound⟩
  rw [hfound, Option.some.injEq, Prod.mk.injEq] at htake
  have hdistinct := h.distinct
  rw [hpending, List.map_append, List.map_cons, List.nodup_middle, List.nodup_cons,
    ← List.map_append] at hdistinct
  rw [← htake.2]
  intro other hother hsame
  apply hdistinct.1
  rw [← hsame]
  exact List.mem_map_of_mem hother

theorem confirmations_resolve {σ : Type} {id : Nat} {question : Confirmation}
    {rest : ConfirmationQueue} (h : e.Settled)
    (htake : e.confirmations.take? id = some (question, rest)) (service : StoreService σ)
    (store : σ) (confirmed : Bool) :
    (e.resolve service id confirmed store).1.2.confirmations = rest := by
  cases confirmed with
  | false =>
      rw [resolve_of_declined htake]
  | true =>
      rcases h.loaded (List.ne_nil_of_mem (ConfirmationQueue.of_take?_eq_some htake).1) with
        ⟨s, hs⟩
      have hheld : { e with confirmations := rest }.session = some s := hs
      rcases runPending_eq service store hheld question.action with ⟨commands, hnext⟩
      rw [resolve_of_confirmed htake, hnext]
      rfl

theorem spent_of_dismisses (h : e.Settled) {event : Event} {id : Nat}
    (hdismisses : e.Dismisses event id) : (e.after event).Spent id := by
  cases hdismisses with
  | answered service store hmem confirmed =>
      rename_i question
      rcases h.exists_take hmem with ⟨_, _, _, htake⟩
      have hrest := confirmations_resolve h htake service store confirmed
      have hafter : (e.after (.performed service store (.resolve question.id confirmed))) =
          (e.resolve service question.id confirmed store).1.2 := rfl
      constructor
      · rw [hafter, hrest]
        exact h.used question hmem
      · rw [hafter, hrest]
        exact gone_of_take? h hmem htake
  | dropped hloaded hmem =>
      rename_i service store name serial question
      have hcleared : (e.load service name serial store).1.2.confirmations =
          e.confirmations.clear := by
        rcases hload : service.load name serial store with ⟨answer, later⟩
        cases answer with
        | error fault =>
            have hfailed : (e.perform service (.load name serial) store).1 =
                (e.fail (.store fault) : Outcome Unit).done := by
              show (e.load service name serial store).1.done = _
              rw [load_of_error hload]
            rw [hfailed] at hloaded
            cases hloaded
        | ok loaded =>
            rw [load_of_ok hload]
            rfl
      have hafter : (e.after (.performed service store (.load name serial))) =
          (e.load service name serial store).1.2 := rfl
      constructor
      · rw [hafter, hcleared]
        exact h.used question hmem
      · rw [hafter, hcleared]
        intro other hnone
        cases hnone

theorem Spent.resolve {σ : Type} {id : Nat} (h : e.Spent id) (service : StoreService σ)
    (store : σ) (confirmed : Bool) :
    e.perform service (.resolve id confirmed) store =
      (e.fail (.unknownConfirmation id), store) := by
  have hnone := ConfirmationQueue.take?_eq_none_iff.mpr h.gone
  have hperform : e.perform service (.resolve id confirmed) store =
      ((e.resolve service id confirmed store).1.done,
        (e.resolve service id confirmed store).2) := rfl
  rw [hperform, resolve_of_unknown confirmed hnone]
  rfl

end Editor
end StencilDesk
