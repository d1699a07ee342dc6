import StencilDesk.Proofs.Editor.Turns

/-!
# What an editor asks the store to save

A store can note what it is asked to save, and answer as before. What an editor sends in one
operation is at most one request: that of a save of a session without errors, or of a save that
was confirmed.
-/

namespace StencilDesk

variable {σ : Type}

namespace StoreService

def unnoted {α : Type} (call : StateM σ α) : StateM (σ × List SaveRequest) α :=
  fun state => ((call state.1).1, ((call state.1).2, state.2))

/-- A store that notes what it is asked to save, the oldest request first. -/
def noting (service : StoreService σ) : StoreService (σ × List SaveRequest) where
  load id serial := unnoted (service.load id serial)
  snapshot id serial := unnoted (service.snapshot id serial)
  save request := fun state =>
    ((service.save request state.1).1,
      ((service.save request state.1).2, state.2 ++ [request]))
  history id := unnoted (service.history id)
  now := unnoted service.now

theorem unnoted_of_eq {α : Type} {call : StateM σ α} {store after : σ} {answer : α}
    (h : call store = (answer, after)) (requests : List SaveRequest) :
    unnoted call (store, requests) = (answer, (after, requests)) := by
  unfold unnoted
  rw [h]

end StoreService

def noted {α : Type} (result : α × σ) (requests : List SaveRequest) :
    α × σ × List SaveRequest :=
  (result.1, (result.2, requests))

theorem noted_of_unsent {α : Type} {result : α × σ × List SaveRequest} {plain : α × σ}
    {requests : List SaveRequest} (h : result = noted plain requests) :
    result = noted plain (requests ++ []) := by
  rw [List.append_nil]
  exact h

section
variable (service : StoreService σ) (store : σ) (requests : List SaveRequest)

namespace Session

def sends (s : Session) : Operation → List SaveRequest
  | .save author message => [s.saveRequest author message]
  | _ => []

theorem save_noting (s : Session) (author : String) (message : Option String) :
    s.save service.noting author message (store, requests) =
      noted (s.save service author message store) (requests ++ [s.saveRequest author message]) := by
  rcases hsave : service.save (s.saveRequest author message) store with ⟨answer, after⟩
  have hnoted : service.noting.save (s.saveRequest author message) (store, requests) =
      (answer, (after, requests ++ [s.saveRequest author message])) := by
    show ((service.save _ store).1, ((service.save _ store).2, _)) = _
    rw [hsave]
  cases answer with
  | error fault =>
      rw [save_of_error hnoted, save_of_error hsave]
      rfl
  | ok answer =>
      cases haccepted : answer.success with
      | false =>
          rw [save_of_refused hnoted haccepted, save_of_refused hsave haccepted]
          rfl
      | true =>
          rcases hlisted : service.history s.stencilId after with ⟨listing, last⟩
          have hlistedNoted : service.noting.history s.stencilId
              (after, requests ++ [s.saveRequest author message]) =
              (listing, (last, requests ++ [s.saveRequest author message])) :=
            StoreService.unnoted_of_eq hlisted _
          cases listing with
          | ok versions =>
              rw [save_of_listed hnoted haccepted hlistedNoted,
                save_of_listed hsave haccepted hlisted]
              rfl
          | error fault =>
              rw [save_of_unlisted hnoted haccepted hlistedNoted,
                save_of_unlisted hsave haccepted hlisted]
              rfl

theorem restore_noting (s : Session) (serial : Serial) :
    s.restore service.noting serial (store, requests) =
      noted (s.restore service serial store) requests := by
  rcases hanswer : service.snapshot s.stencilId serial store with ⟨answer, after⟩
  have hnoted : service.noting.snapshot s.stencilId serial (store, requests) =
      (answer, (after, requests)) := StoreService.unnoted_of_eq hanswer requests
  cases answer with
  | error fault =>
      rw [restore_of_error hnoted, restore_of_error hanswer]
      rfl
  | ok version =>
      rw [restore_of_ok hnoted, restore_of_ok hanswer]
      rfl

end Session

theorem compareVersions_noting (id : String) (old new : Serial) :
    compareVersions service.noting id old new (store, requests) =
      noted (compareVersions service id old new store) requests := by
  unfold compareVersions noted
  rcases hold : service.snapshot id old store with ⟨before, middle⟩
  have hnoted : service.noting.snapshot id old (store, requests) =
      (before, (middle, requests)) := StoreService.unnoted_of_eq hold requests
  simp only [bind, StateT.bind, hold, hnoted]
  cases before with
  | error fault => rfl
  | ok before =>
      rcases hnew : service.snapshot id new middle with ⟨after, last⟩
      have hnotedNew : service.noting.snapshot id new (middle, requests) =
          (after, (last, requests)) := StoreService.unnoted_of_eq hnew requests
      simp only [StateT.bind, hnew, hnotedNew]
      cases after with
      | error fault => rfl
      | ok after => rfl

namespace Editor

def sends (e : Editor) : Operation → List SaveRequest
  | .requestSave message =>
      match e.session with
      | some s => if s.errorCount = 0 then [s.saveRequest e.author message] else []
      | none => []
  | .resolve id true =>
      match e.session, e.confirmations.take? id with
      | some s, some taken => s.sends taken.1.action.operation
      | _, _ => []
  | _ => []

variable (e : Editor)

theorem load_noting (id : String) (serial : Option Serial) :
    e.load service.noting id serial (store, requests) =
      noted (e.load service id serial store) requests := by
  rcases hload : service.load id serial store with ⟨answer, after⟩
  have hnoted : service.noting.load id serial (store, requests) =
      (answer, (after, requests)) := StoreService.unnoted_of_eq hload requests
  cases answer with
  | error fault =>
      rw [load_of_error hnoted, load_of_error hload]
      rfl
  | ok loaded =>
      rw [load_of_ok hnoted, load_of_ok hload]
      rfl

theorem save_noting {s : Session} (hs : e.session = some s) (author : String)
    (message : Option String) :
    e.save service.noting author message (store, requests) =
      noted (e.save service author message store)
        (requests ++ [s.saveRequest author message]) := by
  have hnoted := Session.save_noting service store requests s author message
  rcases hsave : s.save service author message store with ⟨⟨answer, next⟩, after⟩
  rw [hsave] at hnoted
  cases answer with
  | error fault =>
      rw [save_of_error hs hnoted, save_of_error hs hsave]
      rfl
  | ok answer =>
      rw [save_of_ok hs hnoted, save_of_ok hs hsave]
      rfl

theorem restore_noting (serial : Serial) :
    e.restore service.noting serial (store, requests) =
      noted (e.restore service serial store) requests := by
  cases hs : e.session with
  | none =>
      rw [restore_of_none serial hs, restore_of_none serial hs]
      rfl
  | some s =>
      have hnoted := Session.restore_noting service store requests s serial
      rcases hrestore : s.restore service serial store with ⟨⟨answer, next⟩, after⟩
      rw [hrestore] at hnoted
      cases answer with
      | error fault =>
          rw [restore_of_error hs hnoted, restore_of_error hs hrestore]
          rfl
      | ok report =>
          rw [restore_of_ok hs hnoted, restore_of_ok hs hrestore]
          rfl

theorem requestSave_noting (message : Option String) :
    e.requestSave service.noting message (store, requests) =
      noted (e.requestSave service message store) (requests ++ e.sends (.requestSave message)) := by
  cases hs : e.session with
  | none =>
      rw [requestSave_of_none message hs, requestSave_of_none message hs, sends, hs,
        List.append_nil]
      rfl
  | some s =>
      by_cases hclean : s.errorCount = 0
      · rw [requestSave_of_clean message hs hclean, requestSave_of_clean message hs hclean,
          e.save_noting service store requests hs, sends, hs]
        simp only [if_pos hclean]
        rfl
      · rw [requestSave_of_errors message hs hclean, requestSave_of_errors message hs hclean,
          sends, hs]
        simp only [if_neg hclean, List.append_nil]
        rfl

theorem runPending_of_none (hs : e.session = none) (action : PendingAction) :
    e.runPending service action store = (e.unloaded, store) := by
  cases action with
  | closeTab path =>
      show (e.closeTab path, store) = _
      unfold closeTab
      rw [hs]
  | deleteFile path =>
      show (e.deleteFile path, store) = _
      unfold deleteFile
      rw [hs]
  | save author message => exact save_of_none author message hs
  | restore serial => exact restore_of_none serial hs

theorem runPending_noting {s : Session} (hs : e.session = some s) (action : PendingAction) :
    e.runPending service.noting action (store, requests) =
      noted (e.runPending service action store) (requests ++ s.sends action.operation) := by
  cases action with
  | closeTab path => exact noted_of_unsent rfl
  | deleteFile path => exact noted_of_unsent rfl
  | save author message => exact e.save_noting service store requests hs author message
  | restore serial => exact noted_of_unsent (e.restore_noting service store requests serial)

theorem sends_resolve (id : Nat) :
    e.sends (.resolve id true) =
      match e.session, e.confirmations.take? id with
      | some s, some taken => s.sends taken.1.action.operation
      | _, _ => [] := rfl

theorem resolve_noting (id : Nat) (confirmed : Bool) :
    e.resolve service.noting id confirmed (store, requests) =
      noted (e.resolve service id confirmed store)
        (requests ++ e.sends (.resolve id confirmed)) := by
  cases htake : e.confirmations.take? id with
  | none =>
      have hsends : e.sends (.resolve id confirmed) = [] := by
        cases confirmed with
        | false => rfl
        | true =>
            rw [sends_resolve, htake]
            cases e.session <;> rfl
      rw [resolve_of_unknown confirmed htake, resolve_of_unknown confirmed htake, hsends,
        List.append_nil]
      rfl
  | some taken =>
      rcases taken with ⟨question, rest⟩
      cases confirmed with
      | false =>
          rw [resolve_of_declined htake, resolve_of_declined htake]
          exact noted_of_unsent rfl
      | true =>
          rw [resolve_of_confirmed htake, resolve_of_confirmed htake, sends_resolve, htake]
          cases hs : e.session with
          | none =>
              have hheld : { e with confirmations := rest }.session = none := hs
              rw [hs] at hheld
              rw [runPending_of_none _ _ _ hheld, runPending_of_none _ _ _ hheld,
                List.append_nil]
              rfl
          | some s => exact runPending_noting service store requests _ rfl question.action

theorem refreshHistory_noting :
    e.refreshHistory service.noting (store, requests) =
      noted (e.refreshHistory service store) requests := by
  cases hs : e.session with
  | none =>
      rw [refreshHistory_of_none hs, refreshHistory_of_none hs]
      rfl
  | some s =>
      rcases hlisted : service.history s.stencilId store with ⟨answer, after⟩
      have hnoted : service.noting.history s.stencilId (store, requests) =
          (answer, (after, requests)) := StoreService.unnoted_of_eq hlisted requests
      cases answer with
      | error fault =>
          rw [refreshHistory_of_error hs hnoted, refreshHistory_of_error hs hlisted]
          rfl
      | ok versions =>
          rw [refreshHistory_of_ok hs hnoted, refreshHistory_of_ok hs hlisted]
          rfl

theorem compareVersions_noting (old new : Serial) :
    e.compareVersions service.noting old new (store, requests) =
      noted (e.compareVersions service old new store) requests := by
  cases hs : e.session with
  | none =>
      rw [compareVersions_of_none old new hs, compareVersions_of_none old new hs]
      rfl
  | some s =>
      have hnoted := StencilDesk.compareVersions_noting service store requests s.stencilId old new
      rcases hcompared : StencilDesk.compareVersions service s.stencilId old new store with
        ⟨answer, after⟩
      rw [hcompared] at hnoted
      cases answer with
      | error fault =>
          rw [compareVersions_of_error hs hnoted, compareVersions_of_error hs hcompared]
          rfl
      | ok diff =>
          rw [compareVersions_of_ok hs hnoted, compareVersions_of_ok hs hcompared]
          rfl

/-- On a store that notes its requests everything is as before, and what is noted is what the
operation sends. -/
theorem perform_noting (operation : Operation) :
    e.perform service.noting operation (store, requests) =
      noted (e.perform service operation store) (requests ++ e.sends operation) := by
  have hmap : ∀ {α β : Type} (f : α → β) {result : α × σ × List SaveRequest} {plain : α × σ}
      {sent : List SaveRequest}, result = noted plain sent →
        (f result.1, result.2) = noted (f plain.1, plain.2) sent := by
    intro α β f result plain sent h
    rw [h]
    rfl
  cases operation with
  | requestSave message =>
      exact hmap (Outcome.reply .asked) (e.requestSave_noting service store requests message)
  | resolve id confirmed =>
      exact hmap Outcome.done (e.resolve_noting service store requests id confirmed)
  | load id serial =>
      exact noted_of_unsent (hmap Outcome.done (e.load_noting service store requests id serial))
  | refreshHistory =>
      exact noted_of_unsent (hmap Outcome.done (e.refreshHistory_noting service store requests))
  | compareVersions old new =>
      exact noted_of_unsent
        (hmap (Outcome.reply .diff) (e.compareVersions_noting service store requests old new))
  | _ => exact noted_of_unsent rfl

end Editor

end

end StencilDesk
