import StencilDesk.Editor.Operation

/-!
# Reachable editors

The editors that come about when a new one is asked for any operations, on stores that answer
whatever they like, while its display takes commands now and then. Questions only wait while a
stencil is loaded, and no two of them have the same id.
-/

namespace StencilDesk
namespace Editor

variable {σ : Type}

inductive Reachable : Editor → Prop where
  | new (author : String) : Reachable { author }
  | performed {σ : Type} {e : Editor} (h : Reachable e) (service : StoreService σ) (store : σ)
      (operation : Operation) : Reachable (e.perform service operation store).1.2
  | dequeued {e : Editor} (h : Reachable e) : Reachable e.dequeue.2
  | drained {e : Editor} (h : Reachable e) : Reachable e.drain.2

/-- What holds of the questions of an editor. -/
structure Settled (e : Editor) : Prop where
  loaded : e.confirmations.pending ≠ [] → ∃ s, e.session = some s
  distinct : (e.confirmations.pending.map Confirmation.id).Nodup
  used : ∀ question ∈ e.confirmations.pending, question.id < e.confirmations.nextId

/-!
## What keeps the questions settled
-/

section
variable {e : Editor} {α : Type}

theorem Settled.queue (h : e.Settled) (commands : List Command) : (e.queue commands).Settled :=
  ⟨h.loaded, h.distinct, h.used⟩

theorem Settled.holding (h : e.Settled) (s : Session) : (e.holding s).Settled :=
  ⟨fun _ => ⟨s, rfl⟩, h.distinct, h.used⟩

theorem Settled.fail (h : e.Settled) (fault : EditorFault) :
    (e.fail (α := α) fault).2.Settled :=
  h.queue _

theorem Settled.proceed (h : e.Settled) (s : Session) (commands : List Command) (reply : α) :
    (e.proceed s commands reply).2.Settled :=
  (h.holding s).queue commands

theorem Settled.ask (h : e.Settled) {s : Session} (hs : e.session = some s)
    (title body : String) (action : PendingAction) : (e.ask title body action).2.Settled := by
  constructor
  · intro _
    exact ⟨s, hs⟩
  · show ((e.confirmations.pending ++ [e.confirmations.upcoming title body action]).map
      Confirmation.id).Nodup
    rw [List.map_append, List.map_singleton, List.nodup_append]
    refine ⟨h.distinct, by simp, ?_⟩
    intro id hid other hother
    rcases List.mem_map.mp hid with ⟨question, hmem, hsame⟩
    have hused := h.used question hmem
    rw [List.mem_singleton.mp hother, ← hsame]
    exact Nat.ne_of_lt hused
  · intro question hmem
    rcases List.mem_append.mp hmem with hold | hnew
    · exact Nat.lt_succ_of_lt (h.used question hold)
    · rw [List.mem_singleton.mp hnew]
      exact Nat.lt_succ_self _

theorem settled_cleared (e : Editor) :
    { e with confirmations := e.confirmations.clear }.Settled where
  loaded := fun hsome => absurd rfl hsome
  distinct := List.nodup_nil
  used := by
    intro question hmem
    cases hmem

theorem Settled.answered (h : e.Settled) {id : Nat} {question : Confirmation}
    {rest : ConfirmationQueue} (htake : e.confirmations.take? id = some (question, rest)) :
    { e with confirmations := rest }.Settled := by
  rcases ConfirmationQueue.of_take?_eq_some htake with ⟨_, _, hnext, hpending⟩
  have hsub : rest.pending.Sublist e.confirmations.pending := by
    rw [hpending]
    exact List.eraseP_sublist
  constructor
  · intro hsome
    apply h.loaded
    intro hnone
    rw [hnone] at hsub
    exact hsome (List.sublist_nil.mp hsub)
  · exact h.distinct.sublist (hsub.map Confirmation.id)
  · intro other hmem
    show other.id < rest.nextId
    rw [hnext]
    exact h.used other (hsub.subset hmem)

theorem Settled.withSession (h : e.Settled) {operation : Session → Outcome α}
    (hoperation : ∀ s, e.session = some s → (operation s).2.Settled) :
    (e.withSession operation).2.Settled := by
  unfold Editor.withSession
  cases hs : e.session with
  | none => exact h.fail _
  | some s => exact hoperation s hs

theorem Settled.proceedWith (h : e.Settled) (result : Except SessionFault Session)
    (commands : Session → List Command) (reply : α) :
    (e.proceedWith result commands reply).2.Settled := by
  cases result with
  | error fault => exact h.fail _
  | ok s => exact h.proceed s _ reply

theorem Settled.changing (h : e.Settled) (change : Session → Except SessionFault Session)
    (commands : Session → List Command) (reply : α) :
    (e.withSession fun s => e.proceedWith (change s) commands reply).2.Settled :=
  h.withSession fun s _ => h.proceedWith (change s) commands reply

end

/-!
## Operations
-/

section
variable {e : Editor}

theorem Settled.expect (h : e.Settled) (expected : List String) : (e.expect expected).Settled := by
  unfold Editor.expect
  cases hs : e.session with
  | none => exact ⟨by simpa [hs] using h.loaded, h.distinct, h.used⟩
  | some s => exact ⟨fun _ => ⟨_, rfl⟩, h.distinct, h.used⟩

theorem Settled.openFile (h : e.Settled) (path : String) : (e.openFile path).2.Settled :=
  h.changing (fun s => s.openFile path) _ ()

theorem Settled.activate (h : e.Settled) (path : String) : (e.activate path).2.Settled :=
  h.changing (fun s => s.activate path) _ ()

theorem Settled.edit (h : e.Settled) (path content : String) :
    (e.edit path content).2.Settled :=
  h.changing (fun s => s.edit path content) _ ()

theorem Settled.moveFile (h : e.Settled) (path new : String) :
    (e.moveFile path new).2.Settled :=
  h.changing (fun s => s.moveFile path new) _ ()

theorem Settled.requestClose (h : e.Settled) (path : String) :
    (e.requestClose path).2.Settled := by
  apply h.withSession
  intro s _
  dsimp only
  split
  · exact h.proceed _ _ _
  · rename_i next _
    exact (h.holding next).ask rfl _ _ _
  · exact (h.holding _).fail _

theorem Settled.closeTab (h : e.Settled) (path : String) : (e.closeTab path).2.Settled := by
  unfold Editor.closeTab
  split
  · exact h
  · split
    · exact h.proceed _ _ _
    · exact (h.holding _).fail _

theorem Settled.requestDelete (h : e.Settled) (path : String) :
    (e.requestDelete path).2.Settled := by
  apply h.withSession
  intro s hs
  split
  · exact h.fail _
  · exact h.ask hs _ _ _

theorem Settled.deleteFile (h : e.Settled) (path : String) : (e.deleteFile path).2.Settled := by
  unfold Editor.deleteFile
  split
  · exact h
  · split
    · exact h.proceed _ _ _
    · exact h.holding _

theorem Settled.createFile (h : e.Settled) (parent name : String) :
    (e.createFile parent name).2.Settled := by
  apply h.withSession
  intro s _
  split
  · exact h.proceed _ _ _
  · exact (h.holding _).fail _

theorem Settled.createFolder (h : e.Settled) (parent name : String) :
    (e.createFolder parent name).2.Settled := by
  apply h.withSession
  intro s _
  split
  · exact h.proceed _ _ _
  · exact h.fail _

variable (service : StoreService σ) (store : σ)

theorem Settled.load (h : e.Settled) (id : String) (serial : Option Serial) :
    (e.load service id serial store).1.2.Settled := by
  rcases hload : service.load id serial store with ⟨answer, after⟩
  cases answer with
  | error fault =>
      rw [load_of_error hload]
      exact h.fail _
  | ok loaded =>
      rw [load_of_ok hload]
      exact (settled_cleared e).proceed _ _ _

theorem Settled.save (h : e.Settled) (author : String) (message : Option String) :
    (e.save service author message store).1.2.Settled := by
  cases hs : e.session with
  | none =>
      rw [save_of_none author message hs]
      exact h
  | some s =>
      rcases hsave : s.save service author message store with ⟨⟨answer, next⟩, after⟩
      cases answer with
      | error fault =>
          rw [save_of_error hs hsave]
          exact (h.holding next).fail _
      | ok answer =>
          rw [save_of_ok hs hsave]
          exact h.proceed _ _ _

theorem Settled.requestSave (h : e.Settled) (message : Option String) :
    (e.requestSave service message store).1.2.Settled := by
  cases hs : e.session with
  | none =>
      rw [requestSave_of_none message hs]
      exact h.fail _
  | some s =>
      by_cases hclean : s.errorCount = 0
      · rw [requestSave_of_clean message hs hclean]
        exact h.save service store e.author message
      · rw [requestSave_of_errors message hs hclean]
        exact h.ask hs _ _ _

theorem Settled.restore (h : e.Settled) (serial : Serial) :
    (e.restore service serial store).1.2.Settled := by
  cases hs : e.session with
  | none =>
      rw [restore_of_none serial hs]
      exact h
  | some s =>
      rcases hrestore : s.restore service serial store with ⟨⟨answer, next⟩, after⟩
      cases answer with
      | error fault =>
          rw [restore_of_error hs hrestore]
          exact (h.holding next).fail _
      | ok report =>
          rw [restore_of_ok hs hrestore]
          exact h.proceed _ _ _

theorem Settled.runPending (h : e.Settled) (action : PendingAction) :
    (e.runPending service action store).1.2.Settled := by
  cases action with
  | closeTab path => exact h.closeTab path
  | deleteFile path => exact h.deleteFile path
  | save author message => exact h.save service store author message
  | restore serial => exact h.restore service store serial

theorem Settled.resolve (h : e.Settled) (id : Nat) (confirmed : Bool) :
    (e.resolve service id confirmed store).1.2.Settled := by
  cases htake : e.confirmations.take? id with
  | none =>
      rw [resolve_of_unknown confirmed htake]
      exact h.fail _
  | some taken =>
      rcases taken with ⟨question, rest⟩
      have hanswered := h.answered htake
      cases confirmed with
      | false =>
          rw [resolve_of_declined htake]
          exact hanswered
      | true =>
          rw [resolve_of_confirmed htake]
          exact hanswered.runPending service store question.action

theorem Settled.refreshHistory (h : e.Settled) :
    (e.refreshHistory service store).1.2.Settled := by
  cases hs : e.session with
  | none =>
      rw [refreshHistory_of_none hs]
      exact h.fail _
  | some s =>
      rcases hlisted : service.history s.stencilId store with ⟨answer, after⟩
      cases answer with
      | error fault =>
          rw [refreshHistory_of_error hs hlisted]
          exact h.fail _
      | ok versions =>
          rw [refreshHistory_of_ok hs hlisted]
          exact h.proceed _ _ _

theorem Settled.compareVersions (h : e.Settled) (old new : Serial) :
    (e.compareVersions service old new store).1.2.Settled := by
  cases hs : e.session with
  | none =>
      rw [compareVersions_of_none old new hs]
      exact h.fail _
  | some s =>
      rcases hcompared : StencilDesk.compareVersions service s.stencilId old new store with
        ⟨answer, after⟩
      cases answer with
      | error fault =>
          rw [compareVersions_of_error hs hcompared]
          exact h.fail _
      | ok diff =>
          rw [compareVersions_of_ok hs hcompared]
          exact h.queue _

theorem Settled.perform (h : e.Settled) (operation : Operation) :
    (e.perform service operation store).1.2.Settled := by
  cases operation with
  | load id serial => exact h.load service store id serial
  | expect expected => exact h.expect expected
  | openFile path => exact h.openFile path
  | activate path => exact h.activate path
  | edit path content => exact h.edit path content
  | requestClose path => exact h.requestClose path
  | requestSave message => exact h.requestSave service store message
  | requestDelete path => exact h.requestDelete path
  | requestRestore serial => exact h.withSession fun s hs => h.ask hs _ _ _
  | resolve id confirmed => exact h.resolve service store id confirmed
  | createFile parent name => exact h.createFile parent name
  | createFolder parent name => exact h.createFolder parent name
  | moveFile path new => exact h.moveFile path new
  | refreshHistory => exact h.refreshHistory service store
  | compareVersions old new => exact h.compareVersions service store old new

end

/-- Every reachable editor has its questions settled. -/
theorem Reachable.settled {e : Editor} (h : e.Reachable) : e.Settled := by
  induction h with
  | new author =>
      constructor
      · intro hsome
        exact absurd rfl hsome
      · exact List.nodup_nil
      · intro question hmem
        cases hmem
  | performed _ service store operation ih => exact ih.perform service store operation
  | dequeued _ ih => exact ⟨ih.loaded, ih.distinct, ih.used⟩
  | drained _ ih => exact ⟨ih.loaded, ih.distinct, ih.used⟩

end Editor
end StencilDesk
