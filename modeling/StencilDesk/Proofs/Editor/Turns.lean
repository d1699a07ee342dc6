import StencilDesk.Proofs.Editor.Failure
import StencilDesk.Proofs.Session.Run

/-!
# The turns of an editor

All that an operation can make of the session and the questions of an editor: it leaves both alone,
hands one operation on to the session, files a question, answers one, or starts on another stencil.
What operations keep is proved by going through these cases.
-/

namespace StencilDesk

def PendingAction.operation : PendingAction → Session.Operation
  | .closeTab path => .close path true
  | .deleteFile path => .deleteFile path
  | .save author message => .save author message
  | .restore serial => .restore serial

namespace Editor

variable {σ : Type}

def question? : Except EditorFault Reply → Option Confirmation
  | .ok (.asked question) => question
  | _ => none

/-- The operations that are handed on to the session without a question. -/
inductive Drives (e : Editor) (s : Session) : Operation → Session.Operation → Prop where
  | expect (expected : List String) : Drives e s (.expect expected) (.expect expected)
  | openFile (path : String) : Drives e s (.openFile path) (.openFile path)
  | activate (path : String) : Drives e s (.activate path) (.activate path)
  | edit (path content : String) : Drives e s (.edit path content) (.edit path content)
  | close (path : String) : Drives e s (.requestClose path) (.close path false)
  | save (message : Option String) (hclean : s.errorCount = 0) :
      Drives e s (.requestSave message) (.save e.author message)
  | createFile (parent name : String) :
      Drives e s (.createFile parent name) (.createFile parent name)
  | createFolder (parent name : String) :
      Drives e s (.createFolder parent name) (.createFolder parent name)
  | moveFile (path new : String) : Drives e s (.moveFile path new) (.moveFile path new)
  | setVersions (versions : List Snapshot) : Drives e s .refreshHistory (.setVersions versions)

/-- What an operation makes of an editor: the question that it files, and the editor after it. -/
inductive Turn (service : StoreService σ) (e : Editor) (store : σ) :
    Operation → Option Confirmation → Editor → Prop where
  | kept {operation : Operation} {next : Editor} (hsession : next.session = e.session)
      (hqueue : next.confirmations = e.confirmations) : Turn service e store operation none next
  | driven {operation : Operation} {change : Session.Operation} {s : Session} {next : Editor}
      (hs : e.session = some s) (hdrives : e.Drives s operation change)
      (hsession : next.session = some (s.perform service change store).1)
      (hqueue : next.confirmations = e.confirmations) : Turn service e store operation none next
  | asked {operation : Operation} {s : Session} {next : Editor} (title body : String)
      (action : PendingAction) (hs : e.session = some s) (hsession : next.session = e.session)
      (hqueue : next.confirmations = (e.confirmations.file title body action).2) :
      Turn service e store operation (some (e.confirmations.file title body action).1) next
  | declined {id : Nat} {question : Confirmation} {rest : ConfirmationQueue} {next : Editor}
      (htake : e.confirmations.take? id = some (question, rest))
      (hsession : next.session = e.session) (hqueue : next.confirmations = rest) :
      Turn service e store (.resolve id false) none next
  | confirmed {id : Nat} {question : Confirmation} {rest : ConfirmationQueue} {s : Session}
      {next : Editor} (htake : e.confirmations.take? id = some (question, rest))
      (hs : e.session = some s)
      (hsession : next.session = some (s.perform service question.action.operation store).1)
      (hqueue : next.confirmations = rest) : Turn service e store (.resolve id true) none next
  | loaded {id : String} {serial : Option Serial} {next : Editor}
      (hqueue : next.confirmations = e.confirmations.clear) :
      Turn service e store (.load id serial) none next

@[simp] theorem question?_done (outcome : Outcome Unit) : question? outcome.done.1 = none := by
  rcases outcome with ⟨answer | answer, next⟩ <;> rfl

@[simp] theorem question?_path (outcome : Outcome String) :
    question? (outcome.reply .path).1 = none := by
  rcases outcome with ⟨answer | answer, next⟩ <;> rfl

@[simp] theorem question?_diff (outcome : Outcome BundleDiff) :
    question? (outcome.reply .diff).1 = none := by
  rcases outcome with ⟨answer | answer, next⟩ <;> rfl

section
variable {service : StoreService σ} {e : Editor} {store : σ} {operation : Operation}
  {change : Session.Operation}

/-!
## Operations that are handed on
-/

theorem withSession_of_none {α : Type} (hs : e.session = none) (run : Session → Outcome α) :
    e.withSession run = e.fail .noStencilLoaded := by
  unfold withSession
  rw [hs]

theorem withSession_of_some {α : Type} {s : Session} (hs : e.session = some s)
    (run : Session → Outcome α) : e.withSession run = run s := by
  unfold withSession
  rw [hs]

theorem turn_withSession {α : Type} {run : Session → Outcome α}
    (h : ∀ s, e.session = some s → Turn service e store operation none (run s).2) :
    Turn service e store operation none (e.withSession run).2 := by
  cases hs : e.session with
  | none =>
      rw [withSession_of_none hs]
      exact .kept rfl rfl
  | some s =>
      rw [withSession_of_some hs]
      exact h s hs

theorem turn_changing {α : Type} {result : Session → Except SessionFault Session}
    (hdrives : ∀ s, e.Drives s operation change)
    (hperform : ∀ s : Session, (s.perform service change store).1 = s.afterResult (result s))
    (commands : Session → List Command) (reply : α) :
    Turn service e store operation none
      (e.withSession fun s => e.proceedWith (result s) commands reply).2 := by
  apply turn_withSession
  intro s hs
  have hnext := hperform s
  cases hresult : result s with
  | error fault => exact .kept rfl rfl
  | ok next =>
      rw [hresult] at hnext
      exact .driven hs (hdrives s) (congrArg some hnext.symm) rfl

theorem turn_expect (expected : List String) :
    Turn service e store (.expect expected) none (e.expect expected) := by
  unfold expect
  cases hs : e.session with
  | none => exact .kept hs.symm rfl
  | some s => exact .driven hs (.expect expected) rfl rfl

theorem turn_createFile (parent name : String) :
    Turn service e store (.createFile parent name) none (e.createFile parent name).2 := by
  apply turn_withSession
  intro s hs
  rcases hcreate : s.createFile parent name with ⟨answer, next⟩
  have hnext : next = (s.createFile parent name).2 := by rw [hcreate]
  cases answer with
  | error fault => exact .driven hs (.createFile parent name) (congrArg some hnext) rfl
  | ok path => exact .driven hs (.createFile parent name) (congrArg some hnext) rfl

theorem turn_createFolder (parent name : String) :
    Turn service e store (.createFolder parent name) none (e.createFolder parent name).2 := by
  apply turn_withSession
  intro s hs
  cases hcreate : s.createFolder parent name with
  | error fault => exact .kept rfl rfl
  | ok created =>
      have hnext : (s.perform service (.createFolder parent name) store).1 = created.2 := by
        show s.afterResult ((s.createFolder parent name).map Prod.snd) = _
        rw [hcreate]
        rfl
      exact .driven hs (.createFolder parent name) (congrArg some hnext.symm) rfl

theorem turn_refreshHistory :
    Turn service e store .refreshHistory none (e.refreshHistory service store).1.2 := by
  cases hs : e.session with
  | none =>
      rw [refreshHistory_of_none hs]
      exact .kept rfl rfl
  | some s =>
      rcases hlisted : service.history s.stencilId store with ⟨answer, after⟩
      cases answer with
      | error fault =>
          rw [refreshHistory_of_error hs hlisted]
          exact .kept rfl rfl
      | ok versions =>
          rw [refreshHistory_of_ok hs hlisted]
          exact .driven hs (.setVersions versions) rfl rfl

theorem turn_compareVersions (old new : Serial) :
    Turn service e store (.compareVersions old new) none
      (e.compareVersions service old new store).1.2 := by
  cases hs : e.session with
  | none =>
      rw [compareVersions_of_none old new hs]
      exact .kept rfl rfl
  | some s =>
      rcases hcompared : StencilDesk.compareVersions service s.stencilId old new store with
        ⟨answer, after⟩
      cases answer with
      | error fault =>
          rw [compareVersions_of_error hs hcompared]
          exact .kept rfl rfl
      | ok diff =>
          rw [compareVersions_of_ok hs hcompared]
          exact .kept rfl rfl

theorem turn_load (id : String) (serial : Option Serial) :
    Turn service e store (.load id serial) none (e.load service id serial store).1.2 := by
  rcases hload : service.load id serial store with ⟨answer, after⟩
  cases answer with
  | error fault =>
      rw [load_of_error hload]
      exact .kept rfl rfl
  | ok loaded =>
      rw [load_of_ok hload]
      exact .loaded rfl

/-!
## Operations that ask
-/

theorem turn_requestClose (path : String) :
    Turn service e store (.requestClose path) (question? ((e.requestClose path).reply .asked).1)
      (e.requestClose path).2 := by
  unfold requestClose
  cases hs : e.session with
  | none =>
      rw [withSession_of_none hs]
      exact .kept rfl rfl
  | some s =>
      rw [withSession_of_some hs]
      rcases hclose : s.close path false with ⟨outcome, next⟩
      have hnext : next = (s.close path false).2 := by rw [hclose]
      cases outcome with
      | closed active => exact .driven hs (.close path) (congrArg some hnext) rfl
      | needsConfirmation =>
          have hsame : next = s := Session.close_of_needsConfirmation hclose
          simp only [hsame, holding_self hs]
          exact .asked _ _ (.closeTab path) hs rfl rfl
      | notOpen => exact .driven hs (.close path) (congrArg some hnext) rfl

theorem turn_requestDelete (path : String) :
    Turn service e store (.requestDelete path)
      (question? ((e.requestDelete path).reply (.asked ∘ some)).1) (e.requestDelete path).2 := by
  unfold requestDelete
  cases hs : e.session with
  | none =>
      rw [withSession_of_none hs]
      exact .kept rfl rfl
  | some s =>
      rw [withSession_of_some hs]
      cases s.file? path with
      | none => exact .kept rfl rfl
      | some file => exact .asked _ _ (.deleteFile path) hs rfl rfl

theorem turn_requestRestore (serial : Serial) :
    Turn service e store (.requestRestore serial)
      (question? ((e.requestRestore serial).reply (.asked ∘ some)).1)
      (e.requestRestore serial).2 := by
  unfold requestRestore
  cases hs : e.session with
  | none =>
      rw [withSession_of_none hs]
      exact .kept rfl rfl
  | some s =>
      rw [withSession_of_some hs]
      exact .asked _ _ (.restore serial) hs rfl rfl

/-!
## Operations that wait for an answer
-/

theorem closeTab_eq {s : Session} (hs : e.session = some s) (path : String) :
    ∃ commands, (e.closeTab path).2 = (e.holding (s.close path true).2).queue commands := by
  rcases hclose : s.close path true with ⟨outcome, next⟩
  unfold closeTab
  simp only [hs, hclose]
  cases outcome <;> exact ⟨_, rfl⟩

theorem deleteFile_eq {s : Session} (hs : e.session = some s) (path : String) :
    ∃ commands, (e.deleteFile path).2 = (e.holding (s.deleteFile path).2).queue commands := by
  rcases hdelete : s.deleteFile path with ⟨found, next⟩
  unfold deleteFile
  simp only [hs, hdelete]
  cases found with
  | true => exact ⟨_, rfl⟩
  | false =>
      refine ⟨[], ?_⟩
      unfold queue
      rw [List.append_nil]

theorem save_eq (service : StoreService σ) (store : σ) {s : Session} (hs : e.session = some s)
    (author : String) (message : Option String) :
    ∃ commands, (e.save service author message store).1.2 =
      (e.holding (s.save service author message store).1.2).queue commands := by
  rcases hsave : s.save service author message store with ⟨⟨answer, next⟩, after⟩
  cases answer with
  | error fault =>
      rw [save_of_error hs hsave]
      exact ⟨_, rfl⟩
  | ok answer =>
      rw [save_of_ok hs hsave]
      exact ⟨_, rfl⟩

theorem restore_eq (service : StoreService σ) (store : σ) {s : Session} (hs : e.session = some s)
    (serial : Serial) :
    ∃ commands, (e.restore service serial store).1.2 =
      (e.holding (s.restore service serial store).1.2).queue commands := by
  rcases hrestore : s.restore service serial store with ⟨⟨answer, next⟩, after⟩
  cases answer with
  | error fault =>
      rw [restore_of_error hs hrestore]
      exact ⟨_, rfl⟩
  | ok report =>
      rw [restore_of_ok hs hrestore]
      exact ⟨_, rfl⟩

theorem runPending_eq (service : StoreService σ) (store : σ) {s : Session}
    (hs : e.session = some s) (action : PendingAction) :
    ∃ commands, (e.runPending service action store).1.2 =
      (e.holding (s.perform service action.operation store).1).queue commands := by
  cases action with
  | closeTab path => exact closeTab_eq hs path
  | deleteFile path => exact deleteFile_eq hs path
  | save author message => exact save_eq service store hs author message
  | restore serial => exact restore_eq service store hs serial

theorem turn_requestSave (message : Option String) :
    Turn service e store (.requestSave message)
      (question? (Outcome.reply .asked (e.requestSave service message store).1).1)
      (e.requestSave service message store).1.2 := by
  cases hs : e.session with
  | none =>
      rw [requestSave_of_none message hs]
      exact .kept rfl rfl
  | some s =>
      by_cases hclean : s.errorCount = 0
      · rw [requestSave_of_clean message hs hclean]
        have hunasked : question? (Outcome.reply Reply.asked
            ((e.save service e.author message store).1.1.map fun _ => none,
              (e.save service e.author message store).1.2)).1 = none := by
          rcases (e.save service e.author message store).1.1 with answer | answer <;> rfl
        rcases save_eq service store hs e.author message with
          ⟨commands, hnext⟩
        rw [hunasked]
        show Turn _ _ _ _ none (e.save service e.author message store).1.2
        rw [hnext]
        exact .driven hs (.save message hclean) rfl rfl
      · rw [requestSave_of_errors message hs hclean]
        exact .asked _ _ (.save e.author message) hs rfl rfl

theorem turn_resolve (h : e.Settled) (id : Nat) (confirmed : Bool) :
    Turn service e store (.resolve id confirmed) none
      (e.resolve service id confirmed store).1.2 := by
  cases htake : e.confirmations.take? id with
  | none =>
      rw [resolve_of_unknown confirmed htake]
      exact .kept rfl rfl
  | some taken =>
      rcases taken with ⟨question, rest⟩
      cases confirmed with
      | false =>
          rw [resolve_of_declined htake]
          exact .declined htake rfl rfl
      | true =>
          -- A question is only pending while a stencil is loaded.
          have hsome : e.confirmations.pending ≠ [] :=
            List.ne_nil_of_mem (ConfirmationQueue.of_take?_eq_some htake).1
          rcases h.loaded hsome with ⟨s, hs⟩
          have hheld : { e with confirmations := rest }.session = some s := hs
          rcases runPending_eq service store hheld question.action with
            ⟨commands, hnext⟩
          rw [resolve_of_confirmed htake, hnext]
          exact .confirmed htake hs rfl rfl

/-- Every operation takes one of the turns. -/
theorem turn_perform (h : e.Settled) (operation : Operation) :
    Turn service e store operation (question? (e.perform service operation store).1.1)
      (e.perform service operation store).1.2 := by
  cases operation with
  | load id serial =>
      show Turn _ _ _ _ (question? (Outcome.done _).1) _
      rw [question?_done]
      exact turn_load id serial
  | expect expected => exact turn_expect expected
  | openFile path =>
      show Turn _ _ _ _ (question? (Outcome.done _).1) _
      rw [question?_done]
      exact turn_changing (fun _ => .openFile path) (fun _ => rfl) _ ()
  | activate path =>
      show Turn _ _ _ _ (question? (Outcome.done _).1) _
      rw [question?_done]
      exact turn_changing (fun _ => .activate path) (fun _ => rfl) _ ()
  | edit path content =>
      show Turn _ _ _ _ (question? (Outcome.done _).1) _
      rw [question?_done]
      exact turn_changing (fun _ => .edit path content) (fun _ => rfl) _ ()
  | requestClose path => exact turn_requestClose path
  | requestSave message => exact turn_requestSave message
  | requestDelete path => exact turn_requestDelete path
  | requestRestore serial => exact turn_requestRestore serial
  | resolve id confirmed =>
      show Turn _ _ _ _ (question? (Outcome.done _).1) _
      rw [question?_done]
      exact turn_resolve h id confirmed
  | createFile parent name =>
      show Turn _ _ _ _ (question? (Outcome.reply .path _).1) _
      rw [question?_path]
      exact turn_createFile parent name
  | createFolder parent name =>
      show Turn _ _ _ _ (question? (Outcome.reply .path _).1) _
      rw [question?_path]
      exact turn_createFolder parent name
  | moveFile path new =>
      show Turn _ _ _ _ (question? (Outcome.done _).1) _
      rw [question?_done]
      exact turn_changing (fun _ => .moveFile path new) (fun _ => rfl) _ ()
  | refreshHistory =>
      show Turn _ _ _ _ (question? (Outcome.done _).1) _
      rw [question?_done]
      exact turn_refreshHistory
  | compareVersions old new =>
      show Turn _ _ _ _ (question? (Outcome.reply .diff _).1) _
      rw [question?_diff]
      exact turn_compareVersions old new

end

end Editor
end StencilDesk
