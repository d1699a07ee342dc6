import Mathlib.Data.List.Nodup
import StencilDesk.Proofs.Editor.Reachable

/-!
# Failures of an editor

An operation that fails leaves the session as it was and notifies the operator once. Of the
questions it takes only the one that it answers.
-/

namespace StencilDesk

/-!
## Failures of a session
-/

namespace Session

variable {σ : Type}

/-- A file that was just created can be opened, so that creating one fails only while the session
is still as it was. -/
theorem createFile_of_error {s : Session} {parent name : String} {fault : SessionFault}
    (h : (s.createFile parent name).1 = .error fault) : (s.createFile parent name).2 = s := by
  unfold createFile at h ⊢
  cases hcreate : Bundle.createFile s.files parent name with
  | error _ => rfl
  | ok files =>
      rcases Bundle.createFile_eq_ok hcreate with ⟨_, _, _, _, hfiles⟩
      have hexists : File.existsAt files (Path.join parent name) = true := by
        rw [hfiles, File.existsAt_iff]
        exact ⟨_, List.mem_append_right _ List.mem_cons_self, File.path_ofPath _ _⟩
      rcases File.exists_of_existsAt hexists with ⟨file, hfile⟩
      have hopen : ∃ next,
          ({ s with files } : Session).openFile (Path.join parent name) = .ok next := by
        unfold openFile file?
        rw [hfile]
        exact ⟨_, rfl⟩
      rcases hopen with ⟨next, hopen⟩
      simp only [hcreate, hopen] at h
      cases h

theorem close_of_notOpen {s next : Session} {path : String} {confirmed : Bool}
    (h : s.close path confirmed = (.notOpen, next)) : next = s := by
  unfold close at h
  split at h
  · cases h
    rfl
  · split at h
    · cases h
    · cases h

theorem close_of_needsConfirmation {s next : Session} {path : String} {confirmed : Bool}
    (h : s.close path confirmed = (.needsConfirmation, next)) : next = s := by
  unfold close at h
  split at h
  · cases h
  · split at h
    · cases h
      rfl
    · cases h

theorem save_of_fault {service : StoreService σ} {s next : Session} {author : String}
    {message : Option String} {store after : σ} {fault : SessionFault}
    (h : s.save service author message store = ((.error fault, next), after)) : next = s := by
  rcases hsave : service.save (s.saveRequest author message) store with ⟨answer, later⟩
  cases answer with
  | error refusal =>
      rw [save_of_error hsave] at h
      cases h
      rfl
  | ok answer =>
      cases haccepted : answer.success with
      | false =>
          rw [save_of_refused hsave haccepted] at h
          cases h
          rfl
      | true =>
          rcases hlisted : service.history s.stencilId later with ⟨listing, last⟩
          cases listing with
          | error refusal =>
              rw [save_of_unlisted hsave haccepted hlisted] at h
              cases h
          | ok versions =>
              rw [save_of_listed hsave haccepted hlisted] at h
              cases h

theorem restore_of_fault {service : StoreService σ} {s next : Session} {serial : Serial}
    {store after : σ} {fault : SessionFault}
    (h : s.restore service serial store = ((.error fault, next), after)) : next = s := by
  rcases hanswer : service.snapshot s.stencilId serial store with ⟨answer, later⟩
  cases answer with
  | error refusal =>
      rw [restore_of_error hanswer] at h
      cases h
      rfl
  | ok version =>
      rw [restore_of_ok hanswer] at h
      cases h

end Session

namespace Editor

variable {σ : Type}

/-!
## Outcomes that leave the editor alone if they fail
-/

/-- Holds of an outcome that, if it is a failure, leaves an editor alone but for a notification. -/
def Atomic {α : Type} (e : Editor) (outcome : Outcome α) : Prop :=
  ∀ fault, outcome.1 = .error fault → outcome.2 = e.queue [.notify .error fault.message]

section
variable {e : Editor} {α : Type}

theorem atomic_fail (e : Editor) (fault : EditorFault) : e.Atomic (e.fail (α := α) fault) := by
  intro other h
  cases h
  rfl

theorem atomic_ok (e next : Editor) (reply : α) : e.Atomic (.ok reply, next) := by
  intro fault h
  cases h

theorem atomic_proceed (e : Editor) (s : Session) (commands : List Command) (reply : α) :
    e.Atomic (e.proceed s commands reply) :=
  atomic_ok e _ reply

theorem atomic_ask (e : Editor) (title body : String) (action : PendingAction) :
    e.Atomic (e.ask title body action) :=
  atomic_ok e _ _

theorem Atomic.withSession {operation : Session → Outcome α}
    (h : ∀ s, e.session = some s → e.Atomic (operation s)) :
    e.Atomic (e.withSession operation) := by
  unfold Editor.withSession
  cases hs : e.session with
  | none => exact atomic_fail e _
  | some s => exact h s hs

theorem atomic_proceedWith (e : Editor) (result : Except SessionFault Session)
    (commands : Session → List Command) (reply : α) :
    e.Atomic (e.proceedWith result commands reply) := by
  cases result with
  | error fault => exact atomic_fail e _
  | ok s => exact atomic_proceed e s _ reply

theorem atomic_changing (e : Editor) (change : Session → Except SessionFault Session)
    (commands : Session → List Command) (reply : α) :
    e.Atomic (e.withSession fun s => e.proceedWith (change s) commands reply) :=
  Atomic.withSession fun s _ => atomic_proceedWith e (change s) commands reply

theorem Atomic.map {β : Type} {outcome : Outcome α} (h : e.Atomic outcome) (f : α → β) :
    e.Atomic (outcome.1.map f, outcome.2) := by
  intro fault hfault
  apply h
  cases hanswer : outcome.1 with
  | error other =>
      rw [hanswer] at hfault
      cases hfault
      rfl
  | ok reply =>
      rw [hanswer] at hfault
      cases hfault

theorem holding_self {s : Session} (hs : e.session = some s) : e.holding s = e := by
  unfold holding
  rw [← hs]

end

/-!
## Operations on documents
-/

section
variable (e : Editor)

theorem atomic_requestClose (path : String) : e.Atomic (e.requestClose path) := by
  apply Atomic.withSession
  intro s hs
  dsimp only
  split
  · exact atomic_proceed e _ _ _
  · rename_i next hclose
    rw [Session.close_of_needsConfirmation hclose, holding_self hs]
    exact (atomic_ask e _ _ _).map some
  · rename_i next hclose
    rw [Session.close_of_notOpen hclose, holding_self hs]
    exact atomic_fail e _

theorem atomic_closeTab {s : Session} (hs : e.session = some s) (path : String) :
    e.Atomic (e.closeTab path) := by
  unfold closeTab
  rw [hs]
  dsimp only
  rcases hclose : s.close path true with ⟨outcome, next⟩
  cases outcome with
  | closed active => exact atomic_proceed e _ _ _
  | needsConfirmation =>
      rw [Session.close_of_needsConfirmation hclose]
      dsimp only
      rw [holding_self hs]
      exact atomic_fail e _
  | notOpen =>
      rw [Session.close_of_notOpen hclose]
      dsimp only
      rw [holding_self hs]
      exact atomic_fail e _

theorem atomic_requestDelete (path : String) : e.Atomic (e.requestDelete path) := by
  apply Atomic.withSession
  intro s _
  split
  · exact atomic_fail e _
  · exact atomic_ask e _ _ _

theorem atomic_deleteFile {s : Session} (hs : e.session = some s) (path : String) :
    e.Atomic (e.deleteFile path) := by
  unfold deleteFile
  rw [hs]
  dsimp only
  split
  · exact atomic_proceed e _ _ _
  · exact atomic_ok e _ ()

theorem atomic_createFile (parent name : String) : e.Atomic (e.createFile parent name) := by
  apply Atomic.withSession
  intro s hs
  rcases hcreate : s.createFile parent name with ⟨answer, next⟩
  cases answer with
  | ok path => exact atomic_proceed e _ _ _
  | error fault =>
      have hsame : next = s := by
        have hkept := Session.createFile_of_error (congrArg Prod.fst hcreate)
        rw [hcreate] at hkept
        exact hkept
      dsimp only
      rw [hsame, holding_self hs]
      exact atomic_fail e _

theorem atomic_createFolder (parent name : String) : e.Atomic (e.createFolder parent name) := by
  apply Atomic.withSession
  intro s _
  split
  · exact atomic_proceed e _ _ _
  · exact atomic_fail e _

/-!
## Operations on versions
-/

variable (service : StoreService σ) (store : σ)

theorem atomic_load (id : String) (serial : Option Serial) :
    e.Atomic (e.load service id serial store).1 := by
  rcases hload : service.load id serial store with ⟨answer, after⟩
  cases answer with
  | error fault =>
      rw [load_of_error hload]
      exact atomic_fail e _
  | ok loaded =>
      rw [load_of_ok hload]
      exact atomic_ok e _ ()

theorem atomic_save {s : Session} (hs : e.session = some s) (author : String)
    (message : Option String) : e.Atomic (e.save service author message store).1 := by
  rcases hsave : s.save service author message store with ⟨⟨answer, next⟩, after⟩
  cases answer with
  | error fault =>
      rw [save_of_error hs hsave, Session.save_of_fault hsave, holding_self hs]
      exact atomic_fail e _
  | ok answer =>
      rw [save_of_ok hs hsave]
      exact atomic_proceed e _ _ _

theorem atomic_requestSave (message : Option String) :
    e.Atomic (e.requestSave service message store).1 := by
  cases hs : e.session with
  | none =>
      rw [requestSave_of_none message hs]
      exact atomic_fail e _
  | some s =>
      by_cases hclean : s.errorCount = 0
      · rw [requestSave_of_clean message hs hclean]
        exact (atomic_save e service store hs e.author message).map fun _ => none
      · rw [requestSave_of_errors message hs hclean]
        exact (atomic_ask e _ _ _).map some

theorem atomic_restore {s : Session} (hs : e.session = some s) (serial : Serial) :
    e.Atomic (e.restore service serial store).1 := by
  rcases hrestore : s.restore service serial store with ⟨⟨answer, next⟩, after⟩
  cases answer with
  | error fault =>
      rw [restore_of_error hs hrestore, Session.restore_of_fault hrestore, holding_self hs]
      exact atomic_fail e _
  | ok report =>
      rw [restore_of_ok hs hrestore]
      exact atomic_proceed e _ _ _

theorem atomic_runPending {s : Session} (hs : e.session = some s) (action : PendingAction) :
    e.Atomic (e.runPending service action store).1 := by
  cases action with
  | closeTab path => exact atomic_closeTab e hs path
  | deleteFile path => exact atomic_deleteFile e hs path
  | save author message => exact atomic_save e service store hs author message
  | restore serial => exact atomic_restore e service store hs serial

theorem atomic_refreshHistory : e.Atomic (e.refreshHistory service store).1 := by
  cases hs : e.session with
  | none =>
      rw [refreshHistory_of_none hs]
      exact atomic_fail e _
  | some s =>
      rcases hlisted : service.history s.stencilId store with ⟨answer, after⟩
      cases answer with
      | error fault =>
          rw [refreshHistory_of_error hs hlisted]
          exact atomic_fail e _
      | ok versions =>
          rw [refreshHistory_of_ok hs hlisted]
          exact atomic_proceed e _ _ _

theorem atomic_compareVersions (old new : Serial) :
    e.Atomic (e.compareVersions service old new store).1 := by
  cases hs : e.session with
  | none =>
      rw [compareVersions_of_none old new hs]
      exact atomic_fail e _
  | some s =>
      rcases hcompared : StencilDesk.compareVersions service s.stencilId old new store with
        ⟨answer, after⟩
      cases answer with
      | error fault =>
          rw [compareVersions_of_error hs hcompared]
          exact atomic_fail e _
      | ok diff =>
          rw [compareVersions_of_ok hs hcompared]
          exact atomic_ok e _ diff

end

/-!
## Every operation
-/

/-- The questions that an operation leaves unanswered, if it files none. -/
def unanswered (e : Editor) : Operation → ConfirmationQueue
  | .resolve id _ =>
      match e.confirmations.take? id with
      | some (_, rest) => rest
      | none => e.confirmations
  | _ => e.confirmations

theorem unanswered_of_unknown {e : Editor} {id : Nat} (confirmed : Bool)
    (h : e.confirmations.take? id = none) :
    e.unanswered (.resolve id confirmed) = e.confirmations := by
  simp [unanswered, h]

theorem unanswered_of_taken {e : Editor} {id : Nat} (confirmed : Bool) {question : Confirmation}
    {rest : ConfirmationQueue} (h : e.confirmations.take? id = some (question, rest)) :
    e.unanswered (.resolve id confirmed) = rest := by
  simp [unanswered, h]

/-- A question that is answered relies on the session, which is there as long as it waits. -/
theorem atomic_resolve {e : Editor} (h : e.Settled) (service : StoreService σ) (store : σ)
    (id : Nat) (confirmed : Bool) :
    { e with confirmations := e.unanswered (.resolve id confirmed) }.Atomic
      (e.resolve service id confirmed store).1 := by
  cases htake : e.confirmations.take? id with
  | none =>
      rw [resolve_of_unknown confirmed htake, unanswered_of_unknown confirmed htake]
      exact atomic_fail e _
  | some taken =>
      rcases taken with ⟨question, rest⟩
      rw [unanswered_of_taken confirmed htake]
      cases confirmed with
      | false =>
          rw [resolve_of_declined htake]
          exact atomic_ok _ _ ()
      | true =>
          rw [resolve_of_confirmed htake]
          have hmem := (ConfirmationQueue.of_take?_eq_some htake).1
          rcases h.loaded (List.ne_nil_of_mem hmem) with ⟨s, hs⟩
          exact atomic_runPending { e with confirmations := rest } service store hs question.action

theorem atomic_perform {e : Editor} (h : e.Settled) (service : StoreService σ) (store : σ)
    (operation : Operation) :
    { e with confirmations := e.unanswered operation }.Atomic
      (e.perform service operation store).1 := by
  cases operation with
  | load id serial => exact (atomic_load e service store id serial).map _
  | expect expected => exact atomic_ok e _ _
  | openFile path => exact (atomic_changing e (fun s => s.openFile path) _ ()).map _
  | activate path => exact (atomic_changing e (fun s => s.activate path) _ ()).map _
  | edit path content => exact (atomic_changing e (fun s => s.edit path content) _ ()).map _
  | requestClose path => exact (atomic_requestClose e path).map _
  | requestSave message => exact (atomic_requestSave e service store message).map _
  | requestDelete path => exact (atomic_requestDelete e path).map _
  | requestRestore serial =>
      exact (Atomic.withSession fun s _ => atomic_ask e _ _ (.restore serial)).map _
  | resolve id confirmed => exact (atomic_resolve h service store id confirmed).map _
  | createFile parent name => exact (atomic_createFile e parent name).map _
  | createFolder parent name => exact (atomic_createFolder e parent name).map _
  | moveFile path new => exact (atomic_changing e (fun s => s.moveFile path new) _ ()).map _
  | refreshHistory => exact (atomic_refreshHistory e service store).map _
  | compareVersions old new => exact (atomic_compareVersions e service store old new).map _

/-- How an operation that failed leaves an editor. -/
structure FailedWith (e : Editor) (operation : Operation) (fault : EditorFault)
    (next : Editor) : Prop where
  author_eq : next.author = e.author
  expected_eq : next.expected = e.expected
  session_eq : next.session = e.session
  commands_eq : next.commands = e.commands ++ [.notify .error fault.message]
  /-- Unless it answers a question that is pending, the questions stay as they were. -/
  questions_eq : (∀ id confirmed, operation = .resolve id confirmed →
      ∀ question ∈ e.confirmations.pending, question.id ≠ id) →
    next.confirmations = e.confirmations
  /-- The question that it answers leaves, and all others stay in their order. -/
  answered_eq : ∀ id confirmed, operation = .resolve id confirmed →
    ∀ question ∈ e.confirmations.pending, question.id = id →
      ∃ before after, e.confirmations.pending = before ++ question :: after ∧
        next.confirmations = { e.confirmations with pending := before ++ after }

theorem Settled.exists_take {e : Editor} (h : e.Settled) {question : Confirmation}
    (hmem : question ∈ e.confirmations.pending) :
    ∃ before after, e.confirmations.pending = before ++ question :: after ∧
      e.confirmations.take? question.id =
        some (question, { e.confirmations with pending := before ++ after }) := by
  rcases List.exists_of_eraseP hmem (p := fun q => q.id == question.id) (by simp) with
    ⟨first, before, after, _, hsame, hpending, herased⟩
  have hfirst : first = question := by
    -- Ids are given out once, so the first question under an id is the only one.
    apply List.inj_on_of_nodup_map h.distinct
    · rw [hpending]
      exact List.mem_append_right _ List.mem_cons_self
    · exact hmem
    · simpa using hsame
  rw [hfirst] at hpending
  refine ⟨before, after, hpending, ?_⟩
  cases htake : e.confirmations.take? question.id with
  | none => exact absurd rfl (ConfirmationQueue.take?_eq_none_iff.mp htake question hmem)
  | some taken =>
      rcases taken with ⟨other, rest⟩
      rcases ConfirmationQueue.of_take?_eq_some htake with ⟨hother, hid, hnext, hrest⟩
      have hothers : other = question :=
        List.inj_on_of_nodup_map h.distinct hother hmem hid
      rw [herased] at hrest
      show some (other, rest) = some (question, ⟨e.confirmations.nextId, before ++ after⟩)
      rw [hothers, ← hnext, ← hrest]

/-- Whatever the stores answer, an operation that fails leaves the session as it was, notifies the
operator once, and takes no question but the one that it answers. -/
theorem failedWith_perform {e : Editor} (he : e.Reachable) {service : StoreService σ} {store : σ}
    {operation : Operation} {fault : EditorFault}
    (h : (e.perform service operation store).1.1 = .error fault) :
    e.FailedWith operation fault (e.perform service operation store).1.2 := by
  have hsettled := he.settled
  rw [atomic_perform hsettled service store operation fault h]
  refine ⟨rfl, rfl, rfl, rfl, ?_, ?_⟩
  · intro hunanswered
    show e.unanswered operation = e.confirmations
    cases operation with
    | resolve id confirmed =>
        apply unanswered_of_unknown
        rw [ConfirmationQueue.take?_eq_none_iff]
        exact hunanswered id confirmed rfl
    | _ => rfl
  · intro id confirmed hoperation question hmem hid
    rcases hsettled.exists_take hmem with ⟨before, after, hpending, htake⟩
    refine ⟨before, after, hpending, ?_⟩
    show e.unanswered operation = _
    rw [hid] at htake
    rw [hoperation, unanswered_of_taken confirmed htake]

def stubbornStore : StoreService Unit where
  load id _ := return .ok ⟨id, ⟨"250913A", by decide⟩, {}, [File.ofPath "/a.ftl" ""], []⟩
  snapshot _ _ := return .error (.rejected "gone")
  save _ := return .error (.rejected "read only")
  history _ := return .error (.rejected "gone")
  now := return ⟨⟨2025, 9, 13⟩, 10, 0, 0, 0, 0⟩

def hesitantEditor : Editor :=
  let loaded := (perform stubbornStore { author := "ann" } (.load "demo" none) ()).1.2
  let asked := (loaded.perform stubbornStore (.requestRestore ⟨"250913A", by decide⟩) ()).1.2
  (asked.perform stubbornStore (.requestDelete "/a.ftl") ()).1.2

theorem failedWith_perform_restore :
    hesitantEditor.Reachable ∧
      (hesitantEditor.perform stubbornStore (.resolve 1 true) ()).1.1 =
        .error (.session (.store (.rejected "gone"))) ∧
      hesitantEditor.FailedWith (.resolve 1 true) (.session (.store (.rejected "gone")))
        (hesitantEditor.perform stubbornStore (.resolve 1 true) ()).1.2 := by
  have hreachable : hesitantEditor.Reachable :=
    (((Reachable.new "ann").performed stubbornStore () _).performed stubbornStore () _).performed
      stubbornStore () _
  have hfails : (hesitantEditor.perform stubbornStore (.resolve 1 true) ()).1.1 =
      .error (.session (.store (.rejected "gone"))) := rfl
  exact ⟨hreachable, hfails, failedWith_perform hreachable hfails⟩

end Editor
end StencilDesk
