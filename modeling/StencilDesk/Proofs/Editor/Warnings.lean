import StencilDesk.Proofs.Editor.Consent
import StencilDesk.Proofs.Editor.Following

/-!
# What an operator is told before errors are saved

A save of errors goes back to a question that was filed in the same run and has been pending since.
It names the number of errors at the time when it was filed. They are not counted again when it is
confirmed, so this is the number of errors that are saved only if it has not changed meanwhile.
-/

namespace StencilDesk

namespace Editor

/-!
## The number of errors in a question
-/

theorem space_not_mem_toString (n : Nat) : ' ' ∉ (toString n).toList := by
  rw [Nat.toString_eq_ofList_toDigits, String.toList_ofList]
  intro hmem
  have hdigit := Nat.isDigit_of_mem_toDigits (by decide) (by decide) hmem
  cases hdigit

theorem exists_toList_saveQuestion (errors : Nat) :
    ∃ rest, (saveQuestion errors).toList =
      "The stencil has ".toList ++ ((toString errors).toList ++ ' ' :: rest) := by
  let noun := if errors = 1 then "error" else "errors"
  have hbody : saveQuestion errors =
      "The stencil has " ++ toString errors ++ " " ++ noun ++ ". Save anyway?" := rfl
  refine ⟨noun.toList ++ ". Save anyway?".toList, ?_⟩
  rw [hbody, String.toList_append, String.toList_append, String.toList_append,
    String.toList_append]
  simp only [List.append_assoc]
  rfl

theorem saveQuestion_inj {errors others : Nat} :
    saveQuestion errors = saveQuestion others ↔ errors = others := by
  constructor
  · intro h
    rcases exists_toList_saveQuestion errors with ⟨rest, herrors⟩
    rcases exists_toList_saveQuestion others with ⟨behind, hothers⟩
    have hbodies : (toString errors).toList ++ ' ' :: rest =
        (toString others).toList ++ ' ' :: behind := by
      apply List.append_cancel_left
      rw [← herrors, ← hothers, h]
    have hnumbers := Text.eq_of_append_separator (space_not_mem_toString errors)
      (space_not_mem_toString others) hbodies
    rw [Nat.toString_eq_ofList_toDigits, Nat.toString_eq_ofList_toDigits, String.toList_ofList,
      String.toList_ofList] at hnumbers
    rw [← Nat.ofDigitChars_ten_toDigits (n := errors), hnumbers, Nat.ofDigitChars_ten_toDigits]
  · intro h
    rw [h]

/-!
## Where a pending question comes from
-/

inductive Files (e : Editor) : Event → Confirmation → Prop where
  | asked {σ : Type} {service : StoreService σ} {store : σ} {operation : Operation}
      {question : Confirmation}
      (h : question? (e.perform service operation store).1.1 = some question) :
      Files e (.performed service store operation) question

section
variable {σ : Type} {e : Editor} {question : Confirmation}

theorem Turn.mem_pending {service : StoreService σ} {store : σ} {operation : Operation}
    {asked : Option Confirmation} {next : Editor}
    (h : Turn service e store operation asked next)
    (hmem : question ∈ next.confirmations.pending) :
    question ∈ e.confirmations.pending ∨ asked = some question := by
  cases h with
  | kept _ hqueue => exact .inl (hqueue ▸ hmem)
  | driven _ _ _ hqueue => exact .inl (hqueue ▸ hmem)
  | asked title body action _ _ hqueue =>
      rw [hqueue, ConfirmationQueue.pending_file] at hmem
      rcases List.mem_append.mp hmem with hold | hnew
      · exact .inl hold
      · exact .inr (congrArg some (List.mem_singleton.mp hnew).symm)
  | declined htake _ hqueue =>
      rw [hqueue, (ConfirmationQueue.of_take?_eq_some htake).2.2.2] at hmem
      exact .inl (List.mem_of_mem_eraseP hmem)
  | confirmed htake _ _ hqueue =>
      rw [hqueue, (ConfirmationQueue.of_take?_eq_some htake).2.2.2] at hmem
      exact .inl (List.mem_of_mem_eraseP hmem)
  | loaded hqueue =>
      rw [hqueue, ConfirmationQueue.pending_clear] at hmem
      cases hmem

theorem mem_pending_after (h : e.Settled) (event : Event)
    (hmem : question ∈ (e.after event).confirmations.pending) :
    question ∈ e.confirmations.pending ∨ e.Files event question := by
  cases event with
  | performed service store operation =>
      exact ((turn_perform h operation).mem_pending hmem).imp_right .asked
  | dequeued => exact .inl hmem
  | drained => exact .inl hmem

end

/-- A pending question was filed by some event of the run, and has been pending since. -/
theorem exists_files {author : String} {events : List Event} {question : Confirmation}
    (h : question ∈ (afterAll { author } events).confirmations.pending) :
    ∃ before asking behind, events = before ++ asking :: behind ∧
      (afterAll { author } before).Files asking question ∧
      ∀ first, first <+: behind →
        question ∈ (afterAll { author } (before ++ asking :: first)).confirmations.pending := by
  induction events using List.reverseRecOn with
  | nil => cases h
  | append_singleton events event ih =>
      have hafter : afterAll { author } (events ++ [event]) =
          (afterAll { author } events).after event := afterAll_append _ _ _
      have hsettled := ((Reachable.new author).afterAll events).settled
      rcases mem_pending_after hsettled event (hafter ▸ h) with hold | hfiles
      · rcases ih hold with ⟨before, asking, behind, hevents, hfiles, hpending⟩
        refine ⟨before, asking, behind ++ [event], by rw [hevents]; simp, hfiles, ?_⟩
        intro first hfirst
        rcases List.prefix_concat_iff.mp hfirst with hall | hsome
        · rw [hall, ← List.cons_append, ← List.append_assoc, ← hevents]
          exact h
        · exact hpending first hsome
      · refine ⟨events, event, [], rfl, hfiles, ?_⟩
        intro first hfirst
        rw [List.prefix_nil.mp hfirst]
        exact h

/-!
## Questions before a save
-/

section
variable {σ : Type} {e : Editor} {question : Confirmation}

theorem action_of_requestClose {path : String}
    (h : question? ((e.requestClose path).reply .asked).1 = some question) :
    question.action = .closeTab path := by
  rw [requestClose] at h
  cases hs : e.session with
  | none =>
      rw [withSession_of_none hs] at h
      cases h
  | some s =>
      rw [withSession_of_some hs] at h
      rcases hclose : s.close path false with ⟨outcome, next⟩
      simp only [hclose] at h
      cases outcome with
      | closed active => cases h
      | needsConfirmation =>
          cases h
          rfl
      | notOpen => cases h

theorem action_of_requestDelete {path : String}
    (h : question? ((e.requestDelete path).reply (.asked ∘ some)).1 = some question) :
    question.action = .deleteFile path := by
  rw [requestDelete] at h
  cases hs : e.session with
  | none =>
      rw [withSession_of_none hs] at h
      cases h
  | some s =>
      rw [withSession_of_some hs] at h
      cases hfile : s.file? path with
      | none =>
          simp only [hfile] at h
          cases h
      | some file =>
          simp only [hfile] at h
          cases h
          rfl

theorem action_of_requestRestore {serial : Serial}
    (h : question? ((e.requestRestore serial).reply (.asked ∘ some)).1 = some question) :
    question.action = .restore serial := by
  rw [requestRestore] at h
  cases hs : e.session with
  | none =>
      rw [withSession_of_none hs] at h
      cases h
  | some s =>
      rw [withSession_of_some hs] at h
      cases h
      rfl

/-- Holds of a question that names how many errors the session of an editor has. -/
def Names (e : Editor) (question : Confirmation) : Prop :=
  ∃ s, e.session = some s ∧ s.errorCount ≠ 0 ∧ question.body = saveQuestion s.errorCount

theorem names_of_requestSave {service : StoreService σ} {store : σ} {message : Option String}
    (h : question? (Outcome.reply .asked (e.requestSave service message store).1).1 =
      some question) : e.Names question := by
  cases hs : e.session with
  | none =>
      rw [requestSave_of_none message hs] at h
      cases h
  | some s =>
      by_cases hclean : s.errorCount = 0
      · have hunasked : ∀ (answer : Except EditorFault Unit) (next : Editor),
            question? (Outcome.reply .asked (answer.map fun _ => none, next)).1 = none := by
          rintro (fault | reply) next <;> rfl
        rw [requestSave_of_clean message hs hclean, hunasked] at h
        cases h
      · rw [requestSave_of_errors message hs hclean] at h
        cases h
        exact ⟨s, hs, hclean, rfl⟩

theorem Files.names {event : Event} (h : e.Files event question) {author : String}
    {message : Option String} (haction : question.action = .save author message) :
    e.Names question := by
  cases h with
  | asked h =>
      rename_i service store operation
      cases operation with
      | requestSave message => exact names_of_requestSave h
      | requestClose path =>
          rw [action_of_requestClose h] at haction
          cases haction
      | requestDelete path =>
          rw [action_of_requestDelete h] at haction
          cases haction
      | requestRestore serial =>
          rw [action_of_requestRestore h] at haction
          cases haction
      | load | openFile | activate | edit | resolve | moveFile | refreshHistory =>
          cases (question?_done _).symm.trans h
      | createFile | createFolder => cases (question?_path _).symm.trans h
      | compareVersions => cases (question?_diff _).symm.trans h
      | expect expected => cases h

end

/-!
## Runs
-/

/-- What stands behind a save in a run, if the session has errors: a pending question that is
confirmed, and the event that filed it. -/
structure Warned (author : String) (events : List Event) (operation : Operation) (s : Session)
    (question : Confirmation) : Prop where
  pending : question ∈ (afterAll { author } events).confirmations.pending
  confirmed : operation = .resolve question.id true
  /-- The question names the errors that there were when it was filed. Those that are saved are as
  many exactly if it names them. -/
  filed : ∃ before asking behind asked, events = before ++ asking :: behind ∧
    (afterAll { author } before).Files asking question ∧
    (afterAll { author } before).session = some asked ∧
    asked.errorCount ≠ 0 ∧ question.body = saveQuestion asked.errorCount ∧
    (question.body = saveQuestion s.errorCount ↔ asked.errorCount = s.errorCount) ∧
    ∀ first, first <+: behind →
      question ∈ (afterAll { author } (before ++ asking :: first)).confirmations.pending

/-- In every run, a store is asked to save errors only if a question was confirmed that named the
errors of the session on which it was filed. -/
theorem warned_run {σ : Type} (author : String) (events : List Event) {s : Session}
    (hs : (afterAll { author } events).session = some s) (herrors : s.errorCount ≠ 0)
    (service : StoreService σ) (store : σ) {operation : Operation}
    (hsent : ((afterAll { author } events).perform service.noting operation (store, [])).2.2 ≠
      []) :
    ∃ question, Warned author events operation s question := by
  rw [perform_noting] at hsent
  rcases sends_cases hs operation with hnone | ⟨name, message, _, hallowed⟩
  · exact absurd hnone hsent
  · rcases hallowed.resolve_left herrors with ⟨question, hmem, hoperation, haction⟩
    rcases exists_files hmem with ⟨before, asking, behind, hevents, hfiles, hpending⟩
    rcases hfiles.names haction with ⟨asked, hasked, hcount, hbody⟩
    refine ⟨question, hmem, hoperation, before, asking, behind, asked, hevents, hfiles, hasked,
      hcount, hbody, ?_, hpending⟩
    rw [hbody, saveQuestion_inj]

def worsenedEvents : List Event :=
  openingEvents ++
    [.performed carelessStore () (.requestSave none),
      .performed carelessStore () (.createFile "/" "b.ftl"),
      .performed carelessStore () (.edit "/b.ftl" "$\x7b\x7d")]

theorem errorCount_worsenedEvents :
    (afterAll { author := "ann" } worsenedEvents).session.map Session.errorCount = some 2 := by
  decide +kernel

theorem pending_worsenedEvents :
    (afterAll { author := "ann" } worsenedEvents).confirmations.pending =
      [⟨1, "Save with errors", saveQuestion 1, .save "ann" none⟩] := by
  decide +kernel

theorem sent_worsenedEvents :
    ((afterAll { author := "ann" } worsenedEvents).perform carelessStore.noting (.resolve 1 true)
      ((), [])).2.2 ≠ [] := by
  decide +kernel

theorem warned_run_worsened :
    ∃ s question, (afterAll { author := "ann" } worsenedEvents).session = some s ∧
      s.errorCount = 2 ∧ Warned "ann" worsenedEvents (.resolve 1 true) s question ∧
      question.body = saveQuestion 1 := by
  rcases Option.map_eq_some_iff.mp errorCount_worsenedEvents with ⟨s, hs, hcount⟩
  rcases warned_run "ann" worsenedEvents hs (by rw [hcount]; decide) carelessStore ()
    sent_worsenedEvents with ⟨question, hwarned⟩
  refine ⟨s, question, hs, hcount, hwarned, ?_⟩
  have hmem := hwarned.pending
  rw [pending_worsenedEvents, List.mem_singleton] at hmem
  rw [hmem]

/-- A save of errors need not have been confirmed by a question that names as many. -/
theorem not_warned_of_count :
    ¬ ∀ (author : String) (events : List Event) (s : Session),
      (afterAll { author } events).session = some s → s.errorCount ≠ 0 →
      ∀ (service : StoreService Unit) (operation : Operation),
        ((afterAll { author } events).perform service.noting operation ((), [])).2.2 ≠ [] →
        ∃ question ∈ (afterAll { author } events).confirmations.pending,
          operation = .resolve question.id true ∧ question.body = saveQuestion s.errorCount := by
  intro h
  rcases Option.map_eq_some_iff.mp errorCount_worsenedEvents with ⟨s, hs, hcount⟩
  rcases h "ann" worsenedEvents s hs (by rw [hcount]; decide) carelessStore (.resolve 1 true)
    sent_worsenedEvents with ⟨question, hmem, _, hbody⟩
  rw [pending_worsenedEvents, List.mem_singleton] at hmem
  rw [hmem, hcount, saveQuestion_inj] at hbody
  cases hbody

end Editor
end StencilDesk
