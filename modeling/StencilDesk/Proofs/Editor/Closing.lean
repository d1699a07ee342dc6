import StencilDesk.Proofs.Editor.Failure
import StencilDesk.Proofs.Session.Baseline

/-!
# Closing a tab on confirmation

The question before a dirty tab is closed speaks of discarding its changes. What is taken away on
confirmation is the tab: the edits stay in the files, count as pending, and are part of the next
save.
-/

namespace StencilDesk

namespace Session

theorem close_confirmed {s : Session} {path : String} {tab : Tab} (h : s.tab? path = some tab) :
    s.close path true = (.closed (s.removeTab path).active, s.removeTab path) := by
  unfold close
  simp only [h, Tab.after, Bool.not_true, Bool.and_false, Bool.false_eq_true, if_false]

end Session

namespace Editor

variable {σ : Type} {e : Editor} {s : Session} {path : String} {tab : Tab}

theorem closeTab_of_open (hs : e.session = some s) (htab : s.tab? path = some tab) :
    e.closeTab path =
      e.proceed (s.removeTab path) (closedCommands path (s.removeTab path)) () := by
  unfold closeTab
  rw [hs]
  simp only [Session.close_confirmed htab]

theorem perform_resolve_closeTab (h : e.Settled) {question : Confirmation}
    (hmem : question ∈ e.confirmations.pending) (haction : question.action = .closeTab path)
    (hs : e.session = some s) (htab : s.tab? path = some tab) (service : StoreService σ)
    (store : σ) :
    (e.perform service (.resolve question.id true) store).1.1 = .ok .done ∧
      (e.perform service (.resolve question.id true) store).1.2.session =
        some (s.removeTab path) := by
  have htaken : ∃ rest, e.confirmations.take? question.id = some (question, rest) := by
    rcases h.exists_take hmem with ⟨_, _, _, htake⟩
    exact ⟨_, htake⟩
  rcases htaken with ⟨rest, htake⟩
  have hopen : { e with confirmations := rest }.session = some s := hs
  have hclosed : e.resolve service question.id true store =
      ({ e with confirmations := rest }.proceed (s.removeTab path)
        (closedCommands path (s.removeTab path)) (), store) := by
    rw [resolve_of_confirmed htake, haction, ← closeTab_of_open hopen htab]
    rfl
  have hperform : e.perform service (.resolve question.id true) store =
      ((e.resolve service question.id true store).1.done,
        (e.resolve service question.id true store).2) := rfl
  rw [hperform, hclosed]
  exact ⟨rfl, rfl⟩

/-- After a tab was closed on confirmation, the files are those of before with all edits. The same
paths are pending, those whose content is not that of the baseline, and a save sends the same. -/
theorem keepsEdits_resolve_closeTab (he : e.Reachable) {question : Confirmation}
    (hmem : question ∈ e.confirmations.pending) (haction : question.action = .closeTab path)
    (hs : e.session = some s) (htab : s.tab? path = some tab) (service : StoreService σ)
    (store : σ) :
    ∃ next, (e.perform service (.resolve question.id true) store).1.2.session = some next ∧
      (e.perform service (.resolve question.id true) store).1.1 = .ok .done ∧
      next.tabs = s.tabs.eraseP (fun tab => tab.path == path) ∧
      next.files = s.files ∧
      (e.perform service (.resolve question.id true) store).1.2.pendingChanges =
        e.pendingChanges ∧
      (∀ other, other ∈ e.pendingChanges ↔ s.baseline.get? other ≠
        (BundleDiff.lastContent? s.files other).map Checksum.ofText) ∧
      ∀ author message, next.saveRequest author message = s.saveRequest author message := by
  rcases perform_resolve_closeTab he.settled hmem haction hs htab service store with
    ⟨hanswer, hnext⟩
  have hpending : e.pendingChanges = s.changedPaths := by
    unfold pendingChanges
    rw [hs]
  refine ⟨s.removeTab path, hnext, hanswer, rfl, rfl, ?_, ?_, fun _ _ => rfl⟩
  · rw [hpending]
    unfold pendingChanges
    rw [hnext]
    rfl
  · intro other
    rw [hpending, Session.mem_changedPaths_iff, Session.get?_checksums]

def notingStore : StoreService (List SaveRequest) where
  load id _ := fun noted =>
    (.ok ⟨id, ⟨"250914A", rfl⟩, {}, [File.ofPath "/a.ftl" "saved"], []⟩, noted)
  snapshot _ _ := fun noted => (.error (.rejected "gone"), noted)
  save request := fun noted => (.ok ⟨⟨"250914B", rfl⟩, true⟩, noted ++ [request])
  history _ := fun noted => (.ok [], noted)
  now := fun noted => (⟨⟨2025, 9, 13⟩, 10, 0, 0, 0, 0⟩, noted)

def closingEditor : Editor :=
  let loaded := (perform notingStore { author := "ann" } (.load "demo" none) []).1.2
  let opened := (loaded.perform notingStore (.openFile "/a.ftl") []).1.2
  let edited := (opened.perform notingStore (.edit "/a.ftl" "edited") []).1.2
  (edited.perform notingStore (.requestClose "/a.ftl") []).1.2

theorem reachable_closingEditor : closingEditor.Reachable :=
  ((((Reachable.new "ann").performed notingStore [] _).performed notingStore [] _).performed
    notingStore [] _).performed notingStore [] _

theorem keepsEdits_resolve_closeTab_edited :
    closingEditor.Reachable ∧
      closingEditor.confirmations.pending.map Confirmation.action = [.closeTab "/a.ftl"] ∧
      ∃ next, (closingEditor.perform notingStore (.resolve 1 true) []).1.2.session = some next ∧
        next.tabs = [] ∧ next.files = [File.ofPath "/a.ftl" "edited"] := by
  rcases hs : closingEditor.session with _ | s
  · cases hs
  have hpending : closingEditor.confirmations.pending =
      [⟨1, "Close tab", "/a.ftl has unsaved changes. Close it and discard them?",
        .closeTab "/a.ftl"⟩] := rfl
  have hsession : closingEditor.session = some s := hs
  cases hs
  rcases keepsEdits_resolve_closeTab reachable_closingEditor
    (by rw [hpending]; exact List.mem_singleton_self _) rfl hsession rfl notingStore [] with
    ⟨next, hnext, _, htabs, hfiles, _⟩
  exact ⟨reachable_closingEditor, by rw [hpending]; rfl, next, hnext, htabs, hfiles⟩

/-- A confirmed close does not discard: the edited file is pending after it, and is what a save
stores that follows at once. -/
theorem not_discards_resolve_closeTab :
    (closingEditor.perform notingStore (.resolve 1 true) []).1.2.pendingChanges = ["/a.ftl"] ∧
      ((closingEditor.perform notingStore (.resolve 1 true) []).1.2.perform notingStore
          (.requestSave none) []).2.map SaveRequest.files =
        [[File.ofPath "/a.ftl" "edited"]] := by
  decide +kernel

end Editor
end StencilDesk
