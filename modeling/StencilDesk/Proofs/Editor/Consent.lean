import Mathlib.Data.List.Forall2
import StencilDesk.Proofs.Editor.Questions
import StencilDesk.Proofs.Editor.Requests
import StencilDesk.Proofs.Session.Effect

/-!
# Nothing is lost without consent

Unless a stencil is loaded, an editor takes no file away, does not replace the files, closes no
dirty tab, and saves no errors, but in answer to a question about just that, which was pending and
is confirmed.
-/

namespace StencilDesk
namespace Editor

variable {σ : Type}

/-- What an operation may make of a file without taking it away. -/
inductive Survives (operation : Operation) (file : File) : File → Prop where
  | kept : Survives operation file file
  | edited {content : String} (h : operation = .edit file.path content) :
      Survives operation file { file with content }
  | moved {new : String} (h : operation = .moveFile file.path new) :
      Survives operation file (file.moved new)

/-- Holds if all files are still there, in their order, with at most one new file behind them. -/
def Retains (operation : Operation) (files next : List File) : Prop :=
  ∃ kept, List.Forall₂ (Survives operation) files kept ∧
    (next = kept ∨ ∃ file, next = kept ++ [file])

/-- Holds of a tab and what has become of it, if it was not closed. -/
def StaysOpen (operation : Operation) (tab next : Tab) : Prop :=
  next.path = tab.path ∨ operation = .moveFile tab.path next.path

def Confirms (e : Editor) (operation : Operation) (action : PendingAction) : Prop :=
  ∃ question ∈ e.confirmations.pending,
    operation = .resolve question.id true ∧ question.action = action

/-- What an operation that loads no stencil may do to the session of an editor. -/
structure Guarded (e : Editor) (service : StoreService σ) (store : σ) (operation : Operation)
    (s next : Session) : Prop where
  files : Retains operation s.files next.files ∨
    (∃ path, e.Confirms operation (.deleteFile path) ∧
      next.files = s.files.filter fun file => file.path != path) ∨
    ∃ serial version, e.Confirms operation (.restore serial) ∧
      (service.snapshot s.stencilId serial store).1 = .ok version ∧ next.files = version.files
  /-- Dirty tabs stay open, as many as are not closed by what was confirmed. -/
  tabs : ∀ tabs : List Tab, tabs.Sublist s.tabs →
    (∀ tab ∈ tabs, tab.dirty = true ∧ ¬e.Confirms operation (.closeTab tab.path) ∧
      ¬e.Confirms operation (.deleteFile tab.path) ∧
      ∀ serial, ¬e.Confirms operation (.restore serial)) →
    List.SublistForall₂ (StaysOpen operation) tabs next.tabs

/-!
## Lists that survive
-/

section
variable {operation : Operation} {files next : List File} {tabs all : List Tab}

theorem retains_refl (operation : Operation) (files : List File) :
    Retains operation files files :=
  ⟨files, List.forall₂_same.mpr fun _ _ => .kept, .inl rfl⟩

theorem forall₂_replaceFirst {R : File → File → Prop} {path : String} {f : File → File}
    (hrefl : ∀ file, R file file) (hf : ∀ file, file.path = path → R file (f file))
    (files : List File) : List.Forall₂ R files (Bundle.replaceFirst path f files) := by
  induction files with
  | nil => exact .nil
  | cons file rest ih =>
      unfold Bundle.replaceFirst
      split
      · rename_i hsame
        exact .cons (hf file hsame) (List.forall₂_same.mpr fun other _ => hrefl other)
      · exact .cons (hrefl file) ih

theorem forall₂_replaceTab {R : Tab → Tab → Prop} {path : String} {f : Tab → Tab}
    (hrefl : ∀ tab, R tab tab) (hf : ∀ tab, tab.path = path → R tab (f tab)) (tabs : List Tab) :
    List.Forall₂ R tabs (Session.replaceTab path f tabs) := by
  induction tabs with
  | nil => exact .nil
  | cons tab rest ih =>
      unfold Session.replaceTab
      split
      · rename_i hsame
        exact .cons (hf tab hsame) (List.forall₂_same.mpr fun other _ => hrefl other)
      · exact .cons (hrefl tab) ih

theorem retains_edit (path content : String) (files : List File) :
    Retains (.edit path content) files
      (Bundle.replaceFirst path (fun file => { file with content }) files) := by
  refine ⟨_, forall₂_replaceFirst (fun _ => .kept) ?_ files, .inl rfl⟩
  intro file hpath
  exact .edited (by rw [hpath])

theorem retains_createFile {parent name : String}
    (h : Bundle.createFile files parent name = .ok next) (operation : Operation) :
    Retains operation files next := by
  rcases Bundle.createFile_eq_ok h with ⟨_, _, _, _, hnext⟩
  exact ⟨files, List.forall₂_same.mpr fun _ _ => .kept, .inr ⟨_, hnext⟩⟩

theorem retains_moveFile {path new : String} (h : Bundle.moveFile files path new = .ok next) :
    Retains (.moveFile path new) files next := by
  rcases Bundle.moveFile_eq_ok h with ⟨_, _, _, ⟨_, hkept⟩ | ⟨_, _, _, hmoved⟩⟩
  · rw [hkept]
    exact retains_refl _ files
  · rw [hmoved]
    refine ⟨_, forall₂_replaceFirst (fun _ => .kept) ?_ files, .inl rfl⟩
    intro file hpath
    exact .moved (by rw [hpath])

theorem staysOpen_refl (operation : Operation) (tab : Tab) : StaysOpen operation tab tab :=
  .inl rfl

theorem stayOpen_of_sublist (operation : Operation) (h : tabs.Sublist all) :
    List.SublistForall₂ (StaysOpen operation) tabs all :=
  List.sublistForall₂_iff.mpr
    ⟨tabs, List.forall₂_same.mpr fun tab _ => staysOpen_refl operation tab, h⟩

theorem stayOpen_of_forall₂ {later : List Tab} (h : tabs.Sublist all)
    (hall : List.Forall₂ (StaysOpen operation) all later) :
    List.SublistForall₂ (StaysOpen operation) tabs later := by
  induction h generalizing later with
  | slnil => exact .nil
  | cons tab _ ih =>
      cases hall with
      | cons _ hrest => exact .cons_right (ih hrest)
  | cons_cons tab _ ih =>
      cases hall with
      | cons hfirst hrest => exact .cons hfirst (ih hrest)

theorem stayOpen_saved (operation : Operation) (h : tabs.Sublist all) :
    List.SublistForall₂ (StaysOpen operation) tabs (all.map Tab.saved) := by
  apply stayOpen_of_forall₂ h
  rw [List.forall₂_map_right_iff]
  exact List.forall₂_same.mpr fun _ _ => .inl rfl

theorem sublist_tabsOpening (s : Session) (file : File) : s.tabs.Sublist (s.tabsOpening file) := by
  unfold Session.tabsOpening
  split
  · exact List.Sublist.refl _
  · exact List.sublist_append_left _ _

theorem sublist_eraseP {p : Tab → Bool} (h : tabs.Sublist all)
    (hout : ∀ tab, all.find? p = some tab → tab ∉ tabs) : tabs.Sublist (all.eraseP p) := by
  induction h with
  | slnil => exact .slnil
  | cons first hsub ih =>
      by_cases hfirst : p first = true
      · rw [List.eraseP_cons_of_pos hfirst]
        exact hsub
      · rw [List.eraseP_cons_of_neg hfirst]
        rw [List.find?_cons_of_neg hfirst] at hout
        exact (ih hout).cons first
  | cons_cons first hsub ih =>
      by_cases hfirst : p first = true
      · exact absurd List.mem_cons_self (hout first (List.find?_cons_of_pos hfirst))
      · rw [List.eraseP_cons_of_neg hfirst]
        rw [List.find?_cons_of_neg hfirst] at hout
        refine (ih ?_).cons_cons first
        intro tab hfound hmem
        exact hout tab hfound (List.mem_cons_of_mem _ hmem)

end

/-!
## Operations without a question
-/

section
variable {e : Editor} {service : StoreService σ} {store : σ} {operation : Operation}
  {change : Session.Operation} {s next : Session}

theorem Drives.retains (h : e.Drives s operation change)
    (heffect : Session.Effect service s store change next) :
    Retains operation s.files next.files := by
  cases h with
  | expect | openFile | activate | close | save | setVersions =>
      cases heffect <;> exact retains_refl _ _
  | edit path content =>
      cases heffect with
      | none => exact retains_refl _ _
      | edit => exact retains_edit path content s.files
  | createFile parent name =>
      cases heffect with
      | none => exact retains_refl _ _
      | createFile hcreate => exact retains_createFile hcreate _
  | createFolder parent name =>
      cases heffect with
      | none => exact retains_refl _ _
      | createFolder hcreate => exact retains_createFile (Bundle.createFolder_eq_ok hcreate).2.2 _
  | moveFile path new =>
      cases heffect with
      | none => exact retains_refl _ _
      | moveFile hmove => exact retains_moveFile hmove
      | moveOpenFile hmove => exact retains_moveFile hmove

theorem Drives.staysOpen (h : e.Drives s operation change)
    (heffect : Session.Effect service s store change next) {tabs : List Tab}
    (hsub : tabs.Sublist s.tabs) (hdirty : ∀ tab ∈ tabs, tab.dirty = true) :
    List.SublistForall₂ (StaysOpen operation) tabs next.tabs := by
  cases h with
  | expect | activate | createFolder | setVersions =>
      cases heffect <;> exact stayOpen_of_sublist _ hsub
  | openFile path =>
      cases heffect with
      | none => exact stayOpen_of_sublist _ hsub
      | openFile => exact stayOpen_of_sublist _ (hsub.trans (sublist_tabsOpening s _))
  | createFile parent name =>
      cases heffect with
      | none => exact stayOpen_of_sublist _ hsub
      | createFile => exact stayOpen_of_sublist _ (hsub.trans (sublist_tabsOpening s _))
  | edit path content =>
      cases heffect with
      | none => exact stayOpen_of_sublist _ hsub
      | edit =>
          apply stayOpen_of_forall₂ hsub
          exact forall₂_replaceTab (f := Tab.edited) (staysOpen_refl _) (fun _ _ => .inl rfl) s.tabs
  | close path =>
      cases heffect with
      | none => exact stayOpen_of_sublist _ hsub
      | close htab hconfirmed =>
          -- Without a confirmation only a clean tab is closed, which is none of these.
          rename_i closed
          apply stayOpen_of_sublist
          apply sublist_eraseP hsub
          intro tab hfound hmem
          have hsame : tab = closed := Option.some.inj (hfound.symm.trans htab)
          rw [hsame] at hmem
          exact Bool.false_ne_true (hconfirmed (hdirty closed hmem))
  | save message hclean =>
      cases heffect with
      | none => exact stayOpen_of_sublist _ hsub
      | save =>
          exact stayOpen_saved _ hsub
  | moveFile path new =>
      cases heffect with
      | none => exact stayOpen_of_sublist _ hsub
      | moveFile => exact stayOpen_of_sublist _ hsub
      | moveOpenFile =>
          apply stayOpen_of_forall₂ hsub
          apply forall₂_replaceTab (staysOpen_refl _)
          intro tab hpath
          right
          rw [hpath]
          rfl

/-!
## Operations that were confirmed
-/

theorem guarded_confirmed {action : PendingAction} (hconfirms : e.Confirms operation action)
    (heffect : Session.Effect service s store action.operation next) :
    Guarded e service store operation s next := by
  cases action with
  | closeTab path =>
      cases heffect with
      | none => exact ⟨.inl (retains_refl _ _), fun _ hsub _ => stayOpen_of_sublist _ hsub⟩
      | close htab _ =>
          refine ⟨.inl (retains_refl _ _), ?_⟩
          intro tabs hsub hkept
          apply stayOpen_of_sublist
          apply sublist_eraseP hsub
          intro tab hfound hmem
          have hpath : tab.path = path := by simpa using List.find?_some hfound
          apply (hkept tab hmem).2.1
          rw [hpath]
          exact hconfirms
  | deleteFile path =>
      cases heffect with
      | none => exact ⟨.inl (retains_refl _ _), fun _ hsub _ => stayOpen_of_sublist _ hsub⟩
      | deleteFile hdelete =>
          refine ⟨.inr (.inl ⟨path, hconfirms, Bundle.deleteFile_eq_ok hdelete⟩), ?_⟩
          intro tabs hsub hkept
          apply stayOpen_of_sublist
          apply sublist_eraseP hsub
          intro tab hfound hmem
          have hpath : tab.path = path := by simpa using List.find?_some hfound
          apply (hkept tab hmem).2.2.1
          rw [hpath]
          exact hconfirms
  | save author message =>
      cases heffect with
      | none => exact ⟨.inl (retains_refl _ _), fun _ hsub _ => stayOpen_of_sublist _ hsub⟩
      | save =>
          exact ⟨.inl (retains_refl _ _), fun _ hsub _ => stayOpen_saved _ hsub⟩
  | restore serial =>
      cases heffect with
      | none => exact ⟨.inl (retains_refl _ _), fun _ hsub _ => stayOpen_of_sublist _ hsub⟩
      | restore hanswer board =>
          rename_i version
          have hfiles : (s.installed version.files board).files = version.files := by
            rcases Session.replaceFiles_eq s version.files with ⟨_, _, _, hreplaced⟩
            unfold Session.installed
            rw [hreplaced]
          refine ⟨.inr (.inr ⟨serial, version, hconfirms, hanswer, hfiles⟩), ?_⟩
          intro tabs _ hkept
          cases tabs with
          | nil => exact .nil
          | cons tab rest => exact absurd hconfirms ((hkept tab List.mem_cons_self).2.2.2 serial)

/-!
## All operations
-/

theorem guarded_perform (h : e.Settled) (hs : e.session = some s)
    (hload : ∀ id serial, operation ≠ .load id serial) (service : StoreService σ) (store : σ) :
    ∃ next, (e.perform service operation store).1.2.session = some next ∧
      Guarded e service store operation s next := by
  have hturn : Turn service e store operation
      (question? (e.perform service operation store).1.1)
      (e.perform service operation store).1.2 := turn_perform h operation
  generalize (e.perform service operation store).1.2 = after at hturn ⊢
  generalize question? (e.perform service operation store).1.1 = asked at hturn
  have hkept : Guarded e service store operation s s :=
    ⟨.inl (retains_refl _ _), fun _ hsub _ => stayOpen_of_sublist _ hsub⟩
  -- Filing a question and declining one keep the session; only a confirmed one may take away.
  cases hturn with
  | kept hsession _ => exact ⟨s, hsession.trans hs, hkept⟩
  | asked _ _ _ _ hsession _ => exact ⟨s, hsession.trans hs, hkept⟩
  | declined _ hsession _ => exact ⟨s, hsession.trans hs, hkept⟩
  | loaded _ => exact absurd rfl (hload _ _)
  | driven hheld hdrives hsession _ =>
      rw [hs, Option.some.injEq] at hheld
      rw [← hheld] at hdrives hsession
      have heffect := Session.effect_perform service s store
      refine ⟨_, hsession, .inl (hdrives.retains (heffect _)), ?_⟩
      intro tabs hsub hdirty
      exact hdrives.staysOpen (heffect _) hsub fun tab hmem => (hdirty tab hmem).1
  | confirmed htake hheld hsession _ =>
      rw [hs, Option.some.injEq] at hheld
      rw [← hheld] at hsession
      rcases ConfirmationQueue.of_take?_eq_some htake with ⟨hmem, hid, _, _⟩
      have hconfirms : e.Confirms (.resolve _ true) _ :=
        ⟨_, hmem, congrArg (Operation.resolve · true) hid.symm, rfl⟩
      exact ⟨_, hsession, guarded_confirmed hconfirms (Session.effect_perform service s store _)⟩

/-- What is sent to the store is the session as it is, without errors or on confirmation. -/
theorem sends_cases (hs : e.session = some s) (operation : Operation) :
    e.sends operation = [] ∨ ∃ author message,
      e.sends operation = [s.saveRequest author message] ∧
        (s.errorCount = 0 ∨ e.Confirms operation (.save author message)) := by
  cases operation with
  | requestSave message =>
      unfold sends
      rw [hs]
      by_cases hclean : s.errorCount = 0
      · exact .inr ⟨e.author, message, if_pos hclean, .inl hclean⟩
      · exact .inl (if_neg hclean)
  | resolve id confirmed =>
      cases confirmed with
      | false => exact .inl rfl
      | true =>
          rw [sends_resolve, hs]
          cases htake : e.confirmations.take? id with
          | none => exact .inl rfl
          | some taken =>
              rcases ConfirmationQueue.of_take?_eq_some htake with ⟨hmem, hid, _, _⟩
              show s.sends taken.1.action.operation = [] ∨ ∃ author message,
                s.sends taken.1.action.operation = _ ∧ _
              cases haction : taken.1.action with
              | closeTab path => exact .inl rfl
              | deleteFile path => exact .inl rfl
              | restore serial => exact .inl rfl
              | save author message =>
                  exact .inr ⟨author, message, rfl, .inr ⟨taken.1, hmem, by rw [hid], haction⟩⟩
  | _ => exact .inl rfl

/-- A store that notes its requests gets those that the operation sends, and answers as before. -/
theorem sent_perform (operation : Operation) (service : StoreService σ) (store : σ) :
    (e.perform service.noting operation (store, [])).1 = (e.perform service operation store).1 ∧
      ((e.perform service.noting operation (store, [])).2.2 = [] ∨
        ∃ s author message, e.session = some s ∧
          (e.perform service.noting operation (store, [])).2.2 =
            [s.saveRequest author message] ∧
          (s.errorCount = 0 ∨ e.Confirms operation (.save author message))) := by
  rw [perform_noting, List.nil_append]
  refine ⟨rfl, ?_⟩
  show e.sends operation = [] ∨ ∃ s author message, _ ∧ e.sends operation = _ ∧ _
  cases hs : e.session with
  | none =>
      left
      cases operation with
      | requestSave message =>
          unfold sends
          rw [hs]
      | resolve id confirmed =>
          cases confirmed with
          | false => rfl
          | true =>
              rw [sends_resolve, hs]
      | _ => rfl
  | some s =>
      rcases sends_cases hs operation with hnone | ⟨author, message, hone, hallowed⟩
      · exact .inl hnone
      · exact .inr ⟨s, author, message, rfl, hone, hallowed⟩

end

/-!
## Runs
-/

/-- What holds after some events of an editor that was new before them. -/
structure Consented (author : String) (events : List Event) : Prop where
  guarded : ∀ {σ : Type} (service : StoreService σ) (store : σ) (operation : Operation)
    (s : Session), (afterAll { author } events).session = some s →
      (∀ id serial, operation ≠ .load id serial) →
      ∃ next, ((afterAll { author } events).perform service operation store).1.2.session =
          some next ∧
        Guarded (afterAll { author } events) service store operation s next
  /-- What the next operation asks a store to save: the session as it is, if at all. -/
  sent : ∀ {σ : Type} (service : StoreService σ) (store : σ) (operation : Operation),
    ((afterAll { author } events).perform service.noting operation (store, [])).1 =
        ((afterAll { author } events).perform service operation store).1 ∧
      (((afterAll { author } events).perform service.noting operation (store, [])).2.2 = [] ∨
        ∃ s name message, (afterAll { author } events).session = some s ∧
          ((afterAll { author } events).perform service.noting operation (store, [])).2.2 =
            [s.saveRequest name message] ∧
          (s.errorCount = 0 ∨
            (afterAll { author } events).Confirms operation (.save name message)))
  /-- Ids are given out in order from one on, whatever was answered or loaded meanwhile. -/
  issued : issued { author } events = List.range' 1 (issued { author } events).length
  /-- A question that was answered or dropped is not pending again, nor known by its id. -/
  spent : ∀ before event behind, events = before ++ event :: behind →
    ∀ id, (afterAll { author } before).Dismisses event id →
      (∀ question ∈ (afterAll { author } events).confirmations.pending, question.id ≠ id) ∧
        ∀ {σ : Type} (service : StoreService σ) (store : σ) (confirmed : Bool),
          ((afterAll { author } events).perform service (.resolve id confirmed) store).1.1 =
              .error (.unknownConfirmation id) ∧
          ((afterAll { author } events).perform service (.resolve id confirmed) store).1.2.session =
            (afterAll { author } events).session

/-- In every run, whatever the stores answer, nothing is lost but on consent. -/
theorem consented_run (author : String) (events : List Event) : Consented author events := by
  have hnew : ∀ past, (afterAll { author } past).Reachable :=
    fun past => (Reachable.new author).afterAll past
  constructor
  · intro σ service store operation s hs hload
    exact guarded_perform (hnew events).settled hs hload service store
  · intro σ service store operation
    exact sent_perform operation service store
  · exact issued_eq_range' (.new author) events
  · intro before event behind hevents id hdismisses
    have hspent : (afterAll { author } events).Spent id := by
      have hfirst := spent_of_dismisses (hnew before).settled hdismisses
      have hlater := hfirst.afterAll ((hnew before).after event) behind
      have hall : afterAll { author } events =
          ((afterAll { author } before).after event).afterAll behind := by
        rw [hevents]
        unfold afterAll
        rw [List.foldl_append, List.foldl_cons]
      rw [hall]
      exact hlater
    refine ⟨hspent.gone, ?_⟩
    intro σ service store confirmed
    rw [hspent.resolve service store confirmed]
    exact ⟨rfl, rfl⟩

end Editor
end StencilDesk
