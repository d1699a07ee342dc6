import Mathlib.Data.List.Induction
import StencilDesk.Proofs.Bundle.Storable
import StencilDesk.Proofs.Bundle.Tree
import StencilDesk.Proofs.Editor.Following

/-!
# The tabs, the tree and the versions that a display shows

A display that reads commands keeps the tabs, the tree and the versions that it was told of last.
Every operation tells of each of these that it changes, after it has changed it, so that a display
which reads all commands of a run shows those of the session.
-/

namespace StencilDesk

/-- What is shown of a session beside its documents, each part as it was told of last. -/
@[ext]
structure Panels where
  /-- The tabs, and which of them is active. -/
  tabs : Option (List Tab × Option String) := none
  tree : Option TreeNode := none
  versions : Option (List Snapshot) := none

namespace Panels

def read (shown : Panels) : Command → Panels
  | .updateTabs tabs active => { shown with tabs := some (tabs, active) }
  | .populateTree tree => { shown with tree := some tree }
  | .showHistory versions => { shown with versions := some versions }
  | _ => shown

def follow (shown : Panels) (commands : List Command) : Panels :=
  commands.foldl read shown

theorem follow_append (shown : Panels) (commands more : List Command) :
    shown.follow (commands ++ more) = (shown.follow commands).follow more :=
  List.foldl_append

end Panels

namespace Session

variable {σ : Type} {s t : Session}

def panels (s : Session) : Panels where
  tabs := some (s.tabs, s.active)
  tree := some s.tree
  versions := some s.versions

/-!
## What commands tell
-/

theorem follow_documentCommands (s : Session) (path : String) (shown : Panels) :
    shown.follow (s.documentCommands path) = shown := by
  unfold documentCommands
  split
  · rfl
  · rfl

theorem follow_openDocumentCommands (s : Session) (shown : Panels) :
    shown.follow s.openDocumentCommands = shown := by
  unfold openDocumentCommands
  induction s.tabs with
  | nil => rfl
  | cons tab rest ih =>
      rw [List.flatMap_cons, Panels.follow_append, Panels.follow_append,
        follow_documentCommands]
      exact ih

theorem read_tabsCommand (htree : t.tree = s.tree) (hversions : t.versions = s.versions) :
    s.panels.read t.tabsCommand = t.panels :=
  Panels.ext rfl (congrArg some htree.symm) (congrArg some hversions.symm)

theorem read_treeCommand (htabs : t.tabs = s.tabs) (hactive : t.active = s.active)
    (hversions : t.versions = s.versions) : s.panels.read t.treeCommand = t.panels :=
  Panels.ext (congrArg some (Prod.ext htabs.symm hactive.symm)) rfl
    (congrArg some hversions.symm)

theorem read_treeCommand_tabsCommand (hversions : t.versions = s.versions) :
    (s.panels.read t.treeCommand).read t.tabsCommand = t.panels :=
  Panels.ext rfl rfl (congrArg some hversions.symm)

theorem read_tabsCommand_historyCommand (htree : t.tree = s.tree) :
    (s.panels.read t.tabsCommand).read t.historyCommand = t.panels :=
  Panels.ext rfl (congrArg some htree.symm) rfl

/-!
## What operations leave as it is
-/

/-- The tree has the files with their kinds, and an edit only changes what is in them. -/
theorem tree_edit {path content : String} (h : s.edit path content = .ok t) :
    t.tree = s.tree := by
  rcases edit_eq_ok h with ⟨_, _, _, _, _, hnext⟩
  rw [hnext]
  exact TreeNode.ofFiles_congr (Bundle.map_replaceFirst s.files fun _ => rfl)

theorem versions_moveFile {path new : String} (h : s.moveFile path new = .ok t) :
    t.versions = s.versions := by
  rcases moveFile_eq_ok h with ⟨_, _, ⟨_, hnext⟩ | ⟨_, _, _, hnext⟩⟩
  · rw [hnext]
  · rw [hnext]

theorem versions_createFile (s : Session) (parent name : String) :
    (s.createFile parent name).2.versions = s.versions := by
  rcases createFile_cases s parent name with hsame | ⟨_, _, _, hnext⟩
  · rw [hsame]
  · rw [hnext]

theorem versions_deleteFile (s : Session) (path : String) :
    (s.deleteFile path).2.versions = s.versions := by
  rcases deleteFile_cases s path with hsame | ⟨_, _, _, hnext⟩
  · rw [hsame]
  · rw [hnext]

theorem versions_install (s : Session) (files : List File) :
    (s.install files).2.versions = s.versions := by
  rcases install_eq s files with ⟨board, hinstalled⟩
  rcases replaceFiles_eq s files with ⟨_, _, _, hreplaced⟩
  rw [hinstalled]
  unfold installed
  rw [hreplaced]

end Session

namespace Editor

variable {σ : Type} {e next : Editor}

def panels (e : Editor) : Panels :=
  match e.session with
  | some s => s.panels
  | none => {}

theorem panels_of_some {s : Session} (hs : e.session = some s) : e.panels = s.panels := by
  unfold panels
  rw [hs]

theorem panels_of_session (hsession : next.session = e.session) : next.panels = e.panels := by
  unfold panels
  rw [hsession]

/-!
## Telling all that changed
-/

/-- Holds if an editor has come about from another one by queueing commands after which the panels
are those of the new session, if they were those of the session before. -/
def Shows (e next : Editor) : Prop :=
  ∃ commands, next.commands = e.commands ++ commands ∧ e.panels.follow commands = next.panels

theorem shows_of_session {commands : List Command} (hsession : next.session = e.session)
    (hqueue : next.commands = e.commands ++ commands)
    (hsilent : ∀ shown : Panels, shown.follow commands = shown) : e.Shows next :=
  ⟨commands, hqueue, (hsilent _).trans (panels_of_session hsession).symm⟩

theorem Shows.of_eq {before : Editor} (h : before.Shows next)
    (hsession : before.session = e.session) (hqueue : before.commands = e.commands) :
    e.Shows next := by
  rcases h with ⟨commands, hnext, hfollow⟩
  rw [hqueue] at hnext
  rw [panels_of_session hsession] at hfollow
  exact ⟨commands, hnext, hfollow⟩

theorem shows_self (e : Editor) : e.Shows e :=
  shows_of_session rfl (List.append_nil _).symm fun _ => rfl

theorem shows_fail {α : Type} (e : Editor) (fault : EditorFault) :
    e.Shows (e.fail (α := α) fault).2 :=
  shows_of_session rfl rfl fun _ => rfl

theorem shows_ask (e : Editor) (title body : String) (action : PendingAction) :
    e.Shows (e.ask title body action).2 :=
  shows_of_session rfl rfl fun _ => rfl

theorem shows_of_change {s t : Session} (hs : e.session = some s) (ht : next.session = some t)
    {commands : List Command} (hqueue : next.commands = e.commands ++ commands)
    (hfollow : s.panels.follow commands = t.panels) : e.Shows next := by
  refine ⟨commands, hqueue, ?_⟩
  rw [panels_of_some hs, panels_of_some ht]
  exact hfollow

theorem shows_proceed {α : Type} {s t : Session} (hs : e.session = some s)
    {commands : List Command} {reply : α} (hfollow : s.panels.follow commands = t.panels) :
    e.Shows (e.proceed t commands reply).2 :=
  shows_of_change hs rfl rfl hfollow

theorem shows_withSession {α : Type} {operation : Session → Outcome α}
    (h : ∀ s, e.session = some s → e.Shows (operation s).2) :
    e.Shows (e.withSession operation).2 := by
  cases hs : e.session with
  | none =>
      rw [withSession_of_none hs]
      exact shows_fail e _
  | some s =>
      rw [withSession_of_some hs]
      exact h s hs

theorem shows_changing {α : Type} {change : Session → Except SessionFault Session}
    {commands : Session → List Command} {reply : α}
    (hfollow : ∀ s t, change s = .ok t → s.panels.follow (commands t) = t.panels) :
    e.Shows (e.withSession fun s => e.proceedWith (change s) commands reply).2 := by
  apply shows_withSession
  intro s hs
  cases hchange : change s with
  | error fault => exact shows_fail e _
  | ok t => exact shows_proceed hs (hfollow s t hchange)

/-!
## Operations on documents
-/

theorem shows_expect (expected : List String) : e.Shows (e.expect expected) := by
  unfold expect
  cases hs : e.session with
  | none => exact shows_of_session hs.symm (List.append_nil _).symm fun _ => rfl
  | some s =>
      apply shows_of_change hs rfl rfl
      rw [Session.follow_openDocumentCommands]
      rcases Session.lintTabs_eq { s with expected } with ⟨board, hlint⟩
      unfold Session.expect
      rw [hlint]
      rfl

theorem shows_openFile (path : String) : e.Shows (e.openFile path).2 := by
  apply shows_changing
  intro s t hopened
  rcases Session.openFile_eq_ok hopened with ⟨file, board, _, hnext⟩
  rw [Panels.follow_append, Session.follow_documentCommands]
  apply Session.read_tabsCommand
  · rw [hnext]
    rfl
  · rw [hnext]

theorem shows_activate (path : String) : e.Shows (e.activate path).2 := by
  apply shows_changing
  intro s t hactivated
  rw [(Session.activate_eq_ok hactivated).2]
  rfl

theorem shows_edit (path content : String) : e.Shows (e.edit path content).2 := by
  apply shows_changing
  intro s t hedited
  apply Session.read_tabsCommand (Session.tree_edit hedited)
  rcases Session.edit_eq_ok hedited with ⟨_, _, _, _, _, hnext⟩
  rw [hnext]

theorem shows_closed {α : Type} {s t : Session} {path : String} {confirmed : Bool}
    {active : Option String} (hs : e.session = some s)
    (hclosed : s.close path confirmed = (.closed active, t)) (reply : α) :
    e.Shows (e.proceed t (closedCommands path t) reply).2 := by
  rcases Session.close_eq_closed hclosed with ⟨_, _, _, hnext⟩
  apply shows_proceed hs
  rw [hnext]
  rfl

theorem shows_requestClose (path : String) : e.Shows (e.requestClose path).2 := by
  apply shows_withSession
  intro s hs
  rcases hclose : s.close path false with ⟨outcome, t⟩
  cases outcome with
  | closed active => exact shows_closed hs hclose _
  | needsConfirmation =>
      rw [Session.close_of_needsConfirmation hclose]
      dsimp only
      rw [holding_self hs]
      exact shows_ask e _ _ _
  | notOpen =>
      rw [Session.close_of_notOpen hclose]
      dsimp only
      rw [holding_self hs]
      exact shows_fail e _

theorem shows_closeTab {s : Session} (hs : e.session = some s) (path : String) :
    e.Shows (e.closeTab path).2 := by
  unfold closeTab
  rw [hs]
  dsimp only
  rcases hclose : s.close path true with ⟨outcome, t⟩
  cases outcome with
  | closed active => exact shows_closed hs hclose _
  | needsConfirmation =>
      rw [Session.close_of_needsConfirmation hclose]
      dsimp only
      rw [holding_self hs]
      exact shows_fail e _
  | notOpen =>
      rw [Session.close_of_notOpen hclose]
      dsimp only
      rw [holding_self hs]
      exact shows_fail e _

theorem shows_requestDelete (path : String) : e.Shows (e.requestDelete path).2 := by
  apply shows_withSession
  intro s _
  split
  · exact shows_fail e _
  · exact shows_ask e _ _ _

theorem shows_requestRestore (serial : Serial) : e.Shows (e.requestRestore serial).2 :=
  shows_withSession fun _ _ => shows_ask e _ _ _

theorem shows_deleteFile {s : Session} (hs : e.session = some s) (path : String) :
    e.Shows (e.deleteFile path).2 := by
  have hversions := s.versions_deleteFile path
  unfold deleteFile
  rw [hs]
  dsimp only
  rcases Session.deleteFile_cases s path with hkept | ⟨files, board, _, hdeleted⟩
  · rw [hkept]
    dsimp only
    rw [holding_self hs]
    exact shows_self e
  · rw [hdeleted] at hversions ⊢
    exact shows_proceed hs (Session.read_treeCommand_tabsCommand hversions)

theorem shows_createFile (parent name : String) : e.Shows (e.createFile parent name).2 := by
  apply shows_withSession
  intro s hs
  have hversions := s.versions_createFile parent name
  rcases hcreate : s.createFile parent name with ⟨answer, t⟩
  rw [hcreate] at hversions
  cases answer with
  | ok path =>
      apply shows_proceed hs
      rw [← List.singleton_append, Panels.follow_append, Panels.follow_append,
        Session.follow_documentCommands]
      exact Session.read_treeCommand_tabsCommand hversions
  | error fault =>
      have hsame : t = s := by
        have hkept := Session.createFile_of_error (congrArg Prod.fst hcreate)
        rw [hcreate] at hkept
        exact hkept
      dsimp only
      rw [hsame, holding_self hs]
      exact shows_fail e _

theorem shows_createFolder (parent name : String) : e.Shows (e.createFolder parent name).2 := by
  apply shows_withSession
  intro s hs
  unfold Session.createFolder
  cases Bundle.createFolder s.files parent name with
  | error fault => exact shows_fail e _
  | ok files => exact shows_proceed hs (Session.read_treeCommand rfl rfl rfl)

theorem shows_moveFile (path new : String) : e.Shows (e.moveFile path new).2 := by
  apply shows_changing
  intro s t hmoved
  exact Session.read_treeCommand_tabsCommand (Session.versions_moveFile hmoved)

/-!
## Operations on versions
-/

variable (service : StoreService σ) (store : σ)

theorem follow_loadedCommands (id : String) (serial : Serial) (s : Session) (shown : Panels) :
    shown.follow (loadedCommands id serial s) = s.panels := rfl

theorem shows_load (id : String) (serial : Option Serial) :
    e.Shows (e.load service id serial store).1.2 := by
  rcases hload : service.load id serial store with ⟨answer, after⟩
  cases answer with
  | error fault =>
      rw [load_of_error hload]
      exact shows_fail e _
  | ok loaded =>
      rw [load_of_ok hload]
      exact ⟨_, rfl, follow_loadedCommands _ _ _ _⟩

theorem shows_save {s : Session} (hs : e.session = some s) (author : String)
    (message : Option String) : e.Shows (e.save service author message store).1.2 := by
  have hcases := Session.save_answer_cases service s author message store
  rcases hsave : s.save service author message store with ⟨⟨answer, t⟩, after⟩
  rw [hsave] at hcases
  rcases hcases with ⟨fault, hfailed⟩ | ⟨answer, versions, _, _, hsaved⟩
  · cases hfailed
    rw [save_of_error hs hsave, holding_self hs]
    exact shows_fail e _
  · cases hsaved
    rw [save_of_ok hs hsave]
    exact shows_proceed hs (Session.read_tabsCommand_historyCommand rfl)

theorem shows_requestSave (message : Option String) :
    e.Shows (e.requestSave service message store).1.2 := by
  cases hs : e.session with
  | none =>
      rw [requestSave_of_none message hs]
      exact shows_fail e _
  | some s =>
      by_cases hclean : s.errorCount = 0
      · rw [requestSave_of_clean message hs hclean]
        exact shows_save service store hs e.author message
      · rw [requestSave_of_errors message hs hclean]
        exact shows_ask e _ _ _

theorem shows_restore {s : Session} (hs : e.session = some s) (serial : Serial) :
    e.Shows (e.restore service serial store).1.2 := by
  rcases hanswer : service.snapshot s.stencilId serial store with ⟨answer, after⟩
  cases answer with
  | error fault =>
      rw [restore_of_error hs (Session.restore_of_error hanswer), holding_self hs]
      exact shows_fail e _
  | ok version =>
      rw [restore_of_ok hs (Session.restore_of_ok hanswer)]
      apply shows_proceed hs
      unfold restoredCommands
      rw [Panels.follow_append, Panels.follow_append, Session.follow_openDocumentCommands]
      exact Session.read_treeCommand_tabsCommand (s.versions_install version.files)

theorem shows_runPending {s : Session} (hs : e.session = some s) (action : PendingAction) :
    e.Shows (e.runPending service action store).1.2 := by
  cases action with
  | closeTab path => exact shows_closeTab hs path
  | deleteFile path => exact shows_deleteFile hs path
  | save author message => exact shows_save service store hs author message
  | restore serial => exact shows_restore service store hs serial

theorem shows_resolve (h : e.Settled) (id : Nat) (confirmed : Bool) :
    e.Shows (e.resolve service id confirmed store).1.2 := by
  cases htake : e.confirmations.take? id with
  | none =>
      rw [resolve_of_unknown confirmed htake]
      exact shows_fail e _
  | some taken =>
      rcases taken with ⟨question, rest⟩
      -- A question is only pending while a stencil is loaded.
      rcases h.loaded (List.ne_nil_of_mem (ConfirmationQueue.of_take?_eq_some htake).1) with
        ⟨s, hs⟩
      cases confirmed with
      | false =>
          rw [resolve_of_declined htake]
          exact shows_of_session rfl (List.append_nil _).symm fun _ => rfl
      | true =>
          rw [resolve_of_confirmed htake]
          have hheld : { e with confirmations := rest }.session = some s := hs
          exact (shows_runPending service store hheld question.action).of_eq rfl rfl

theorem shows_refreshHistory : e.Shows (e.refreshHistory service store).1.2 := by
  cases hs : e.session with
  | none =>
      rw [refreshHistory_of_none hs]
      exact shows_fail e _
  | some s =>
      rcases hlisted : service.history s.stencilId store with ⟨answer, after⟩
      cases answer with
      | error fault =>
          rw [refreshHistory_of_error hs hlisted]
          exact shows_fail e _
      | ok versions =>
          rw [refreshHistory_of_ok hs hlisted]
          exact shows_proceed hs rfl

theorem shows_compareVersions (old new : Serial) :
    e.Shows (e.compareVersions service old new store).1.2 := by
  cases hs : e.session with
  | none =>
      rw [compareVersions_of_none old new hs]
      exact shows_fail e _
  | some s =>
      rcases hcompared : StencilDesk.compareVersions service s.stencilId old new store with
        ⟨answer, after⟩
      cases answer with
      | error fault =>
          rw [compareVersions_of_error hs hcompared]
          exact shows_fail e _
      | ok diff =>
          rw [compareVersions_of_ok hs hcompared]
          exact shows_of_session rfl rfl fun _ => rfl

theorem shows_perform (h : e.Settled) (operation : Operation) :
    e.Shows (e.perform service operation store).1.2 := by
  cases operation with
  | load id serial => exact shows_load service store id serial
  | expect expected => exact shows_expect expected
  | openFile path => exact shows_openFile path
  | activate path => exact shows_activate path
  | edit path content => exact shows_edit path content
  | requestClose path => exact shows_requestClose path
  | requestSave message => exact shows_requestSave service store message
  | requestDelete path => exact shows_requestDelete path
  | requestRestore serial => exact shows_requestRestore serial
  | resolve id confirmed => exact shows_resolve service store h id confirmed
  | createFile parent name => exact shows_createFile parent name
  | createFolder parent name => exact shows_createFolder parent name
  | moveFile path new => exact shows_moveFile path new
  | refreshHistory => exact shows_refreshHistory service store
  | compareVersions old new => exact shows_compareVersions service store old new

/-!
## Runs
-/

/-- Holds of the events that start a session: a load that the store answers with a stencil. -/
inductive Event.Loads : Event → Prop where
  | loaded {σ : Type} {service : StoreService σ} {store : σ} {id : String}
      {serial : Option Serial} {stencil : LoadedStencil}
      (hanswer : (service.load id serial store).1 = .ok stencil) :
      Loads (.performed service store (.load id serial))

theorem Turn.exists_session_iff {service : StoreService σ} {store : σ} {operation : Operation}
    {question : Option Confirmation} (h : Turn service e store operation question next)
    (hload : ∀ id serial, operation ≠ .load id serial) :
    (∃ s, next.session = some s) ↔ ∃ s, e.session = some s := by
  cases h with
  | kept hsession _ => rw [hsession]
  | driven hs _ hsession _ => exact iff_of_true ⟨_, hsession⟩ ⟨_, hs⟩
  | asked _ _ _ _ hsession _ => rw [hsession]
  | declined _ hsession _ => rw [hsession]
  | confirmed _ hs hsession _ => exact iff_of_true ⟨_, hsession⟩ ⟨_, hs⟩
  | loaded _ => exact absurd rfl (hload _ _)

theorem exists_session_load (service : StoreService σ) (store : σ) (id : String)
    (serial : Option Serial) :
    (∃ s, (e.load service id serial store).1.2.session = some s) ↔
      (∃ s, e.session = some s) ∨ Event.Loads (.performed service store (.load id serial)) := by
  rcases hload : service.load id serial store with ⟨answer, after⟩
  cases answer with
  | error fault =>
      have hnone : ¬ Event.Loads (.performed service store (.load id serial)) := by
        rintro ⟨hanswer⟩
        rw [hload] at hanswer
        cases hanswer
      rw [load_of_error hload, or_iff_left hnone]
      rfl
  | ok loaded =>
      rw [load_of_ok hload]
      exact iff_of_true ⟨_, rfl⟩ (.inr ⟨congrArg Prod.fst hload⟩)

theorem exists_session_after (h : e.Settled) (event : Event) :
    (∃ s, (e.after event).session = some s) ↔ (∃ s, e.session = some s) ∨ event.Loads := by
  cases event with
  | performed service store operation =>
      by_cases hload : ∃ id serial, operation = .load id serial
      · rcases hload with ⟨id, serial, hoperation⟩
        rw [hoperation]
        exact exists_session_load service store id serial
      · have hnone : ¬ Event.Loads (.performed service store operation) := by
          rintro ⟨_⟩
          exact hload ⟨_, _, rfl⟩
        rw [or_iff_left hnone]
        exact (turn_perform h operation).exists_session_iff fun id serial hoperation =>
          hload ⟨id, serial, hoperation⟩
  | dequeued => exact (or_iff_left (by rintro ⟨⟩)).symm
  | drained => exact (or_iff_left (by rintro ⟨⟩)).symm

/-- Nothing is lost between the display and the queue, and what an event queues shows what it
changes. -/
theorem shows_after (h : e.Settled) (event : Event) :
    ∃ commands, e.taken event ++ (e.after event).commands = e.commands ++ commands ∧
      e.panels.follow commands = (e.after event).panels := by
  cases event with
  | performed service store operation => exact shows_perform service store h operation
  | dequeued => exact ⟨[], (taken_dequeued e).trans (List.append_nil _).symm, rfl⟩
  | drained => exact ⟨[], rfl, rfl⟩

theorem exists_session_run (author : String) (events : List Event) :
    (∃ s, (afterAll { author } events).session = some s) ↔ ∃ event ∈ events, event.Loads := by
  induction events using List.reverseRecOn with
  | nil => simp [afterAll]
  | append_singleton events event ih =>
      rw [afterAll_append]
      refine (exists_session_after ((Reachable.new author).afterAll events).settled event).trans ?_
      rw [ih]
      simp [or_and_right, exists_or]

theorem follow_announced (author : String) (events : List Event) :
    Panels.follow {} (announced { author } events) = (afterAll { author } events).panels := by
  induction events using List.reverseRecOn with
  | nil => rfl
  | append_singleton events event ih =>
      rcases shows_after ((Reachable.new author).afterAll events).settled event with
        ⟨commands, hqueue, hfollow⟩
      rw [announced_concat hqueue, Panels.follow_append, ih, hfollow, afterAll_append]
      rfl

/-- After any events, a display that has read all commands shows the tabs with the active one, the
tree and the versions of the session. There is a session if and only if a stencil has been loaded;
until then nothing is shown. -/
theorem panels_run (author : String) (events : List Event) :
    Panels.follow {} (announced { author } events) = (afterAll { author } events).panels ∧
      ((∃ s, (afterAll { author } events).session = some s) ↔ ∃ event ∈ events, event.Loads) :=
  ⟨follow_announced author events, exists_session_run author events⟩

end Editor
end StencilDesk
