import Mathlib.Data.List.Induction
import StencilDesk.Proofs.Editor.Questions
import StencilDesk.Proofs.Findings
import StencilDesk.Proofs.Session.Findings

/-!
# What a display is told of findings

A display that reads commands keeps the findings that it was last told for each path, and the counts
that came with them. All operations but loads and restores tell of every path at which they change
the findings, and tell what is there afterwards.
-/

namespace StencilDesk

/-- What is shown of the findings: those of each path, and how many there are. -/
@[ext]
structure Display where
  findings : String → List Finding := fun _ => []
  counts : FindingCounts := {}

namespace Display

variable {d : Display} {commands : List Command} {paths : List String}

/-- The display after a command. One that tells of findings replaces those at its path. -/
def read (shown : Display) : Command → Display
  | .updateFindings path findings counts =>
      { findings := fun other => if other = path then findings else shown.findings other
        counts }
  | _ => shown

def follow (shown : Display) (commands : List Command) : Display :=
  commands.foldl read shown

/-- Holds of commands that tell, for some paths and for no others, what is on a display. -/
inductive Reports (d : Display) : List Command → List String → Prop where
  | nil : Reports d [] []
  | told {commands : List Command} {paths : List String} (path : String)
      (h : Reports d commands paths) :
      Reports d (.updateFindings path (d.findings path) d.counts :: commands) (path :: paths)
  | other {command : Command} {commands : List Command} {paths : List String}
      (hother : ∀ shown : Display, shown.read command = shown) (h : Reports d commands paths) :
      Reports d (command :: commands) paths

theorem Reports.append (h : d.Reports commands paths) {more : List Command}
    {others : List String} (hmore : d.Reports more others) :
    d.Reports (commands ++ more) (paths ++ others) := by
  induction h with
  | nil => exact hmore
  | told path _ ih => exact ih.told path
  | other hother _ ih => exact ih.other hother

theorem findings_follow (h : d.Reports commands paths) (shown : Display) (path : String) :
    (shown.follow commands).findings path =
      if path ∈ paths then d.findings path else shown.findings path := by
  induction h generalizing shown with
  | nil => rfl
  | @told commands rest first _ ih =>
      show (Display.follow (shown.read _) commands).findings path = _
      rw [ih]
      by_cases hrest : path ∈ rest
      · rw [if_pos hrest, if_pos (List.mem_cons_of_mem _ hrest)]
      · rw [if_neg hrest]
        by_cases hfirst : path = first
        · simp [read, hfirst]
        · simp [read, hfirst, hrest]
  | @other _ commands _ hother _ ih =>
      show (Display.follow (shown.read _) commands).findings path = _
      rw [hother, ih]

theorem counts_follow (h : d.Reports commands paths) (shown : Display) :
    (shown.follow commands).counts = if paths = [] then shown.counts else d.counts := by
  induction h generalizing shown with
  | nil => rfl
  | @told commands rest first _ ih =>
      show (Display.follow (shown.read _) commands).counts = _
      rw [ih, if_neg (List.cons_ne_nil first rest)]
      split
      · rfl
      · rfl
  | @other _ commands _ hother _ ih =>
      show (Display.follow (shown.read _) commands).counts = _
      rw [hother, ih]

theorem follow_append (shown : Display) (commands more : List Command) :
    shown.follow (commands ++ more) = (shown.follow commands).follow more :=
  List.foldl_append

end Display

/-!
## What there is to show
-/

namespace Session

def display (s : Session) : Display where
  findings := s.findings
  counts := s.counts

theorem reports_findingsCommand (s : Session) (path : String) {commands : List Command}
    {paths : List String} (h : s.display.Reports commands paths) :
    s.display.Reports (s.findingsCommand path :: commands) (path :: paths) :=
  h.told path

theorem reports_documentCommands (s : Session) (path : String) :
    s.display.Reports (s.documentCommands path) [] := by
  unfold documentCommands
  split
  · exact .other (fun _ => rfl) .nil
  · exact .nil

theorem reports_openDocumentCommands (s : Session) :
    s.display.Reports s.openDocumentCommands s.openPaths := by
  unfold openDocumentCommands openPaths
  induction s.tabs with
  | nil => exact .nil
  | cons tab rest ih =>
      rw [List.flatMap_cons, List.append_assoc]
      exact (s.reports_documentCommands tab.path).append (s.reports_findingsCommand tab.path ih)

end Session

namespace Editor

variable {σ : Type} {e next : Editor}

def display (e : Editor) : Display :=
  match e.session with
  | some s => s.display
  | none => {}

theorem display_of_some {s : Session} (hs : e.session = some s) : e.display = s.display := by
  unfold display
  rw [hs]

theorem display_of_none (hs : e.session = none) : e.display = {} := by
  unfold display
  rw [hs]

theorem display_of_session (hsession : next.session = e.session) : next.display = e.display := by
  unfold display
  rw [hsession]

theorem exists_board (e : Editor) :
    ∃ board : FindingBoard, e.display = { findings := board.findings, counts := board.counts } := by
  cases hs : e.session with
  | some s => exact ⟨s.board, display_of_some hs⟩
  | none => exact ⟨FindingBoard.empty, display_of_none hs⟩

theorem display_congr (h : ∀ path, next.display.findings path = e.display.findings path) :
    next.display = e.display := by
  rcases e.exists_board with ⟨board, hboard⟩
  rcases next.exists_board with ⟨after, hafter⟩
  rw [hboard, hafter] at h ⊢
  exact Display.ext (funext h) (FindingBoard.counts_congr h)

/-!
## Telling all that changed
-/

/-- Holds if an editor has come about from another one by queueing commands that tell of all the
findings that changed, as they are then. -/
def Relays (e next : Editor) : Prop :=
  ∃ commands paths, next.commands = e.commands ++ commands ∧
    next.display.Reports commands paths ∧
    ∀ path, path ∉ paths → next.display.findings path = e.display.findings path

theorem relays_of_session {commands : List Command} (hsession : next.session = e.session)
    (hqueue : next.commands = e.commands ++ commands)
    (hreports : next.display.Reports commands []) : e.Relays next :=
  ⟨commands, [], hqueue, hreports, fun path _ => by rw [display_of_session hsession]⟩

theorem relays_self (e : Editor) : e.Relays e :=
  relays_of_session rfl (List.append_nil _).symm .nil

theorem relays_fail {α : Type} (e : Editor) (fault : EditorFault) :
    e.Relays (e.fail (α := α) fault).2 :=
  relays_of_session rfl rfl (.other (fun _ => rfl) .nil)

theorem relays_ask (e : Editor) (title body : String) (action : PendingAction) :
    e.Relays (e.ask title body action).2 :=
  relays_of_session rfl rfl (.other (fun _ => rfl) .nil)

/-- What is told of another session holds there, and everywhere else it is as the one before. -/
theorem relays_of_change {s t : Session} (hs : e.session = some s) (ht : next.session = some t)
    {commands : List Command} {paths : List String}
    (hqueue : next.commands = e.commands ++ commands)
    (hreports : t.display.Reports commands paths)
    (hkept : ∀ path, path ∉ paths → t.findings path = s.findings path) : e.Relays next := by
  refine ⟨commands, paths, hqueue, ?_, ?_⟩
  · rw [display_of_some ht]
    exact hreports
  · intro path hmem
    rw [display_of_some ht, display_of_some hs]
    exact hkept path hmem

theorem relays_proceed {α : Type} {s t : Session} (hs : e.session = some s)
    {commands : List Command} (paths : List String) {reply : α}
    (hreports : t.display.Reports commands paths)
    (hkept : ∀ path, path ∉ paths → t.findings path = s.findings path) :
    e.Relays (e.proceed t commands reply).2 :=
  relays_of_change hs rfl rfl hreports hkept

theorem relays_withSession {α : Type} {operation : Session → Outcome α}
    (h : ∀ s, e.session = some s → e.Relays (operation s).2) :
    e.Relays (e.withSession operation).2 := by
  cases hs : e.session with
  | none =>
      rw [withSession_of_none hs]
      exact relays_fail e _
  | some s =>
      rw [withSession_of_some hs]
      exact h s hs

theorem relays_changing {α : Type} {change : Session → Except SessionFault Session}
    {commands : Session → List Command} {reply : α} (paths : Session → List String)
    (hreports : ∀ t : Session, t.display.Reports (commands t) (paths t))
    (hkept : ∀ s t path, change s = .ok t → path ∉ paths t →
      t.findings path = s.findings path) :
    e.Relays (e.withSession fun s => e.proceedWith (change s) commands reply).2 := by
  apply relays_withSession
  intro s hs
  cases hchange : change s with
  | error fault => exact relays_fail e _
  | ok t =>
      apply relays_proceed hs (paths t) (hreports t)
      intro path hmem
      exact hkept s t path hchange hmem

/-!
## Operations on documents
-/

theorem relays_expect (expected : List String) : e.Relays (e.expect expected) := by
  unfold expect
  cases hs : e.session with
  | none => exact relays_of_session hs.symm (List.append_nil _).symm .nil
  | some s =>
      apply relays_of_change hs rfl rfl (s.expect expected).reports_openDocumentCommands
      intro path hmem
      exact Session.findings_expect expected hmem

theorem relays_openFile (path : String) : e.Relays (e.openFile path).2 := by
  apply relays_changing (fun _ => [path])
  · intro t
    exact (t.reports_documentCommands path).append
      (t.reports_findingsCommand path (.other (fun _ => rfl) .nil))
  · intro s t other hopened hmem
    exact Session.findings_openFile hopened (by simpa using hmem)

theorem relays_activate (path : String) : e.Relays (e.activate path).2 := by
  apply relays_changing (fun _ => [])
  · intro t
    exact .other (fun _ => rfl) .nil
  · intro s t other hactivated _
    exact Session.findings_activate hactivated

theorem relays_edit (path content : String) : e.Relays (e.edit path content).2 := by
  apply relays_changing (fun _ => [path])
  · intro t
    exact t.reports_findingsCommand path (.other (fun _ => rfl) .nil)
  · intro s t other hedited hmem
    exact Session.findings_edit hedited (by simpa using hmem)

theorem reports_closedCommands (path : String) (s : Session) :
    s.display.Reports (closedCommands path s) [path] :=
  s.reports_findingsCommand path (.other (fun _ => rfl) .nil)

theorem relays_closed {α : Type} {s t : Session} {path : String} {confirmed : Bool}
    {active : Option String} (hs : e.session = some s)
    (hclosed : s.close path confirmed = (.closed active, t)) (reply : α) :
    e.Relays (e.proceed t (closedCommands path t) reply).2 := by
  apply relays_proceed hs [path] (reports_closedCommands path t)
  intro other hmem
  exact Session.findings_close hclosed (List.ne_of_not_mem_cons hmem)

theorem relays_requestClose (path : String) : e.Relays (e.requestClose path).2 := by
  apply relays_withSession
  intro s hs
  rcases hclose : s.close path false with ⟨outcome, t⟩
  cases outcome with
  | closed active => exact relays_closed hs hclose _
  | needsConfirmation =>
      rw [Session.close_of_needsConfirmation hclose]
      dsimp only
      rw [holding_self hs]
      exact relays_ask e _ _ _
  | notOpen =>
      rw [Session.close_of_notOpen hclose]
      dsimp only
      rw [holding_self hs]
      exact relays_fail e _

theorem relays_closeTab {s : Session} (hs : e.session = some s) (path : String) :
    e.Relays (e.closeTab path).2 := by
  unfold closeTab
  rw [hs]
  dsimp only
  rcases hclose : s.close path true with ⟨outcome, t⟩
  cases outcome with
  | closed active => exact relays_closed hs hclose _
  | needsConfirmation =>
      rw [Session.close_of_needsConfirmation hclose]
      dsimp only
      rw [holding_self hs]
      exact relays_fail e _
  | notOpen =>
      rw [Session.close_of_notOpen hclose]
      dsimp only
      rw [holding_self hs]
      exact relays_fail e _

theorem relays_requestDelete (path : String) : e.Relays (e.requestDelete path).2 := by
  apply relays_withSession
  intro s _
  split
  · exact relays_fail e _
  · exact relays_ask e _ _ _

theorem relays_requestRestore (serial : Serial) : e.Relays (e.requestRestore serial).2 :=
  relays_withSession fun _ _ => relays_ask e _ _ _

theorem relays_deleteFile {s : Session} (hs : e.session = some s) (path : String) :
    e.Relays (e.deleteFile path).2 := by
  unfold deleteFile
  rw [hs]
  dsimp only
  rcases hdelete : s.deleteFile path with ⟨found, t⟩
  cases found with
  | true =>
      apply relays_proceed hs [path]
      · exact .other (fun _ => rfl) (t.reports_findingsCommand path
          (.other (fun _ => rfl) (.other (fun _ => rfl) .nil)))
      · intro other hmem
        exact Session.findings_deleteFile hdelete (List.ne_of_not_mem_cons hmem)
  | false =>
      have hsame : t = s := by
        rcases Session.deleteFile_cases s path with hsame | ⟨_, _, _, hdeleted⟩
        · rw [hdelete] at hsame
          exact congrArg Prod.snd hsame
        · rw [hdelete] at hdeleted
          cases hdeleted
      dsimp only
      rw [hsame, holding_self hs]
      exact relays_self e

theorem relays_createFile (parent name : String) : e.Relays (e.createFile parent name).2 := by
  apply relays_withSession
  intro s hs
  rcases hcreate : s.createFile parent name with ⟨answer, t⟩
  cases answer with
  | ok path =>
      have hpath : path = Path.join parent name := Session.path_of_createFile hcreate
      apply relays_proceed hs [path]
      · exact .other (fun _ => rfl) ((t.reports_documentCommands path).append
          (t.reports_findingsCommand path (.other (fun _ => rfl) .nil)))
      · intro other hmem
        exact Session.findings_createFile hcreate (hpath ▸ List.ne_of_not_mem_cons hmem)
  | error fault =>
      have hsame : t = s := by
        have hkept := Session.createFile_of_error (congrArg Prod.fst hcreate)
        rw [hcreate] at hkept
        exact hkept
      dsimp only
      rw [hsame, holding_self hs]
      exact relays_fail e _

theorem relays_createFolder (parent name : String) : e.Relays (e.createFolder parent name).2 := by
  apply relays_withSession
  intro s hs
  cases hcreate : s.createFolder parent name with
  | error fault => exact relays_fail e _
  | ok created =>
      apply relays_proceed hs []
      · exact .other (fun _ => rfl) .nil
      · intro path _
        exact Session.findings_createFolder hcreate

theorem relays_moveFile (path new : String) : e.Relays (e.moveFile path new).2 := by
  apply relays_changing (fun _ => [path, new])
  · intro t
    exact .other (fun _ => rfl) (t.reports_findingsCommand path
      (t.reports_findingsCommand new (.other (fun _ => rfl) .nil)))
  · intro s t other hmoved hmem
    rw [List.mem_cons, List.mem_singleton, not_or] at hmem
    exact Session.findings_moveFile hmoved hmem.1 hmem.2

/-!
## Operations on versions
-/

variable (service : StoreService σ) (store : σ)

theorem relays_save {s : Session} (hs : e.session = some s) (author : String)
    (message : Option String) : e.Relays (e.save service author message store).1.2 := by
  have hkept := s.findings_save service author message store
  rcases hsave : s.save service author message store with ⟨⟨answer, t⟩, after⟩
  rw [hsave] at hkept
  cases answer with
  | error fault =>
      rw [save_of_error hs hsave, Session.save_of_fault hsave, holding_self hs]
      exact relays_fail e _
  | ok answer =>
      rw [save_of_ok hs hsave]
      apply relays_proceed hs [] _ (fun path _ => hkept path)
      exact .other (fun _ => rfl) (.other (fun _ => rfl) (.other (fun _ => rfl) .nil))

theorem relays_requestSave (message : Option String) :
    e.Relays (e.requestSave service message store).1.2 := by
  cases hs : e.session with
  | none =>
      rw [requestSave_of_none message hs]
      exact relays_fail e _
  | some s =>
      by_cases hclean : s.errorCount = 0
      · rw [requestSave_of_clean message hs hclean]
        exact relays_save service store hs e.author message
      · rw [requestSave_of_errors message hs hclean]
        exact relays_ask e _ _ _

theorem relays_refreshHistory : e.Relays (e.refreshHistory service store).1.2 := by
  cases hs : e.session with
  | none =>
      rw [refreshHistory_of_none hs]
      exact relays_fail e _
  | some s =>
      rcases hlisted : service.history s.stencilId store with ⟨answer, after⟩
      cases answer with
      | error fault =>
          rw [refreshHistory_of_error hs hlisted]
          exact relays_fail e _
      | ok versions =>
          rw [refreshHistory_of_ok hs hlisted]
          apply relays_proceed hs []
          · exact .other (fun _ => rfl) .nil
          · intro path _
            rfl

theorem relays_compareVersions (old new : Serial) :
    e.Relays (e.compareVersions service old new store).1.2 := by
  cases hs : e.session with
  | none =>
      rw [compareVersions_of_none old new hs]
      exact relays_fail e _
  | some s =>
      rcases hcompared : StencilDesk.compareVersions service s.stencilId old new store with
        ⟨answer, after⟩
      cases answer with
      | error fault =>
          rw [compareVersions_of_error hs hcompared]
          exact relays_fail e _
      | ok diff =>
          rw [compareVersions_of_ok hs hcompared]
          exact relays_of_session rfl rfl (.other (fun _ => rfl) .nil)

end Editor
end StencilDesk
