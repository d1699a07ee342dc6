import Mathlib.Data.List.Induction
import StencilDesk.Proofs.Editor.Display

/-!
# The findings that a display shows

A display that reads all commands of a run shows the findings of the session, as long as no event
takes findings away in silence: a load while the session before has findings, or a restore that
closes a tab with some.
-/

namespace StencilDesk
namespace Editor

variable {σ : Type} {e next : Editor}

/-!
## Events that forget findings
-/

/-- Holds if an event takes away the findings at a path and does not tell so. -/
inductive Forgets (e : Editor) : Event → String → Prop where
  /-- Another session starts with no tabs, and the findings of the one before are gone. -/
  | loaded {σ : Type} {service : StoreService σ} {store : σ} {id : String}
      {serial : Option Serial} {loaded : LoadedStencil} {s : Session} {path : String}
      (hanswer : (service.load id serial store).1 = .ok loaded) (hs : e.session = some s)
      (hfound : s.findings path ≠ []) :
      Forgets e (.performed service store (.load id serial)) path
  /-- A tab is closed since its file is not in the version that is restored. -/
  | restored {σ : Type} {service : StoreService σ} {store : σ} {id : Nat}
      {question : Confirmation} {rest : ConfirmationQueue} {serial : Serial} {s : Session}
      {version : Snapshot} {path : String}
      (htake : e.confirmations.take? id = some (question, rest))
      (haction : question.action = .restore serial) (hs : e.session = some s)
      (hanswer : (service.snapshot s.stencilId serial store).1 = .ok version)
      (hgone : path ∈ s.gonePaths version.files) (hfound : s.findings path ≠ []) :
      Forgets e (.performed service store (.resolve id true)) path

def Remembers (e : Editor) : List Event → Prop
  | [] => True
  | event :: rest => (∀ path, ¬ e.Forgets event path) ∧ (e.after event).Remembers rest

/-- What commands tell of the findings: what is there after them for some paths. At all other paths
nothing changes, or the findings are forgotten. -/
structure Told (e next : Editor) (forgotten : String → Prop) (commands : List Command)
    (paths : List String) : Prop where
  reports : next.display.Reports commands paths
  kept : ∀ path, path ∉ paths → ¬ forgotten path →
    next.display.findings path = e.display.findings path
  gone : ∀ path, forgotten path →
    path ∉ paths ∧ e.display.findings path ≠ [] ∧ next.display.findings path = []

def Tells (e next : Editor) (forgotten : String → Prop) : Prop :=
  ∃ commands paths, next.commands = e.commands ++ commands ∧ Told e next forgotten commands paths

section
variable {forgotten : String → Prop}

theorem Relays.tells (h : e.Relays next) (hnone : ∀ path, ¬ forgotten path) :
    e.Tells next forgotten := by
  rcases h with ⟨commands, paths, hqueue, hreports, hkept⟩
  exact ⟨commands, paths, hqueue, hreports, fun path hmem _ => hkept path hmem,
    fun path hpath => absurd hpath (hnone path)⟩

theorem Tells.of_eq {before : Editor} (h : before.Tells next forgotten)
    (hsession : before.session = e.session) (hqueue : before.commands = e.commands) :
    e.Tells next forgotten := by
  rcases h with ⟨commands, paths, hnext, hreports, hkept, hgone⟩
  rw [hqueue] at hnext
  rw [display_of_session hsession] at hkept hgone
  exact ⟨commands, paths, hnext, hreports, hkept, hgone⟩

/-!
## Operations
-/

variable (service : StoreService σ) (store : σ)

theorem findings_sessionOn (e : Editor) (loaded : LoadedStencil) (path : String) :
    (e.sessionOn loaded).findings path = [] := by
  unfold sessionOn
  dsimp only
  split
  · rfl
  · rfl

theorem tells_load (id : String) (serial : Option Serial) :
    e.Tells (e.load service id serial store).1.2
      (e.Forgets (.performed service store (.load id serial))) := by
  rcases hload : service.load id serial store with ⟨answer, after⟩
  cases answer with
  | error fault =>
      rw [load_of_error hload]
      apply (relays_fail e _).tells
      intro path hforgets
      cases hforgets with
      | loaded hanswer _ _ =>
          rw [hload] at hanswer
          cases hanswer
  | ok loaded =>
      rw [load_of_ok hload]
      refine ⟨_, [], rfl, ?_, ?_, ?_⟩
      · exact .other (fun _ => rfl) (.other (fun _ => rfl) (.other (fun _ => rfl)
          (.other (fun _ => rfl) .nil)))
      · intro path _ hkept
        refine (findings_sessionOn e loaded path).trans ?_
        cases hs : e.session with
        | none => rw [display_of_none hs]
        | some s =>
            rw [display_of_some hs]
            apply Classical.byContradiction
            intro hfound
            exact hkept (.loaded (congrArg Prod.fst hload) hs (Ne.symm hfound))
      · intro path hforgets
        cases hforgets with
        | loaded _ hs hfound =>
            rw [display_of_some hs]
            exact ⟨List.not_mem_nil, hfound, findings_sessionOn e loaded path⟩

/-- A restore tells of every file that is open after it, and not of the tabs that it closes. -/
theorem tells_restore {s : Session} (hs : e.session = some s) (serial : Serial)
    (hforgotten : ∀ path, forgotten path ↔ ∃ version,
      (service.snapshot s.stencilId serial store).1 = .ok version ∧
        path ∈ s.gonePaths version.files ∧ s.findings path ≠ []) :
    e.Tells (e.restore service serial store).1.2 forgotten := by
  rcases hanswer : service.snapshot s.stencilId serial store with ⟨answer, after⟩
  rw [hanswer] at hforgotten
  cases answer with
  | error fault =>
      rw [restore_of_error hs (Session.restore_of_error hanswer), holding_self hs]
      apply (relays_fail e _).tells
      intro path hpath
      rcases (hforgotten path).mp hpath with ⟨version, hversion, _⟩
      cases hversion
  | ok version =>
      rw [restore_of_ok hs (Session.restore_of_ok hanswer)]
      refine ⟨_, (s.install version.files).2.openPaths, rfl, ?_, ?_, ?_⟩
      · have hopen := (s.install version.files).2.reports_openDocumentCommands
        apply Display.Reports.other (fun _ => rfl)
        apply Display.Reports.other (fun _ => rfl)
        rw [← List.append_nil (s.install version.files).2.openPaths]
        exact hopen.append (.other (fun _ => rfl) .nil)
      · intro path hmem hkept
        refine (Session.findings_install s version.files hmem).trans ?_
        rw [display_of_some hs]
        split
        · rename_i hgone
          apply Classical.byContradiction
          intro hfound
          exact hkept ((hforgotten path).mpr ⟨version, rfl, hgone, Ne.symm hfound⟩)
        · rfl
      · intro path hpath
        rcases (hforgotten path).mp hpath with ⟨_, hversion, hgone, hfound⟩
        cases hversion
        rcases Session.closed_of_gone hgone with ⟨hclosed, hnone⟩
        rw [display_of_some hs]
        exact ⟨hclosed, hfound, hnone⟩

theorem forgets_resolve_iff {id : Nat} {question : Confirmation} {rest : ConfirmationQueue}
    {s : Session} (htake : e.confirmations.take? id = some (question, rest))
    (hs : e.session = some s) (path : String) :
    e.Forgets (.performed service store (.resolve id true)) path ↔
      ∃ serial, question.action = .restore serial ∧ ∃ version,
        (service.snapshot s.stencilId serial store).1 = .ok version ∧
          path ∈ s.gonePaths version.files ∧ s.findings path ≠ [] := by
  constructor
  · intro hforgets
    cases hforgets with
    | restored htaken haction hheld hanswer hgone hfound =>
        rw [htake] at htaken
        rw [hs] at hheld
        cases htaken
        cases hheld
        exact ⟨_, haction, _, hanswer, hgone, hfound⟩
  · rintro ⟨serial, haction, version, hanswer, hgone, hfound⟩
    exact .restored htake haction hs hanswer hgone hfound

theorem tells_runPending {s : Session} (hs : e.session = some s) (action : PendingAction)
    (hforgotten : ∀ path, forgotten path ↔ ∃ serial, action = .restore serial ∧ ∃ version,
      (service.snapshot s.stencilId serial store).1 = .ok version ∧
        path ∈ s.gonePaths version.files ∧ s.findings path ≠ []) :
    e.Tells (e.runPending service action store).1.2 forgotten := by
  have hnone : (∀ serial, action ≠ .restore serial) → ∀ path, ¬ forgotten path := by
    intro hother path hpath
    rcases (hforgotten path).mp hpath with ⟨serial, haction, _⟩
    exact hother serial haction
  cases action with
  | closeTab path => exact (relays_closeTab hs path).tells (hnone (by simp))
  | deleteFile path => exact (relays_deleteFile hs path).tells (hnone (by simp))
  | save author message =>
      exact (relays_save service store hs author message).tells (hnone (by simp))
  | restore serial =>
      apply tells_restore service store hs serial
      intro path
      rw [hforgotten path]
      simp

theorem tells_resolve (h : e.Settled) (id : Nat) (confirmed : Bool) :
    e.Tells (e.resolve service id confirmed store).1.2
      (e.Forgets (.performed service store (.resolve id confirmed))) := by
  cases htake : e.confirmations.take? id with
  | none =>
      rw [resolve_of_unknown confirmed htake]
      apply (relays_fail e _).tells
      intro path hforgets
      cases hforgets with
      | restored htaken _ _ _ _ _ =>
          rw [htake] at htaken
          cases htaken
  | some taken =>
      rcases taken with ⟨question, rest⟩
      rcases h.loaded (List.ne_nil_of_mem (ConfirmationQueue.of_take?_eq_some htake).1) with
        ⟨s, hs⟩
      cases confirmed with
      | false =>
          rw [resolve_of_declined htake]
          have hrelays : e.Relays { e with confirmations := rest } :=
            relays_of_session rfl (List.append_nil _).symm .nil
          exact hrelays.tells (by rintro _ ⟨⟩)
      | true =>
          rw [resolve_of_confirmed htake]
          have hheld : { e with confirmations := rest }.session = some s := hs
          have htells := tells_runPending service store hheld question.action
            (forgets_resolve_iff service store htake hs)
          exact htells.of_eq rfl rfl

theorem tells_perform (h : e.Settled) (operation : Operation) :
    e.Tells (e.perform service operation store).1.2
      (e.Forgets (.performed service store operation)) := by
  cases operation with
  | load id serial => exact tells_load service store id serial
  | resolve id confirmed => exact tells_resolve service store h id confirmed
  | expect expected => exact (relays_expect expected).tells (by rintro _ ⟨⟩)
  | openFile path => exact (relays_openFile path).tells (by rintro _ ⟨⟩)
  | activate path => exact (relays_activate path).tells (by rintro _ ⟨⟩)
  | edit path content => exact (relays_edit path content).tells (by rintro _ ⟨⟩)
  | requestClose path => exact (relays_requestClose path).tells (by rintro _ ⟨⟩)
  | requestSave message => exact (relays_requestSave service store message).tells (by rintro _ ⟨⟩)
  | requestDelete path => exact (relays_requestDelete path).tells (by rintro _ ⟨⟩)
  | requestRestore serial => exact (relays_requestRestore serial).tells (by rintro _ ⟨⟩)
  | createFile parent name => exact (relays_createFile parent name).tells (by rintro _ ⟨⟩)
  | createFolder parent name => exact (relays_createFolder parent name).tells (by rintro _ ⟨⟩)
  | moveFile path new => exact (relays_moveFile path new).tells (by rintro _ ⟨⟩)
  | refreshHistory => exact (relays_refreshHistory service store).tells (by rintro _ ⟨⟩)
  | compareVersions old new =>
      exact (relays_compareVersions service store old new).tells (by rintro _ ⟨⟩)

end

/-!
## Runs
-/

def taken (e : Editor) : Event → List Command
  | .performed _ _ _ => []
  | .dequeued => e.dequeue.1.toList
  | .drained => e.drain.1

def takenAll (e : Editor) : List Event → List Command
  | [] => []
  | event :: rest => e.taken event ++ (e.after event).takenAll rest

/-- All commands that were queued in the course of some events: those that were taken, and those
that wait. -/
def announced (e : Editor) (events : List Event) : List Command :=
  e.takenAll events ++ (e.afterAll events).commands

def displayed (e : Editor) (events : List Event) : Display :=
  Display.follow {} (e.announced events)

theorem takenAll_append (e : Editor) (events more : List Event) :
    e.takenAll (events ++ more) = e.takenAll events ++ (e.afterAll events).takenAll more := by
  induction events generalizing e with
  | nil => rfl
  | cons event rest ih =>
      rw [List.cons_append, takenAll, takenAll, ih, List.append_assoc]
      rfl

theorem afterAll_append (e : Editor) (events more : List Event) :
    e.afterAll (events ++ more) = (e.afterAll events).afterAll more :=
  List.foldl_append

theorem told_of_session {forgotten : String → Prop} (hsession : next.session = e.session)
    (hnone : ∀ path, ¬ forgotten path) : Told e next forgotten [] [] where
  reports := .nil
  kept := fun path _ _ => by rw [display_of_session hsession]
  gone := fun path hpath => absurd hpath (hnone path)

theorem taken_dequeued (e : Editor) :
    e.taken .dequeued ++ (e.after .dequeued).commands = e.commands := by
  show e.commands.head?.toList ++ e.commands.tail = e.commands
  cases e.commands with
  | nil => rfl
  | cons command rest => rfl

/-- Nothing is lost between the display and the queue, and what an event queues tells of the
findings. -/
theorem told_after (h : e.Settled) (event : Event) :
    ∃ commands paths, e.taken event ++ (e.after event).commands = e.commands ++ commands ∧
      Told e (e.after event) (e.Forgets event) commands paths := by
  cases event with
  | performed service store operation => exact tells_perform service store h operation
  | dequeued =>
      refine ⟨[], [], ?_, told_of_session rfl (by rintro _ ⟨⟩)⟩
      rw [List.append_nil, taken_dequeued]
  | drained => exact ⟨[], [], rfl, told_of_session rfl (by rintro _ ⟨⟩)⟩

theorem announced_concat {e : Editor} {events : List Event} {event : Event}
    {commands : List Command}
    (h : (e.afterAll events).taken event ++ ((e.afterAll events).after event).commands =
      (e.afterAll events).commands ++ commands) :
    e.announced (events ++ [event]) = e.announced events ++ commands := by
  unfold announced
  rw [takenAll_append, afterAll_append, List.append_assoc, List.append_assoc, ← h, takenAll,
    takenAll, List.append_nil]
  rfl

theorem told_displayed (h : e.Reachable) (events : List Event) (event : Event) :
    ∃ commands paths, e.displayed (events ++ [event]) = (e.displayed events).follow commands ∧
      Told (e.afterAll events) (e.afterAll (events ++ [event]))
        ((e.afterAll events).Forgets event) commands paths := by
  rcases told_after (h.afterAll events).settled event with ⟨commands, paths, hqueue, htold⟩
  refine ⟨commands, paths, ?_, ?_⟩
  · unfold displayed
    rw [announced_concat hqueue, Display.follow_append]
  · rw [afterAll_append]
    exact htold

section
variable {forgotten : String → Prop} {commands : List Command} {paths : List String}

theorem Told.findings_follow_iff (h : Told e next forgotten commands paths) (path : String) :
    (e.display.follow commands).findings path = next.display.findings path ↔
      ¬ forgotten path := by
  rw [Display.findings_follow h.reports]
  by_cases hmem : path ∈ paths
  · rw [if_pos hmem]
    exact iff_of_true rfl fun hpath => (h.gone path hpath).1 hmem
  · rw [if_neg hmem]
    constructor
    · intro hsame hpath
      rcases h.gone path hpath with ⟨_, hfound, hnone⟩
      rw [hsame] at hfound
      exact hfound hnone
    · intro hpath
      exact (h.kept path hmem hpath).symm

theorem Told.follow_eq (h : Told e next forgotten commands paths)
    (hnone : ∀ path, ¬ forgotten path) : e.display.follow commands = next.display := by
  apply Display.ext
  · funext path
    exact (h.findings_follow_iff path).mpr (hnone path)
  · rw [Display.counts_follow h.reports]
    split
    · -- Nothing is told, so the boards agree and hence do their counts.
      rename_i hpaths
      have hsame : next.display = e.display := by
        apply display_congr
        intro path
        exact h.kept path (by simp [hpaths]) (hnone path)
      rw [hsame]
    · rfl

/-- What is found is shown, whatever else a display has not been told of. -/
theorem Told.shown_of_found (h : Told e next forgotten commands paths) {shown : Display}
    (hshown : ∀ path, e.display.findings path ≠ [] →
      shown.findings path = e.display.findings path) {path : String}
    (hfound : next.display.findings path ≠ []) :
    (shown.follow commands).findings path = next.display.findings path := by
  rw [Display.findings_follow h.reports]
  split
  · rfl
  · rename_i hmem
    have hkept : next.display.findings path = e.display.findings path :=
      h.kept path hmem fun hpath => hfound (h.gone path hpath).2.2
    rw [hkept] at hfound ⊢
    exact hshown path hfound

end

theorem remembers_append (e : Editor) (events : List Event) (event : Event) :
    e.Remembers (events ++ [event]) ↔
      e.Remembers events ∧ ∀ path, ¬ (e.afterAll events).Forgets event path := by
  induction events generalizing e with
  | nil => simp [Remembers, afterAll]
  | cons first rest ih =>
      rw [List.cons_append, Remembers, Remembers, ih, and_assoc]
      rfl

/-- In every run, the findings that a session has at a path are shown. What may linger is at paths
without findings. -/
theorem displayed_of_found (author : String) (events : List Event) {path : String}
    (hfound : (afterAll { author } events).display.findings path ≠ []) :
    (displayed { author } events).findings path =
      (afterAll { author } events).display.findings path := by
  induction events using List.reverseRecOn generalizing path with
  | nil => exact absurd rfl hfound
  | append_singleton events event ih =>
      rcases told_displayed (.new author) events event with ⟨commands, paths, hshown, htold⟩
      rw [hshown]
      exact htold.shown_of_found (fun path => ih) hfound

theorem displayed_of_remembers (author : String) {events : List Event}
    (h : Remembers { author } events) :
    displayed { author } events = (afterAll { author } events).display := by
  induction events using List.reverseRecOn with
  | nil => rfl
  | append_singleton events event ih =>
      rw [remembers_append] at h
      rcases told_displayed (.new author) events event with ⟨commands, paths, hshown, htold⟩
      rw [hshown, ih h.1]
      exact htold.follow_eq h.2

/-- In a run in which no event forgets findings, a display that reads all commands is current all
along. One more event leaves it current at every path at which it forgets none. -/
theorem displayed_run (author : String) {events : List Event}
    (h : Remembers { author } events) (event : Event) :
    displayed { author } events = (afterAll { author } events).display ∧
      (∀ path,
        (displayed { author } (events ++ [event])).findings path =
            (afterAll { author } (events ++ [event])).display.findings path ↔
          ¬ (afterAll { author } events).Forgets event path) ∧
      (displayed { author } (events ++ [event]) =
          (afterAll { author } (events ++ [event])).display ↔
        ∀ path, ¬ (afterAll { author } events).Forgets event path) := by
  have hcurrent := displayed_of_remembers author h
  rcases told_displayed (.new author) events event with ⟨commands, paths, hshown, htold⟩
  rw [hcurrent] at hshown
  rw [hshown]
  refine ⟨hcurrent, htold.findings_follow_iff, ?_, htold.follow_eq⟩
  intro hsame path
  rw [← htold.findings_follow_iff path, hsame]

def carelessStencil : LoadedStencil where
  stencilId := "demo"
  serial := ⟨"250915A", rfl⟩
  settings := { id := "demo", name := "Demo" }
  files := [File.ofPath "/stencil.yml" "stencil:\n  id: demo\n  name: Demo\n",
    File.ofPath "/a.ftl" "$\x7b\x7d"]
  versions := []

def carelessStore : StoreService Unit :=
  { stubbornStore with load := fun _ _ => pure (.ok carelessStencil) }

def openingEvents : List Event :=
  [.performed carelessStore () (.load "demo" none),
    .performed carelessStore () (.openFile "/a.ftl")]

def reloading : Event :=
  .performed carelessStore () (.load "demo" none)

theorem found_openingEvents :
    (afterAll { author := "ann" } openingEvents).display.findings "/a.ftl" ≠ [] := by
  decide +kernel

theorem displayed_run_reloading :
    Remembers { author := "ann" } openingEvents ∧
      displayed { author := "ann" } openingEvents =
        (afterAll { author := "ann" } openingEvents).display ∧
      displayed { author := "ann" } (openingEvents ++ [reloading]) ≠
        (afterAll { author := "ann" } (openingEvents ++ [reloading])).display := by
  have hremembers : Remembers { author := "ann" } openingEvents := by
    refine ⟨?_, ?_, trivial⟩
    · rintro path (⟨_, hs, _⟩ | _)
      cases hs
    · rintro path ⟨⟩
  have hforgets : (afterAll { author := "ann" } openingEvents).Forgets reloading "/a.ftl" := by
    have hfound := found_openingEvents
    cases hs : (afterAll { author := "ann" } openingEvents).session with
    | none =>
        rw [display_of_none hs] at hfound
        exact absurd rfl hfound
    | some s =>
        rw [display_of_some hs] at hfound
        exact .loaded rfl hs hfound
  rcases displayed_run "ann" hremembers reloading with ⟨hcurrent, _, hlater⟩
  exact ⟨hremembers, hcurrent, fun hsame => hlater.mp hsame "/a.ftl" hforgets⟩

/-- The findings of a session stay on the display when another one is loaded: they are still shown
where the session has none, and nothing has told of them since. -/
theorem not_displayed_run :
    ¬ ∀ (author : String) (events : List Event),
      displayed { author } events = (afterAll { author } events).display := by
  intro h
  have hshown : (displayed { author := "ann" } (openingEvents ++ [reloading])).findings "/a.ftl" ≠
      [] := by
    decide +kernel
  rw [h "ann" (openingEvents ++ [reloading])] at hshown
  exact hshown rfl

end Editor
end StencilDesk
