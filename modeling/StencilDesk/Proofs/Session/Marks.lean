import StencilDesk.Proofs.Session.Anchored
import StencilDesk.Proofs.Session.Baseline

/-!
# Dirty tabs

A tab is dirty exactly if it was touched since the last save: by an edit, by a replacement of all
files that it stayed open in, or by one that opened it on another main configuration than the one
that was saved. A file that is moved takes its tab along.
-/

namespace StencilDesk
namespace Session

open BundleDiff (lastContent?)

variable {σ : Type}

/-!
## What touches a tab
-/

def replacement? (service : StoreService σ) (s : Session) (store : σ) :
    Operation → Option (List File)
  | .install files => some files
  | .restore serial =>
      match (service.snapshot s.stencilId serial store).1 with
      | .ok version => some version.files
      | .error _ => none
  | _ => none

def Saves (service : StoreService σ) (s : Session) (store : σ) (operation : Operation) : Prop :=
  ∃ author message answer, operation = .save author message ∧
    (s.save service author message store).1.1 = .ok answer

def pathAfter (s : Session) : Operation → String → String
  | .moveFile path new, other =>
      match s.moveFile path new with
      | .ok _ => movedPath path new other
      | .error _ => other
  | _, other => other

/-- Holds if an operation touches the tab at a path, given the files that were saved last. -/
inductive Touches (service : StoreService σ) (s : Session) (saved : List File) (store : σ) :
    Operation → String → Prop where
  /-- The file is edited, even if it gets the text that it has. -/
  | edited {path content : String} {next : Session} (hedit : s.edit path content = .ok next) :
      Touches service s saved store (.edit path content) path
  /-- The tab stays open while all files are replaced. -/
  | kept {operation : Operation} {files : List File} {path : String}
      (hfiles : s.replacement? service store operation = some files)
      (hopen : path ∈ s.openPaths)
      (hkept : path ∈ (s.perform service operation store).1.openPaths) :
      Touches service s saved store operation path
  /-- The tab is opened on a main configuration that is not the one that was saved. -/
  | opened {operation : Operation} {files : List File} {config : File}
      (hfiles : s.replacement? service store operation = some files)
      (hclosed : File.mainConfigPath ∉ s.openPaths)
      (hconfig : File.find? files File.mainConfigPath = some config)
      (hdiffers : lastContent? saved File.mainConfigPath ≠ some config.content) :
      Touches service s saved store operation File.mainConfigPath

/-- Holds if an operation that saves nothing leaves the tab at one path open, at another. -/
structure Stays (service : StoreService σ) (s : Session) (store : σ) (operation : Operation)
    (old path : String) : Prop where
  unsaved : ¬ s.Saves service store operation
  openBefore : old ∈ s.openPaths
  path_eq : s.pathAfter operation old = path
  openAfter : path ∈ (s.perform service operation store).1.openPaths

/-- Follows a tab through operations that neither save nor close it. -/
inductive Follows (service : StoreService σ) :
    Session → σ → List Operation → String → String → Prop where
  | nil {s : Session} {store : σ} {path : String} : Follows service s store [] path path
  | cons {s : Session} {store : σ} {operation : Operation} {rest : List Operation}
      {old middle path : String} (hstep : s.Stays service store operation old middle)
      (hrest : Follows service (s.perform service operation store).1
        (s.perform service operation store).2 rest middle path) :
      Follows service s store (operation :: rest) old path

/-- Holds if the tab at a path was touched in a run, and neither saved nor closed since. -/
def Touched (service : StoreService σ) (s : Session) (store : σ) (operations : List Operation)
    (path : String) : Prop :=
  ∃ before operation after old, operations = before ++ operation :: after ∧
    (s.run service before store).1.Touches service (s.savedFiles service s.files store before)
      (s.run service before store).2 operation old ∧
    Follows service (s.run service (before ++ [operation]) store).1
      (s.run service (before ++ [operation]) store).2 after old path

/-- Holds if the checksum of the main configuration among the files that an operation puts in place
of all others tells it from the one that was saved, unless they are the same. -/
def DiscernsIncoming (service : StoreService σ) (s : Session) (saved : List File) (store : σ)
    (operation : Operation) : Prop :=
  ∀ files content config, s.replacement? service store operation = some files →
    lastContent? saved File.mainConfigPath = some content →
    File.find? files File.mainConfigPath = some config →
    Checksum.ofText content = Checksum.ofText config.content → content = config.content

def Discerning (service : StoreService σ) (s : Session) (store : σ)
    (operations : List Operation) : Prop :=
  ∀ before operation after, operations = before ++ operation :: after →
    (s.run service before store).1.DiscernsIncoming service
      (s.savedFiles service s.files store before) (s.run service before store).2 operation

/-!
## Runs with one more operation
-/

theorem follows_concat_iff {service : StoreService σ} {s : Session} {store : σ}
    {operations : List Operation} {last : Operation} {old path : String} :
    Follows service s store (operations ++ [last]) old path ↔
      ∃ middle, Follows service s store operations old middle ∧
        (s.run service operations store).1.Stays service (s.run service operations store).2 last
          middle path := by
  constructor
  · intro h
    induction operations generalizing s store old with
    | nil =>
        cases h with
        | cons hstep hrest =>
            cases hrest
            exact ⟨old, .nil, hstep⟩
    | cons operation rest ih =>
        cases h with
        | cons hstep hrest =>
            rcases ih hrest with ⟨middle, hfollows, hlast⟩
            exact ⟨middle, .cons hstep hfollows, hlast⟩
  · rintro ⟨middle, hfollows, hlast⟩
    induction hfollows with
    | nil => exact .cons hlast .nil
    | cons hstep _ ih => exact .cons hstep (ih hlast)

/-- A tab was touched in a longer run if the last operation touches it, or if it was touched before
and stays. -/
theorem touched_concat_iff {service : StoreService σ} {s : Session} {store : σ}
    {operations : List Operation} {last : Operation} {path : String} :
    s.Touched service store (operations ++ [last]) path ↔
      (s.run service operations store).1.Touches service
          (s.savedFiles service s.files store operations) (s.run service operations store).2 last
          path ∨
        ∃ old, s.Touched service store operations old ∧
          (s.run service operations store).1.Stays service (s.run service operations store).2
            last old path := by
  have hrun : ∀ (before : List Operation) (operation : Operation) (rest : List Operation),
      s.run service (before ++ operation :: rest) store =
        (s.run service (before ++ [operation]) store).1.run service rest
          (s.run service (before ++ [operation]) store).2 := by
    intro before operation rest
    rw [List.append_cons]
    exact run_append service s (before ++ [operation]) rest store
  constructor
  · rintro ⟨before, operation, after, old, hsplit, htouches, hfollows⟩
    rcases List.eq_nil_or_concat after with hnil | ⟨rest, final, hafter⟩
    · rw [hnil] at hsplit hfollows
      rcases List.append_inj' hsplit rfl with ⟨hbefore, hlast⟩
      cases hfollows
      rw [hbefore, List.singleton_inj.mp hlast]
      exact .inl htouches
    · rw [hafter, List.concat_eq_append] at hsplit hfollows
      rw [← List.cons_append, ← List.append_assoc] at hsplit
      rcases List.append_inj' hsplit rfl with ⟨hbefore, hlast⟩
      rcases follows_concat_iff.mp hfollows with ⟨middle, hmiddle, hstays⟩
      rw [← hrun, ← hbefore, ← List.singleton_inj.mp hlast] at hstays
      exact .inr ⟨middle, ⟨before, operation, rest, old, hbefore, htouches, hmiddle⟩, hstays⟩
  · rintro (htouches | ⟨middle, ⟨before, operation, rest, old, hsplit, htouches, hfollows⟩, hstays⟩)
    · exact ⟨operations, last, [], path, rfl, htouches, .nil⟩
    · refine ⟨before, operation, rest ++ [last], old, ?_, htouches, ?_⟩
      · rw [hsplit, List.append_assoc]
        rfl
      · rw [hsplit, hrun] at hstays
        exact follows_concat_iff.mpr ⟨middle, hfollows, hstays⟩

/-!
## Where tabs come from
-/

/-- Where a tab comes from that is open after an operation. -/
inductive Origin (service : StoreService σ) (s : Session) (saved : List File) (store : σ)
    (operation : Operation) (tab : Tab) : Prop where
  | carried {old : Tab} (hold : old ∈ s.tabs) (hpath : s.pathAfter operation old.path = tab.path)
      (hdirty : tab.dirty = old.dirty) (hunsaved : ¬ s.Saves service store operation)
      (huntouched : ¬ s.Touches service saved store operation tab.path)
  | touched (htouches : s.Touches service saved store operation tab.path)
      (hdirty : tab.dirty = true)
  | saved (hsaves : s.Saves service store operation)
      (huntouched : ¬ s.Touches service saved store operation tab.path)
      (hdirty : tab.dirty = false)
  | opened (hnew : ∀ old ∈ s.tabs, s.pathAfter operation old.path ≠ tab.path)
      (hdirty : s.DiscernsIncoming service saved store operation →
        (tab.dirty = true ↔ s.Touches service saved store operation tab.path))

section
variable {service : StoreService σ} {s : Session} {saved : List File} {store : σ}

theorem pathAfter_inj (h : s.Anchored) {operation : Operation} {a b : String}
    (ha : a ∈ s.openPaths) (hb : b ∈ s.openPaths)
    (hab : s.pathAfter operation a = s.pathAfter operation b) : a = b := by
  cases operation with
  | moveFile path new =>
      unfold pathAfter at hab
      cases hmoved : s.moveFile path new with
      | error fault =>
          simp only [hmoved] at hab
          exact hab
      | ok next =>
          simp only [hmoved] at hab
          rcases moveFile_eq_ok hmoved with ⟨files, hmove, _⟩
          by_cases hsame : path = new
          · rw [hsame, movedPath_self, movedPath_self] at hab
            exact hab
          · exact movedPath_inj (h.not_mem_of_moveFile hmove hsame) ha hb hab
  | _ => exact hab

theorem not_touches {operation : Operation}
    (hfiles : s.replacement? service store operation = none)
    (hedit : ∀ path content next, operation = .edit path content →
      s.edit path content ≠ .ok next) {path : String} :
    ¬ s.Touches service saved store operation path := by
  intro h
  cases h with
  | edited hnext => exact hedit _ _ _ rfl hnext
  | kept hreplaced _ _ =>
      rw [hfiles] at hreplaced
      cases hreplaced
  | opened hreplaced _ _ _ =>
      rw [hfiles] at hreplaced
      cases hreplaced

theorem not_saves {operation : Operation}
    (h : ∀ author message, operation ≠ .save author message) :
    ¬ s.Saves service store operation := by
  rintro ⟨author, message, _, hsame, _⟩
  exact h author message hsame

theorem Origin.of_mem {operation : Operation} {tab : Tab} (hmem : tab ∈ s.tabs)
    (hpath : s.pathAfter operation tab.path = tab.path)
    (hunsaved : ¬ s.Saves service store operation)
    (huntouched : ∀ path, ¬ s.Touches service saved store operation path) :
    Origin service s saved store operation tab :=
  .carried hmem hpath rfl hunsaved (huntouched tab.path)

theorem tabs_replaced {operation : Operation} {files : List File}
    (h : s.replacement? service store operation = some files) :
    (s.perform service operation store).1.tabs = s.replacedTabs files := by
  have hinstalled : ∀ files, (s.install files).2.tabs = s.replacedTabs files := by
    intro files
    rcases install_eq s files with ⟨board, hinstall⟩
    rcases installed_eq s files board with ⟨active, hnext⟩
    rw [hinstall, hnext]
  cases operation with
  | install other =>
      cases h
      exact hinstalled files
  | restore serial =>
      show (s.restore service serial store).1.2.tabs = s.replacedTabs files
      rcases hanswer : service.snapshot s.stencilId serial store with ⟨answer, after⟩
      simp only [replacement?, hanswer] at h
      cases answer with
      | error fault => cases h
      | ok version =>
          cases h
          rw [restore_of_ok hanswer]
          exact hinstalled version.files
  | _ => cases h

theorem pathAfter_of_replaced {operation : Operation} {files : List File} (path : String)
    (h : s.replacement? service store operation = some files) :
    s.pathAfter operation path = path := by
  cases operation with
  | moveFile _ _ => cases h
  | _ => rfl

theorem of_mem_configTabs {files : List File} {tab : Tab} (h : tab ∈ s.configTabs files) :
    File.mainConfigPath ∉ s.openPaths ∧
      ∃ config, File.find? files File.mainConfigPath = some config ∧
        tab.path = File.mainConfigPath := by
  unfold configTabs at h
  split at h
  · cases h
  · rename_i hclosed
    split at h
    · cases h
    · rename_i config hconfig
      rw [List.mem_singleton.mp h]
      exact ⟨mt isOpen_iff.mpr hclosed, config, hconfig, (File.of_find?_eq_some hconfig).2⟩

/-- The main configuration is opened clean if it is the one that was saved. -/
theorem origin_config (hbaseline : s.baseline.get? File.mainConfigPath =
      (lastContent? saved File.mainConfigPath).map Checksum.ofText)
    {operation : Operation} {files : List File}
    (hfiles : s.replacement? service store operation = some files) {tab : Tab}
    (hmem : tab ∈ s.configTabs files) : Origin service s saved store operation tab := by
  rcases of_mem_configTabs hmem with ⟨hclosed, config, hconfig, hpath⟩
  apply Origin.opened
  · intro old hold hsame
    rw [pathAfter_of_replaced old.path hfiles, hpath] at hsame
    exact hclosed (List.mem_map.mpr ⟨old, hold, hsame⟩)
  · intro hsums
    rw [configTabs_eq hconfig hbaseline fun content hcontent =>
        hsums files content config hfiles hcontent hconfig,
      if_neg (mt isOpen_iff.mp hclosed), List.mem_singleton] at hmem
    have hdirty : tab.dirty = true ↔
        lastContent? saved File.mainConfigPath ≠ some config.content := by
      rw [hmem]
      exact decide_eq_true_iff
    rw [hdirty, hpath]
    constructor
    · exact .opened hfiles hclosed hconfig
    · intro htouches
      cases htouches with
      | edited _ => cases hfiles
      | kept _ hopen _ => exact absurd hopen hclosed
      | opened hothers _ hother hdiffers =>
          rw [hfiles] at hothers
          cases hothers
          rw [hconfig] at hother
          cases hother
          exact hdiffers

theorem origin_replaced (hbaseline : s.baseline.get? File.mainConfigPath =
      (lastContent? saved File.mainConfigPath).map Checksum.ofText)
    {operation : Operation} {files : List File}
    (hfiles : s.replacement? service store operation = some files) {tab : Tab}
    (hmem : tab ∈ (s.perform service operation store).1.tabs) :
    Origin service s saved store operation tab := by
  have hopen : tab.path ∈ (s.perform service operation store).1.openPaths :=
    List.mem_map_of_mem hmem
  rw [tabs_replaced hfiles] at hmem
  unfold replacedTabs at hmem
  rcases List.mem_append.mp hmem with hkept | hconfig
  · rcases List.mem_map.mp hkept with ⟨old, hold, hedited⟩
    rw [← hedited] at hopen ⊢
    have hbefore : old.path ∈ s.openPaths := List.mem_map_of_mem (List.mem_filter.mp hold).1
    exact .touched (.kept hfiles hbefore hopen) rfl
  · exact origin_config hbaseline hfiles hconfig

theorem origin_edit (h : s.Anchored) {path content : String} {tab : Tab}
    (hmem : tab ∈ (s.afterResult (s.edit path content)).tabs) :
    Origin service s saved store (.edit path content) tab := by
  have hunsaved : ¬ s.Saves service store (.edit path content) := not_saves (by simp)
  cases hedit : s.edit path content with
  | error fault =>
      rw [hedit] at hmem
      refine .of_mem hmem rfl hunsaved fun _ => not_touches rfl ?_
      rintro _ _ next ⟨⟩ hnext
      rw [hedit] at hnext
      cases hnext
  | ok next =>
      have htabs : next.tabs = replaceTab path Tab.edited s.tabs := by
        rcases edit_eq_ok hedit with ⟨_, _, _, _, _, hnext⟩
        rw [hnext]
      rw [hedit] at hmem
      rw [afterResult, htabs, replaceTab_eq_map h.distinct, List.mem_map] at hmem
      rcases hmem with ⟨old, hold, htab⟩
      by_cases hpath : old.path = path
      · rw [if_pos hpath] at htab
        have hsame : tab.path = path := by
          rw [← htab]
          exact hpath
        refine .touched ?_ (by rw [← htab]; rfl)
        rw [hsame]
        exact .edited hedit
      · rw [if_neg hpath] at htab
        rw [← htab]
        refine .carried hold rfl rfl hunsaved ?_
        intro htouches
        generalize hother : old.path = other at htouches
        cases htouches with
        | edited _ => exact hpath hother
        | kept hfiles _ _ => cases hfiles
        | opened hfiles _ _ _ => cases hfiles

theorem exists_of_moved (h : s.Anchored) {path new : String} {next : Session}
    (hmoved : s.moveFile path new = .ok next) {tab : Tab} (hmem : tab ∈ next.tabs) :
    ∃ old ∈ s.tabs, movedPath path new old.path = tab.path ∧ tab.dirty = old.dirty := by
  rcases moveFile_eq_ok hmoved with ⟨files, hmove, ⟨hclosed, hnext⟩ | ⟨_, _, board, hnext⟩⟩
  · rw [hnext] at hmem
    refine ⟨tab, hmem, ?_, rfl⟩
    rcases hclosed with hsame | hclosed
    · rw [hsame, movedPath_self]
    · apply if_neg
      intro hpath
      rw [← Bool.not_eq_true, isOpen_iff, ← hpath] at hclosed
      exact hclosed (List.mem_map_of_mem hmem)
  · have htabs : next.tabs = replaceTab path (movedTab new) s.tabs := by rw [hnext]
    rw [htabs, replaceTab_eq_map h.distinct, List.mem_map] at hmem
    rcases hmem with ⟨old, hold, htab⟩
    refine ⟨old, hold, ?_⟩
    unfold movedPath
    rw [← htab]
    by_cases hpath : old.path = path
    · rw [if_pos hpath, if_pos hpath]
      exact ⟨rfl, rfl⟩
    · rw [if_neg hpath, if_neg hpath]
      exact ⟨rfl, rfl⟩

theorem origin_moveFile (h : s.Anchored) {path new : String} {tab : Tab}
    (hmem : tab ∈ (s.afterResult (s.moveFile path new)).tabs) :
    Origin service s saved store (.moveFile path new) tab := by
  have hunsaved : ¬ s.Saves service store (.moveFile path new) := not_saves (by simp)
  have huntouched : ∀ path', ¬ s.Touches service saved store (.moveFile path new) path' :=
    fun _ => not_touches rfl (by simp)
  cases hmoved : s.moveFile path new with
  | error fault =>
      rw [hmoved] at hmem
      exact .of_mem hmem (by simp only [pathAfter, hmoved]) hunsaved huntouched
  | ok next =>
      rw [hmoved] at hmem
      rcases exists_of_moved h hmoved hmem with ⟨old, hold, hpath, hdirty⟩
      refine .carried hold ?_ hdirty hunsaved (huntouched _)
      simp only [pathAfter, hmoved]
      exact hpath

theorem origin_save {author : String} {message : Option String} {tab : Tab}
    (hmem : tab ∈ (s.save service author message store).1.2.tabs) :
    Origin service s saved store (.save author message) tab := by
  rcases save_answer_cases service s author message store with
    ⟨fault, hfailed⟩ | ⟨answer, versions, _, _, hsaved⟩
  · rw [hfailed] at hmem
    refine .of_mem hmem rfl ?_ fun _ => not_touches rfl (by simp)
    rintro ⟨_, _, answer, hsame, hanswer⟩
    cases hsame
    rw [hfailed] at hanswer
    cases hanswer
  · rw [hsaved] at hmem
    rcases List.mem_map.mp hmem with ⟨old, _, htab⟩
    refine .saved ⟨author, message, answer, rfl, by rw [hsaved]⟩ ?_ (by rw [← htab]; rfl)
    exact not_touches rfl (by simp)

theorem origin_opening {operation : Operation} {file : File} {tab : Tab}
    (hmem : tab ∈ s.tabsOpening file)
    (hpath : ∀ path, s.pathAfter operation path = path)
    (hunsaved : ¬ s.Saves service store operation)
    (huntouched : ∀ path, ¬ s.Touches service saved store operation path) :
    Origin service s saved store operation tab := by
  unfold tabsOpening at hmem
  split at hmem
  · exact .of_mem hmem (hpath _) hunsaved huntouched
  · rename_i hclosed
    rcases List.mem_append.mp hmem with hold | hnew
    · exact .of_mem hold (hpath _) hunsaved huntouched
    · rw [List.mem_singleton.mp hnew]
      apply Origin.opened
      · intro old hold hsame
        rw [hpath] at hsame
        exact hclosed (isOpen_iff.mpr (List.mem_map.mpr ⟨old, hold, hsame⟩))
      · intro _
        constructor
        · rintro ⟨⟩
        · exact fun htouches => absurd htouches (huntouched _)

theorem pathAfter_of_not_moved {operation : Operation}
    (h : ∀ path new, operation ≠ .moveFile path new) (path : String) :
    s.pathAfter operation path = path := by
  cases operation with
  | moveFile old new => exact absurd rfl (h old new)
  | _ => rfl

theorem origin_other {operation : Operation} {next : Session}
    (heffect : Effect service s store operation next)
    (hreplaced : s.replacement? service store operation = none)
    (hedit : ∀ path content, operation ≠ .edit path content)
    (hmove : ∀ path new, operation ≠ .moveFile path new)
    (hsave : ∀ author message, operation ≠ .save author message) {tab : Tab}
    (hmem : tab ∈ next.tabs) : Origin service s saved store operation tab := by
  have hunsaved : ¬ s.Saves service store operation := not_saves hsave
  have huntouched : ∀ path, ¬ s.Touches service saved store operation path :=
    fun _ => not_touches hreplaced fun path content _ hsame => absurd hsame (hedit path content)
  have hpath := pathAfter_of_not_moved (s := s) hmove
  have hkept : tab ∈ s.tabs → Origin service s saved store operation tab :=
    fun hold => .of_mem hold (hpath tab.path) hunsaved huntouched
  cases heffect with
  | none _ | expect _ _ | activate _ | createFolder _ | setVersions _ => exact hkept hmem
  | openFile _ _ => exact origin_opening hmem hpath hunsaved huntouched
  | createFile _ _ => exact origin_opening hmem hpath hunsaved huntouched
  | close _ _ => exact hkept (List.mem_of_mem_eraseP hmem)
  | deleteFile _ _ => exact hkept (List.mem_of_mem_eraseP hmem)
  | edit _ _ _ _ => exact absurd rfl (hedit _ _)
  | moveFile _ _ => exact absurd rfl (hmove _ _)
  | moveOpenFile _ _ _ _ => exact absurd rfl (hmove _ _)
  | save _ _ _ => exact absurd rfl (hsave _ _)
  | install files _ => cases hreplaced
  | restore hanswer _ =>
      simp only [replacement?, hanswer] at hreplaced
      cases hreplaced

theorem origin_perform (h : s.Anchored)
    (hbaseline : s.baseline.get? File.mainConfigPath =
      (lastContent? saved File.mainConfigPath).map Checksum.ofText)
    {operation : Operation} {tab : Tab}
    (hmem : tab ∈ (s.perform service operation store).1.tabs) :
    Origin service s saved store operation tab := by
  cases hreplaced : s.replacement? service store operation with
  | some files => exact origin_replaced hbaseline hreplaced hmem
  | none =>
      cases operation with
      | edit path content => exact origin_edit h hmem
      | moveFile path new => exact origin_moveFile h hmem
      | save author message => exact origin_save hmem
      | _ =>
          exact origin_other (effect_perform service s store _) hreplaced (by simp) (by simp)
            (by simp) hmem

theorem eq_of_pathAfter_eq (h : s.Anchored) {operation : Operation} {old other : Tab}
    (hold : old ∈ s.tabs) (hother : other ∈ s.tabs)
    (hsame : s.pathAfter operation other.path = s.pathAfter operation old.path) : other = old :=
  List.inj_on_of_nodup_map h.distinct hother hold
    (pathAfter_inj h (List.mem_map_of_mem hother) (List.mem_map_of_mem hold) hsame)

/-- A tab is dirty after an operation if that touched it, or if it was dirty before and no save
succeeded. -/
theorem Origin.dirty_iff (h : s.Anchored) {operation : Operation} {tab : Tab}
    (horigin : Origin service s saved store operation tab)
    (hsums : s.DiscernsIncoming service saved store operation) :
    tab.dirty = true ↔ s.Touches service saved store operation tab.path ∨
      ∃ old ∈ s.tabs, old.dirty = true ∧ s.pathAfter operation old.path = tab.path ∧
        ¬ s.Saves service store operation := by
  cases horigin with
  | carried hold hpath hdirty hunsaved huntouched =>
      rename_i old
      rw [hdirty]
      constructor
      · intro hmarked
        exact .inr ⟨old, hold, hmarked, hpath, hunsaved⟩
      · rintro (htouches | ⟨other, hother, hmarked, hsame, _⟩)
        · exact absurd htouches huntouched
        · rw [← eq_of_pathAfter_eq h hold hother (hsame.trans hpath.symm)]
          exact hmarked
  | touched htouches hdirty => exact ⟨fun _ => .inl htouches, fun _ => hdirty⟩
  | saved hsaves huntouched hdirty =>
      rw [hdirty]
      constructor
      · rintro ⟨⟩
      · rintro (htouches | ⟨_, _, _, _, hunsaved⟩)
        · exact absurd htouches huntouched
        · exact absurd hsaves hunsaved
  | opened hnew hdirty =>
      rw [hdirty hsums]
      constructor
      · exact .inl
      · rintro (htouches | ⟨old, hold, _, hsame, _⟩)
        · exact htouches
        · exact absurd hsame (hnew old hold)

theorem Origin.dirty_eq (h : s.Anchored) {operation : Operation} {old tab : Tab}
    (horigin : Origin service s saved store operation tab) (hold : old ∈ s.tabs)
    (hpath : s.pathAfter operation old.path = tab.path)
    (hunsaved : ¬ s.Saves service store operation)
    (huntouched : ¬ s.Touches service saved store operation tab.path) :
    tab.dirty = old.dirty := by
  cases horigin with
  | carried hother hsame hdirty _ _ =>
      rw [hdirty, eq_of_pathAfter_eq h hold hother (hsame.trans hpath.symm)]
  | touched htouches _ => exact absurd htouches huntouched
  | saved hsaves _ _ => exact absurd hsaves hunsaved
  | opened hnew _ => exact absurd hpath (hnew old hold)
end

/-!
## Runs
-/

theorem tabs_of_begins {P : List File → Prop} {s : Session} (h : s.Begins P) : s.tabs = [] := by
  cases h with
  | start _ _ => rfl
  | loaded _ => rfl

section
variable {service : StoreService σ} {s : Session}

theorem origin_run (hbegins : s.Begins fun _ => True) {operations : List Operation}
    {operation : Operation} {store : σ} {tab : Tab}
    (hmem : tab ∈ (s.run service (operations ++ [operation]) store).1.tabs) :
    Origin service (s.run service operations store).1
      (s.savedFiles service s.files store operations) (s.run service operations store).2
      operation tab := by
  rw [run_concat] at hmem
  exact origin_perform ((anchored_of_begins hbegins).run service operations store)
    (get?_baseline_run hbegins operations store File.mainConfigPath) hmem

theorem dirty_iff_touched (hbegins : s.Begins fun _ => True) {operations : List Operation}
    {store : σ} (hsums : s.Discerning service store operations) {tab : Tab}
    (hmem : tab ∈ (s.run service operations store).1.tabs) :
    tab.dirty = true ↔ s.Touched service store operations tab.path := by
  induction operations using List.reverseRecOn generalizing tab with
  | nil =>
      have hnone : tab ∈ s.tabs := hmem
      rw [tabs_of_begins hbegins] at hnone
      cases hnone
  | append_singleton operations last ih =>
      have hbefore : s.Discerning service store operations := by
        intro before operation after hsplit
        apply hsums before operation (after ++ [last])
        rw [hsplit, List.append_assoc]
        rfl
      have hanchored := (anchored_of_begins hbegins).run service operations store
      have hdirty := (origin_run hbegins hmem).dirty_iff hanchored (hsums operations last [] rfl)
      rw [hdirty, touched_concat_iff]
      apply or_congr_right
      rw [run_concat] at hmem
      constructor
      · rintro ⟨old, hold, hmarked, hpath, hunsaved⟩
        exact ⟨old.path, (ih hbefore hold).mp hmarked,
          ⟨hunsaved, List.mem_map_of_mem hold, hpath, List.mem_map_of_mem hmem⟩⟩
      · rintro ⟨path, htouched, hstays⟩
        rcases List.mem_map.mp hstays.openBefore with ⟨old, hold, hopen⟩
        rw [← hopen] at htouched
        refine ⟨old, hold, (ih hbefore hold).mpr htouched, ?_, hstays.unsaved⟩
        rw [hopen]
        exact hstays.path_eq

/-- After any run the dirty tabs are those that were touched and not saved since. No other operation
changes the mark of a tab. -/
theorem dirty_run (hbegins : s.Begins fun _ => True) (operations : List Operation) (store : σ) :
    (s.Discerning service store operations →
        ∀ tab ∈ (s.run service operations store).1.tabs,
          tab.dirty = true ↔ s.Touched service store operations tab.path) ∧
      ∀ operation, ∀ old ∈ (s.run service operations store).1.tabs,
        ∀ tab ∈ (s.run service (operations ++ [operation]) store).1.tabs,
          (s.run service operations store).1.pathAfter operation old.path = tab.path →
            ¬ (s.run service operations store).1.Saves service (s.run service operations store).2
                operation →
              ¬ (s.run service operations store).1.Touches service
                  (s.savedFiles service s.files store operations)
                  (s.run service operations store).2 operation tab.path →
                tab.dirty = old.dirty := by
  constructor
  · intro hsums tab hmem
    exact dirty_iff_touched hbegins hsums hmem
  · intro operation old hold tab hmem hpath hunsaved huntouched
    exact (origin_run hbegins hmem).dirty_eq
      ((anchored_of_begins hbegins).run service operations store) hold hpath hunsaved huntouched
end

def draftFiles : List File :=
  [File.ofPath "/stencil.yml" "a:", File.ofPath "/note.txt" "n", File.ofPath "/list.txt" "l"]

def otherDraftFiles : List File :=
  [File.ofPath "/stencil.yml" "b:", File.ofPath "/note.txt" "n", File.ofPath "/list.txt" "l"]

def draftOperations : List Operation :=
  [.install otherDraftFiles, .openFile "/note.txt", .openFile "/list.txt",
    .edit "/note.txt" "n", .moveFile "/note.txt" "/memo.txt"]

def draftStore : DirectoryStore :=
  { now := ⟨⟨2025, 9, 13⟩, 10, 0, 0, 0, 0⟩ }

theorem tabs_draft :
    ((start "demo" draftFiles).run DirectoryStore.service draftOperations draftStore).1.tabs =
      [⟨"/stencil.yml", "stencil.yml", .mainConfig, true⟩, ⟨"/memo.txt", "memo.txt", .other, true⟩,
        ⟨"/list.txt", "list.txt", .other, false⟩] := by decide +kernel

theorem discerning_draft :
    (start "demo" draftFiles).Discerning DirectoryStore.service draftStore
      draftOperations := by
  have hsums : Checksum.ofText "a:" ≠ Checksum.ofText "b:" := by decide +kernel
  intro before operation after hsplit files content config hfiles hcontent hconfig hsum
  cases before with
  | nil =>
      cases hsplit
      cases hfiles
      cases hcontent
      cases hconfig
      exact absurd hsum hsums
  | cons first rest =>
      -- Only the first operation replaces files.
      have hmem : operation ∈ draftOperations.tail := by
        rw [hsplit]
        simp
      simp only [draftOperations, List.tail_cons, List.mem_cons, List.not_mem_nil,
        or_false] at hmem
      rcases hmem with hsame | hsame | hsame | hsame <;> rw [hsame] at hfiles <;> cases hfiles

theorem dirty_run_draft :
    (start "demo" draftFiles).Begins (fun _ => True) ∧
      (start "demo" draftFiles).Discerning DirectoryStore.service draftStore
        draftOperations ∧
      (∀ path ∈ ["/stencil.yml", "/memo.txt"],
        (start "demo" draftFiles).Touched DirectoryStore.service draftStore draftOperations
          path) ∧
      ¬ (start "demo" draftFiles).Touched DirectoryStore.service draftStore draftOperations
        "/list.txt" := by
  have hbegins : (start "demo" draftFiles).Begins (fun _ => True) := .start "demo" trivial
  have hdirty := (dirty_run hbegins draftOperations draftStore).1 discerning_draft
  simp only [tabs_draft, List.forall_mem_cons] at hdirty
  rcases hdirty with ⟨hconfig, hmemo, hlist, _⟩
  refine ⟨hbegins, discerning_draft, ?_, ?_⟩
  · intro path hmem
    simp only [List.mem_cons, List.not_mem_nil, or_false] at hmem
    rcases hmem with hpath | hpath
    · rw [hpath]
      exact hconfig.mp trivial
    · rw [hpath]
      exact hmemo.mp trivial
  · intro htouched
    cases hlist.mpr htouched

end Session
end StencilDesk
