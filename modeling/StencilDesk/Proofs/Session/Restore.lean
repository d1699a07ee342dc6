import StencilDesk.Proofs.Session.Effect

/-!
# Going back to other files

What replacing all files makes of the tabs. It does not matter which of them was active, or whether
tabs share a path.
-/

namespace StencilDesk
namespace Session

variable {σ : Type}

/-- The tab that is opened for the main configuration among new files, if there is one and it is not
open yet. -/
def configTabs (s : Session) (files : List File) : List Tab :=
  if s.isOpen File.mainConfigPath then []
  else
    match File.find? files File.mainConfigPath with
    | none => []
    | some config =>
        [{ Tab.ofFile config with
          dirty := s.baseline.get? File.mainConfigPath !=
            some (Checksum.ofText config.content) }]

def replacedTabs (s : Session) (files : List File) : List Tab :=
  (s.tabs.filter fun tab => File.existsAt files tab.path).map Tab.edited ++ s.configTabs files

/-!
## Closing the tabs of files that are gone
-/

def eraseTabs (tabs : List Tab) (paths : List String) : List Tab :=
  paths.foldl (fun tabs path => tabs.eraseP fun tab => tab.path == path) tabs

theorem tabs_closeAll (s : Session) (paths : List String) :
    (s.closeAll paths).tabs = eraseTabs s.tabs paths := by
  induction paths generalizing s with
  | nil => rfl
  | cons path rest ih => exact ih (s.removeTab path)

theorem eraseTabs_cons_of_not_mem {tab : Tab} {paths : List String} (tabs : List Tab)
    (h : tab.path ∉ paths) : eraseTabs (tab :: tabs) paths = tab :: eraseTabs tabs paths := by
  induction paths generalizing tabs with
  | nil => rfl
  | cons path rest ih =>
      rw [List.mem_cons, not_or] at h
      have hkept : ((tab :: tabs).eraseP fun tab => tab.path == path) =
          tab :: tabs.eraseP fun tab => tab.path == path :=
        List.eraseP_cons_of_neg (by simpa using h.1)
      unfold eraseTabs
      rw [List.foldl_cons, hkept]
      exact ih _ h.2

theorem eraseTabs_filter (keep : String → Bool) (tabs : List Tab) :
    eraseTabs tabs ((tabs.filter fun tab => !keep tab.path).map Tab.path) =
      tabs.filter fun tab => keep tab.path := by
  -- A tab that is kept has none of the paths; one that is not is the first at its own.
  induction tabs with
  | nil => rfl
  | cons tab rest ih =>
      cases hkeep : keep tab.path with
      | true =>
          have hkept : ((tab :: rest).filter fun tab => keep tab.path) =
              tab :: rest.filter fun tab => keep tab.path := List.filter_cons_of_pos hkeep
          rw [List.filter_cons_of_neg (by simp [hkeep]), hkept, ← ih]
          apply eraseTabs_cons_of_not_mem
          intro hmem
          rcases List.mem_map.mp hmem with ⟨other, hother, hsame⟩
          have hout := (List.mem_filter.mp hother).2
          rw [hsame, hkeep] at hout
          cases hout
      | false =>
          rw [List.filter_cons_of_pos (by simp [hkeep]),
            List.filter_cons_of_neg (by simp [hkeep]), List.map_cons]
          have hfirst : ((tab :: rest).eraseP fun other => other.path == tab.path) = rest :=
            List.eraseP_cons_of_pos (by simp)
          unfold eraseTabs at ih ⊢
          rw [List.foldl_cons, hfirst]
          exact ih

theorem tabs_closeAll_gonePaths (s : Session) (files : List File) :
    (({ s with files } : Session).closeAll (s.gonePaths files)).tabs =
      s.tabs.filter fun tab => File.existsAt files tab.path := by
  rw [tabs_closeAll]
  exact eraseTabs_filter (File.existsAt files) s.tabs

/-!
## All tabs
-/

theorem tabs_openConfig (s : Session) :
    s.openConfig.2.tabs = s.tabs ++ s.configTabs s.files := by
  unfold openConfig configTabs file?
  split
  · exact (List.append_nil _).symm
  · cases File.find? s.files File.mainConfigPath with
    | none => exact (List.append_nil _).symm
    | some config => rfl

theorem isOpen_markDirty (s : Session) (path : String) :
    s.markDirty.2.isOpen path = s.isOpen path := by
  unfold markDirty isOpen
  rw [List.any_map]
  rfl

theorem isOpen_config_of_kept {s t : Session} {files : List File}
    (h : t.tabs = s.tabs.filter fun tab => File.existsAt files tab.path)
    (hconfig : File.existsAt files File.mainConfigPath = true) :
    t.isOpen File.mainConfigPath = s.isOpen File.mainConfigPath := by
  rw [Bool.eq_iff_iff, isOpen_iff, isOpen_iff]
  unfold openPaths
  rw [h, List.mem_map, List.mem_map]
  constructor
  · rintro ⟨tab, hmem, hpath⟩
    exact ⟨tab, (List.mem_filter.mp hmem).1, hpath⟩
  · rintro ⟨tab, hmem, hpath⟩
    refine ⟨tab, List.mem_filter.mpr ⟨hmem, ?_⟩, hpath⟩
    rw [hpath]
    exact hconfig

theorem configTabs_congr {s t : Session} {files : List File}
    (hopen : File.existsAt files File.mainConfigPath = true →
      t.isOpen File.mainConfigPath = s.isOpen File.mainConfigPath)
    (hbaseline : t.baseline = s.baseline) : t.configTabs files = s.configTabs files := by
  unfold configTabs
  rw [hbaseline]
  cases hfound : File.find? files File.mainConfigPath with
  | none => simp
  | some config => rw [hopen (File.existsAt_of_find? hfound)]

/-- After the files were replaced, the tabs of files that are still there are dirty, and the main
configuration is open. -/
theorem tabs_replaceFiles (s : Session) (files : List File) :
    (s.replaceFiles files).2.tabs = s.replacedTabs files := by
  have hkept := tabs_closeAll_gonePaths s files
  rcases closeAll_eq { s with files } (s.gonePaths files) with ⟨tabs, active, board, hclosed⟩
  rw [hclosed] at hkept
  rw [snd_replaceFiles, hclosed, tabs_openConfig]
  have hconfig : (markDirty { s with files, tabs, active, board }).2.configTabs files =
      s.configTabs files := by
    apply configTabs_congr
    · intro hexists
      rw [isOpen_markDirty]
      exact isOpen_config_of_kept hkept hexists
    · rfl
  unfold replacedTabs
  rw [← hkept, ← hconfig]
  rfl

theorem paths_dirty_markDirty (s : Session) :
    (s.markDirty.2.tabs.filter Tab.dirty).map Tab.path = s.markDirty.1 := by
  unfold markDirty
  rw [List.filter_map, List.map_map]
  have hall : s.tabs.filter (Tab.dirty ∘ Tab.edited) = s.tabs :=
    List.filter_eq_self.mpr fun _ _ => rfl
  rw [hall]
  rfl

theorem paths_dirty_singleton (tab : Tab) :
    ([tab].filter Tab.dirty).map Tab.path = if tab.dirty then [tab.path] else [] := by
  rw [List.filter_cons, List.filter_nil]
  split
  · rfl
  · rfl

theorem paths_dirty_openConfig (s : Session) :
    (s.openConfig.2.tabs.filter Tab.dirty).map Tab.path =
      (s.tabs.filter Tab.dirty).map Tab.path ++ s.openConfig.1 := by
  unfold openConfig
  split
  · exact (List.append_nil _).symm
  · split
    · exact (List.append_nil _).symm
    · rw [List.filter_append, List.map_append]
      exact congrArg (_ ++ ·) (paths_dirty_singleton _)

/-- What is told to have become dirty are the tabs that are dirty in the end. -/
theorem fst_replaceFiles (s : Session) (files : List File) :
    (s.replaceFiles files).1 =
      { dirty := ((s.replaceFiles files).2.tabs.filter Tab.dirty).map Tab.path
        closed := s.gonePaths files } := by
  rw [snd_replaceFiles, paths_dirty_openConfig, paths_dirty_markDirty]
  rfl

/-!
## Restores
-/

/-- What a restore makes of a session, given the files of the version and the files of the session
as they were last saved. -/
structure Restored (s : Session) (saved files : List File) (report : RestoreReport)
    (next : Session) : Prop where
  files_eq : next.files = files
  /-- The tabs whose file is among those of the version are dirty and keep their order. The main
  configuration is opened behind them, dirty if it is not as it was last saved. -/
  tabs_eq : ∃ config, File.find? files File.mainConfigPath = some config ∧
    next.tabs = (s.tabs.filter fun tab => File.existsAt files tab.path).map Tab.edited ++
      if s.isOpen File.mainConfigPath then []
      else
        [{ Tab.ofFile config with
          dirty := decide
            (BundleDiff.lastContent? saved File.mainConfigPath ≠ some config.content) }]
  dirty_eq : report.replacement.dirty = (next.tabs.filter Tab.dirty).map Tab.path
  closed_eq : report.replacement.closed =
    s.openPaths.filter fun path => !File.existsAt files path
  stencilId_eq : next.stencilId = s.stencilId
  serial_eq : next.serial = s.serial
  versions_eq : next.versions = s.versions
  baseline_eq : next.baseline = s.baseline

theorem installed_eq (s : Session) (files : List File) (board : FindingBoard) :
    ∃ active, s.installed files board =
      { s with
        files
        settings := (settingsIn? files).getD s.settings
        tabs := s.replacedTabs files
        active
        board } := by
  have htabs := tabs_replaceFiles s files
  rcases replaceFiles_eq s files with ⟨tabs, active, replaced, hreplaced⟩
  rw [hreplaced] at htabs
  have hsame : tabs = s.replacedTabs files := htabs
  refine ⟨active, ?_⟩
  unfold installed
  rw [hreplaced, hsame]

theorem report_install (s : Session) (files : List File) :
    (s.install files).1 =
      { dirty := ((s.replacedTabs files).filter Tab.dirty).map Tab.path
        closed := s.gonePaths files } := by
  show (s.replaceFiles files).1 = _
  rw [fst_replaceFiles, tabs_replaceFiles]

/-- If the checksums do not take two contents for the same, the main configuration is opened dirty
exactly if it differs from the one that was last saved. -/
theorem configTabs_eq {s : Session} {saved files : List File} {config : File}
    (hconfig : File.find? files File.mainConfigPath = some config)
    (hbaseline : s.baseline.get? File.mainConfigPath =
      (BundleDiff.lastContent? saved File.mainConfigPath).map Checksum.ofText)
    (hcollision : ∀ content, BundleDiff.lastContent? saved File.mainConfigPath = some content →
      Checksum.ofText content = Checksum.ofText config.content → content = config.content) :
    s.configTabs files =
      if s.isOpen File.mainConfigPath then []
      else
        [{ Tab.ofFile config with
          dirty := decide
            (BundleDiff.lastContent? saved File.mainConfigPath ≠ some config.content) }] := by
  have hdirty : (s.baseline.get? File.mainConfigPath != some (Checksum.ofText config.content)) =
      decide (BundleDiff.lastContent? saved File.mainConfigPath ≠ some config.content) := by
    rw [hbaseline]
    cases hsaved : BundleDiff.lastContent? saved File.mainConfigPath with
    | none => rfl
    | some content =>
        have hsum : Checksum.ofText content = Checksum.ofText config.content ↔
            content = config.content := by
          constructor
          · exact hcollision content hsaved
          · exact congrArg Checksum.ofText
        by_cases hsame : content = config.content
        · simp [hsame]
        · simp [hsame, hsum]
  unfold configTabs
  rw [hconfig]
  simp only [hdirty]

theorem restored_of_snapshot {service : StoreService σ} {s : Session} {serial : Serial}
    {store after : σ} {version : Snapshot} {saved : List File}
    (hanswer : service.snapshot s.stencilId serial store = (.ok version, after))
    {config : File} (hconfig : File.find? version.files File.mainConfigPath = some config)
    (hbaseline : s.baseline.get? File.mainConfigPath =
      (BundleDiff.lastContent? saved File.mainConfigPath).map Checksum.ofText)
    (hcollision : ∀ content, BundleDiff.lastContent? saved File.mainConfigPath = some content →
      Checksum.ofText content = Checksum.ofText config.content → content = config.content) :
    ∃ report next, s.restore service serial store = ((.ok report, next), after) ∧
      report.serial = serial ∧ s.Restored saved version.files report next := by
  rcases install_eq s version.files with ⟨board, hinstall⟩
  rcases installed_eq s version.files board with ⟨active, hinstalled⟩
  rw [hinstalled] at hinstall
  refine ⟨_, _, restore_of_ok hanswer, rfl, ?_⟩
  rw [hinstall, report_install]
  constructor
  · rfl
  · refine ⟨config, hconfig, ?_⟩
    show s.replacedTabs version.files = _
    unfold replacedTabs
    rw [configTabs_eq hconfig hbaseline hcollision]
  · rfl
  · show (s.tabs.filter fun tab => !File.existsAt version.files tab.path).map Tab.path = _
    unfold openPaths
    rw [List.filter_map]
    rfl
  · rfl
  · rfl
  · rfl
  · rfl

end Session
end StencilDesk
