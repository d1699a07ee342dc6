import StencilDesk.Proofs.Bundle.Storable
import StencilDesk.Proofs.Session.Restore
import StencilDesk.Proofs.Session.Tabs

/-!
# Every tab shows a file of its own

No two tabs share a path, and there is a file at the path of every tab. That holds on any files,
even if some of them share a path.
-/

namespace StencilDesk

namespace File

theorem existsAt_iff_mem_paths {files : List File} {path : String} :
    existsAt files path = true ↔ path ∈ files.map File.path := by
  rw [existsAt_iff, List.mem_map]

theorem existsAt_of_paths_eq {files next : List File} {path : String}
    (h : next.map File.path = files.map File.path) (hexists : existsAt files path = true) :
    existsAt next path = true := by
  rw [existsAt_iff_mem_paths] at hexists ⊢
  rw [h]
  exact hexists

theorem existsAt_append_left {files : List File} (others : List File) {path : String}
    (h : existsAt files path = true) : existsAt (files ++ others) path = true := by
  rw [existsAt_append, h, Bool.true_or]

end File

namespace Bundle

theorem existsAt_of_moveFile {files next : List File} {path new : String}
    (h : moveFile files path new = .ok next) :
    File.existsAt next new = true ∧ ∀ other, other ≠ path → File.existsAt files other = true →
      File.existsAt next other = true := by
  rcases moveFile_eq_ok h with ⟨_, _, hexists, ⟨hsame, hkept⟩ | ⟨_, _, _, hnext⟩⟩
  · rw [hkept, ← hsame]
    exact ⟨hexists, fun _ _ hother => hother⟩
  · have hthere : File.existsAt next new = true := by
      rcases File.exists_of_existsAt hexists with ⟨file, hfile⟩
      rw [hnext]
      exact existsAt_replaceFirst (f := fun file => file.moved new) hfile
    refine ⟨hthere, ?_⟩
    intro other hne hother
    by_cases hnew : other = new
    · rw [hnew]
      exact hthere
    · rw [File.existsAt_eq_isSome] at hother ⊢
      rw [hnext, find?_replaceFirst_of_ne files hne fun _ _ => Ne.symm hnew]
      exact hother

theorem not_existsAt_of_moveFile {files next : List File} {path new : String}
    (h : moveFile files path new = .ok next) (hne : path ≠ new) :
    File.existsAt files new = false := by
  rcases moveFile_eq_ok h with ⟨_, _, _, ⟨hsame, _⟩ | ⟨_, _, htaken, _⟩⟩
  · exact absurd hsame hne
  · exact existsAt_of_not_isTaken htaken

end Bundle

namespace Session

variable {σ : Type}

/-- Holds if no two tabs share a path, and each of them shows a file. -/
structure Anchored (s : Session) : Prop where
  distinct : s.openPaths.Nodup
  backed : ∀ path ∈ s.openPaths, File.existsAt s.files path = true

section
variable {s next : Session}

theorem Anchored.of_paths_eq (h : s.Anchored) (hpaths : next.openPaths = s.openPaths)
    (hkept : ∀ path, File.existsAt s.files path = true → File.existsAt next.files path = true) :
    next.Anchored := by
  constructor
  · rw [hpaths]
    exact h.distinct
  · intro path hopen
    rw [hpaths] at hopen
    exact hkept path (h.backed path hopen)

theorem mem_openPaths_tabsOpening {file : File} {path : String} :
    path ∈ (s.tabsOpening file).map Tab.path ↔ path ∈ s.openPaths ∨ path = file.path := by
  unfold tabsOpening
  split
  · rename_i hopen
    constructor
    · exact .inl
    · rintro (hold | hsame)
      · exact hold
      · rw [hsame]
        exact isOpen_iff.mp hopen
  · rw [List.map_append, List.mem_append, List.map_singleton, List.mem_singleton]
    rfl

theorem nodup_tabsOpening (h : s.Anchored) (file : File) :
    ((s.tabsOpening file).map Tab.path).Nodup := by
  unfold tabsOpening
  split
  · exact h.distinct
  · rename_i hclosed
    rw [List.map_append, List.map_singleton, ← List.concat_eq_append]
    exact h.distinct.concat (mt isOpen_iff.mpr hclosed)

theorem Anchored.opening (h : s.Anchored) {file : File}
    (htabs : next.tabs = s.tabsOpening file)
    (hkept : ∀ path, File.existsAt s.files path = true → File.existsAt next.files path = true)
    (hfile : File.existsAt next.files file.path = true) : next.Anchored := by
  constructor
  · unfold openPaths
    rw [htabs]
    exact nodup_tabsOpening h file
  · intro path hopen
    unfold openPaths at hopen
    rw [htabs, mem_openPaths_tabsOpening] at hopen
    rcases hopen with hold | hnew
    · exact hkept path (h.backed path hold)
    · rw [hnew]
      exact hfile

theorem Anchored.removing (h : s.Anchored) {path : String}
    (htabs : next.tabs = s.tabs.eraseP fun tab => tab.path == path)
    (hkept : ∀ other, other ≠ path → File.existsAt s.files other = true →
      File.existsAt next.files other = true) : next.Anchored := by
  have hpaths : next.openPaths = s.openPaths.filter fun other => other != path := by
    rw [← openPaths_removeTab path h.distinct]
    exact congrArg (List.map Tab.path) htabs
  constructor
  · rw [hpaths]
    exact h.distinct.filter _
  · intro other hopen
    rw [hpaths, List.mem_filter, bne_iff_ne] at hopen
    exact hkept other hopen.2 (h.backed other hopen.1)

/-- No tab has the path to which another file is moved. -/
theorem Anchored.not_mem_of_moveFile (h : s.Anchored) {files : List File} {path new : String}
    (hmove : Bundle.moveFile s.files path new = .ok files) (hne : path ≠ new) :
    new ∉ s.openPaths := by
  intro hopen
  have hfree := Bundle.not_existsAt_of_moveFile hmove hne
  rw [h.backed new hopen] at hfree
  cases hfree

theorem Anchored.moving (h : s.Anchored) {files : List File} {path new : String}
    (hmove : Bundle.moveFile s.files path new = .ok files) (hne : path ≠ new)
    (hopen : s.isOpen path = true) (htabs : next.tabs = replaceTab path (movedTab new) s.tabs)
    (hfiles : next.files = files) : next.Anchored := by
  have hnew := h.not_mem_of_moveFile hmove hne
  have hpaths : next.openPaths = s.openPaths.map (movedPath path new) := by
    unfold openPaths
    rw [htabs]
    exact paths_replaceTab_movedTab h.distinct
  rcases Bundle.existsAt_of_moveFile hmove with ⟨hthere, hothers⟩
  constructor
  · rw [hpaths]
    exact nodup_map_movedPath h.distinct hnew
  · intro other hmem
    rw [hpaths, movedPath_mem_iff (isOpen_iff.mp hopen)] at hmem
    rw [hfiles]
    rcases hmem with hsame | ⟨hold, hother⟩
    · rw [hsame]
      exact hthere
    · exact hothers other hother (h.backed other hold)

theorem nodup_replacedTabs (h : s.Anchored) (files : List File) :
    ((s.replacedTabs files).map Tab.path).Nodup := by
  have hkept : ((s.tabs.filter fun tab => File.existsAt files tab.path).map Tab.edited).map
      Tab.path = s.openPaths.filter fun path => File.existsAt files path := by
    unfold openPaths
    rw [List.map_map, List.filter_map]
    rfl
  unfold replacedTabs
  rw [List.map_append, hkept]
  unfold configTabs
  split
  · rw [List.map_nil, List.append_nil]
    exact h.distinct.filter _
  · rename_i hclosed
    split
    · rw [List.map_nil, List.append_nil]
      exact h.distinct.filter _
    · rename_i config hconfig
      rw [List.map_singleton, ← List.concat_eq_append]
      apply (h.distinct.filter _).concat
      intro hmem
      apply hclosed
      rw [isOpen_iff, ← (File.of_find?_eq_some hconfig).2]
      exact (List.mem_filter.mp hmem).1

theorem existsAt_of_mem_replacedTabs {files : List File} {tab : Tab}
    (h : tab ∈ s.replacedTabs files) : File.existsAt files tab.path = true := by
  unfold replacedTabs at h
  rcases List.mem_append.mp h with hkept | hnew
  · rcases List.mem_map.mp hkept with ⟨old, hold, hedited⟩
    rw [← hedited]
    exact (List.mem_filter.mp hold).2
  · unfold configTabs at hnew
    split at hnew
    · cases hnew
    · split at hnew
      · cases hnew
      · rename_i config hconfig
        rw [List.mem_singleton.mp hnew]
        exact File.existsAt_iff.mpr ⟨config, (File.of_find?_eq_some hconfig).1, rfl⟩

theorem Anchored.installed (h : s.Anchored) (files : List File) (board : FindingBoard) :
    (s.installed files board).Anchored := by
  rcases installed_eq s files board with ⟨active, hinstalled⟩
  rw [hinstalled]
  constructor
  · exact nodup_replacedTabs h files
  · intro path hopen
    rcases List.mem_map.mp hopen with ⟨tab, hmem, hpath⟩
    rw [← hpath]
    exact existsAt_of_mem_replacedTabs hmem

/-!
## All operations
-/

theorem Anchored.effect (h : s.Anchored) {service : StoreService σ} {store : σ}
    {operation : Operation} (heffect : Effect service s store operation next) :
    next.Anchored := by
  cases heffect with
  | none _ => exact h
  | expect _ _ | activate _ | setVersions _ => exact h.of_paths_eq rfl fun _ hexists => hexists
  | openFile hfile _ =>
      exact h.opening rfl (fun _ hexists => hexists)
        (File.existsAt_iff.mpr ⟨_, (File.of_find?_eq_some hfile).1, rfl⟩)
  | edit _ _ _ _ =>
      rename_i path content _ _ _ _ _
      have hpaths : (replaceTab path Tab.edited s.tabs).map Tab.path = s.openPaths :=
        paths_replaceTab_of_eq fun _ => rfl
      have hfiles : ∀ other, File.existsAt s.files other = true → File.existsAt
          (Bundle.replaceFirst path (fun file => { file with content }) s.files) other = true :=
        fun _ => File.existsAt_of_paths_eq (Bundle.paths_replaceFirst s.files fun _ => rfl)
      exact h.of_paths_eq hpaths hfiles
  | close _ _ => exact h.removing rfl fun _ _ hexists => hexists
  | createFile hcreate _ =>
      rw [(Bundle.createFile_eq_ok hcreate).2.2.2.2]
      refine h.opening rfl (fun _ => File.existsAt_append_left _) ?_
      rw [File.existsAt_append]
      simp [File.existsAt]
  | createFolder hcreate =>
      rw [(Bundle.createFile_eq_ok (Bundle.createFolder_eq_ok hcreate).2.2).2.2.2.2]
      exact h.of_paths_eq rfl fun _ => File.existsAt_append_left _
  | moveFile hmove hclosed =>
      refine ⟨h.distinct, ?_⟩
      intro other hopen
      rename_i path new files
      have hopen : other ∈ s.openPaths := hopen
      rcases Bundle.existsAt_of_moveFile hmove with ⟨hthere, hothers⟩
      by_cases hother : other = path
      -- An open file is only moved to where it is.
      · rcases hclosed with hsame | hclosed
        · rw [hother, hsame]
          exact hthere
        · rw [hother, ← isOpen_iff, hclosed] at hopen
          cases hopen
      · exact hothers other hother (h.backed other hopen)
  | moveOpenFile hmove hne hopen _ => exact h.moving hmove hne hopen rfl rfl
  | deleteFile hdelete _ =>
      rename_i path files
      apply h.removing rfl
      intro other hne hexists
      rw [Bundle.deleteFile_eq_ok hdelete]
      rw [File.existsAt_eq_isSome, File.find?_filter_of_ne _ hne, ← File.existsAt_eq_isSome]
      exact hexists
  | install files board => exact h.installed files board
  | restore _ board => exact h.installed _ board
  | save _ _ _ =>
      have hpaths : (s.tabs.map Tab.saved).map Tab.path = s.openPaths := by
        rw [List.map_map]
        rfl
      exact h.of_paths_eq hpaths fun _ hexists => hexists

theorem anchored_of_begins {P : List File → Prop} (h : s.Begins P) : s.Anchored := by
  cases h with
  | start _ _ => exact ⟨List.nodup_nil, fun _ hopen => by cases hopen⟩
  | loaded _ => exact ⟨List.nodup_nil, fun _ hopen => by cases hopen⟩

theorem Anchored.run (h : s.Anchored) (service : StoreService σ) (operations : List Operation)
    (store : σ) : (s.run service operations store).1.Anchored := by
  apply run_preserves store _ h
  intro s operation store _ hs
  exact hs.effect (effect_perform service s store operation)
end

end Session
end StencilDesk
