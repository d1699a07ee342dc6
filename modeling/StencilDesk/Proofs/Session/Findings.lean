import StencilDesk.Proofs.Session.Restore

/-!
# Where an operation changes the findings

An operation checks the files that it works on, and takes away the findings of tabs that it closes.
The findings at all other paths stay as they are.
-/

namespace StencilDesk
namespace Session

variable {σ : Type} {s next : Session} {path other : String}

/-!
## Operations on single files
-/

theorem findings_removeTab (h : other ≠ path) :
    (s.removeTab path).findings other = s.findings other :=
  FindingBoard.findings_remove_of_ne s.board h

theorem findings_openFile (hopened : s.openFile path = .ok next) (h : other ≠ path) :
    next.findings other = s.findings other := by
  unfold openFile at hopened
  cases hfile : s.file? path with
  | none =>
      rw [hfile] at hopened
      cases hopened
  | some file =>
      rw [hfile] at hopened
      cases hopened
      show Session.findings (if s.isOpen path then s else _) other = _
      split
      · rfl
      · exact findings_lint_of_ne _ h

theorem findings_activate (hactivated : s.activate path = .ok next) :
    next.findings other = s.findings other := by
  rw [(activate_eq_ok hactivated).2]
  rfl

theorem findings_edit {content : String} (hedited : s.edit path content = .ok next)
    (h : other ≠ path) : next.findings other = s.findings other := by
  unfold edit at hedited
  split at hedited
  · cases hedited
  · split at hedited
    · cases hedited
    · split at hedited
      · cases hedited
      · cases hedited
        exact findings_lint_of_ne _ h

theorem findings_close {confirmed : Bool} {outcome : CloseOutcome}
    (hclosed : s.close path confirmed = (outcome, next)) (h : other ≠ path) :
    next.findings other = s.findings other := by
  cases outcome with
  | closed active =>
      rcases close_eq_closed hclosed with ⟨_, _, _, hnext⟩
      rw [hnext]
      exact findings_removeTab h
  | needsConfirmation => rw [close_of_not_closed hclosed (by simp)]
  | notOpen => rw [close_of_not_closed hclosed (by simp)]

theorem findings_deleteFile {found : Bool} (hdeleted : s.deleteFile path = (found, next))
    (h : other ≠ path) : next.findings other = s.findings other := by
  unfold deleteFile at hdeleted
  split at hdeleted
  · cases hdeleted
    rfl
  · cases hdeleted
    refine (FindingBoard.findings_remove_of_ne _ h).trans ?_
    show Session.findings (if _ then _ else _) other = _
    split
    · exact findings_removeTab h
    · rfl

theorem findings_createFile {parent name : String} {answer : Except SessionFault String}
    (hcreated : s.createFile parent name = (answer, next)) (h : other ≠ Path.join parent name) :
    next.findings other = s.findings other := by
  unfold createFile at hcreated
  split at hcreated
  · cases hcreated
    rfl
  · rename_i files _
    dsimp only at hcreated
    split at hcreated
    · cases hcreated
      rfl
    · rename_i opened hopened
      cases hcreated
      show _ = ({ s with files } : Session).findings other
      exact findings_openFile hopened h

theorem path_of_createFile {parent name : String}
    (hcreated : s.createFile parent name = (.ok path, next)) : path = Path.join parent name := by
  unfold createFile at hcreated
  split at hcreated
  · cases hcreated
  · dsimp only at hcreated
    split at hcreated
    · cases hcreated
    · cases hcreated
      rfl

theorem findings_createFolder {parent name created : String}
    (hcreated : s.createFolder parent name = .ok (created, next)) :
    next.findings other = s.findings other := by
  unfold createFolder at hcreated
  cases hfiles : Bundle.createFolder s.files parent name with
  | error fault =>
      rw [hfiles] at hcreated
      cases hcreated
  | ok files =>
      rw [hfiles] at hcreated
      cases hcreated
      rfl

theorem findings_moveFile {new : String} (hmoved : s.moveFile path new = .ok next)
    (hpath : other ≠ path) (hnew : other ≠ new) : next.findings other = s.findings other := by
  unfold moveFile at hmoved
  cases hfiles : Bundle.moveFile s.files path new with
  | error fault =>
      rw [hfiles] at hmoved
      cases hmoved
  | ok files =>
      rw [hfiles] at hmoved
      simp only at hmoved
      split at hmoved
      · cases hmoved
        rfl
      · cases hmoved
        exact (findings_lint_of_ne _ hnew).trans
          (FindingBoard.findings_rename_of_ne s.board hpath hnew)

/-!
## Operations on all files
-/

theorem openPaths_lintTabs (s : Session) : s.lintTabs.openPaths = s.openPaths := by
  rcases lintTabs_eq s with ⟨board, hlint⟩
  rw [hlint]
  rfl

theorem findings_lintTabs (h : path ∉ s.lintTabs.openPaths) :
    s.lintTabs.findings path = s.findings path := by
  rw [openPaths_lintTabs] at h
  exact (findings_foldl_lint s s.openPaths path).trans (if_neg h)

theorem findings_expect (expected : List String) (h : path ∉ (s.expect expected).openPaths) :
    (s.expect expected).findings path = s.findings path :=
  findings_lintTabs h

theorem findings_closeAll (s : Session) (paths : List String) (path : String) :
    (s.closeAll paths).findings path = if path ∈ paths then [] else s.findings path := by
  induction paths generalizing s with
  | nil => rfl
  | cons first rest ih =>
      have hrest := ih (s.removeTab first)
      show ((s.removeTab first).closeAll rest).findings path = _
      rw [hrest]
      by_cases hmem : path ∈ rest
      · rw [if_pos hmem, if_pos (List.mem_cons_of_mem _ hmem)]
      · rw [if_neg hmem]
        by_cases hfirst : path = first
        · rw [if_pos (by simp [hfirst]), hfirst]
          exact FindingBoard.findings_remove_self s.board first
        · rw [if_neg (by simp [hfirst, hmem])]
          exact findings_removeTab hfirst

theorem findings_replaceFiles (s : Session) (files : List File) (path : String) :
    (s.replaceFiles files).2.findings path =
      if path ∈ s.gonePaths files then [] else s.findings path := by
  rcases openConfig_eq (markDirty (({ s with files } : Session).closeAll (s.gonePaths files))).2
    with ⟨tabs, active, hopened⟩
  rw [snd_replaceFiles, hopened]
  exact findings_closeAll { s with files } (s.gonePaths files) path

/-- Where no tab is open after all files were replaced, the findings stay, but for those of tabs
that were closed. -/
theorem findings_install (s : Session) (files : List File) {path : String}
    (h : path ∉ (s.install files).2.openPaths) :
    (s.install files).2.findings path =
      if path ∈ s.gonePaths files then [] else s.findings path := by
  rw [← findings_replaceFiles]
  exact findings_lintTabs h

theorem existsAt_of_open_install {files : List File}
    (h : path ∈ (s.install files).2.openPaths) : File.existsAt files path = true := by
  have htabs : path ∈ (s.replacedTabs files).map Tab.path := by
    rw [snd_install, openPaths_lintTabs] at h
    rw [← tabs_replaceFiles]
    exact h
  unfold replacedTabs at htabs
  rw [List.map_append, List.mem_append, List.map_map] at htabs
  rcases htabs with hkept | hconfig
  · rcases List.mem_map.mp hkept with ⟨tab, hmem, hpath⟩
    rw [← hpath]
    exact (List.mem_filter.mp hmem).2
  · unfold configTabs at hconfig
    split at hconfig
    · cases hconfig
    · split at hconfig
      · cases hconfig
      · rename_i config hfound
        rw [List.map_singleton, List.mem_singleton] at hconfig
        rw [hconfig]
        exact File.existsAt_iff.mpr ⟨config, (File.of_find?_eq_some hfound).1, rfl⟩

/-- A tab whose file is gone is closed with its findings. -/
theorem closed_of_gone {files : List File} (h : path ∈ s.gonePaths files) :
    path ∉ (s.install files).2.openPaths ∧ (s.install files).2.findings path = [] := by
  have hclosed : path ∉ (s.install files).2.openPaths := by
    intro hopen
    rcases List.mem_map.mp h with ⟨tab, hmem, hpath⟩
    have hgone := (List.mem_filter.mp hmem).2
    rw [hpath, existsAt_of_open_install hopen] at hgone
    cases hgone
  refine ⟨hclosed, ?_⟩
  rw [findings_install s files hclosed, if_pos h]

theorem findings_save (service : StoreService σ) (author : String) (message : Option String)
    (store : σ) (path : String) :
    (s.save service author message store).1.2.findings path = s.findings path := by
  rcases save_answer_cases service s author message store with ⟨_, hsaved⟩ | ⟨_, _, _, _, hsaved⟩
  · rw [hsaved]
  · rw [hsaved]
    rfl

end Session
end StencilDesk
