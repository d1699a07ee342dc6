import StencilDesk.Proofs.Session.Coherence.Documents

/-!
# Coherence while the bundle changes

A file is created where none was, a moved file takes its tab along to a path that was free, and
with a deleted file its tab is closed.
-/

namespace StencilDesk
namespace Session

theorem Coherent.addFile {s : Session} (h : s.Coherent) {file : File} (hfile : file.Derived)
    (hfree : File.existsAt s.files file.path = false) :
    { s with files := s.files ++ [file] }.Coherent := by
  have hframe : ∀ path ∈ s.openPaths,
      ({ s with files := s.files ++ [file] } : Session).file? path = s.file? path := by
    intro path hopen
    apply File.find?_append_of_ne
    intro hsame
    have hexists := h.backed path hopen
    rw [hsame, hfree] at hexists
    cases hexists
  exact
    { toTidy := h.toTidy.of_eq h.tabsDerived rfl rfl rfl
      filesDerived := by
        intro other hmem
        rcases List.mem_append.mp hmem with hold | hnew
        · exact h.filesDerived other hold
        · rw [List.mem_singleton.mp hnew]
          exact hfile
      backed := fun path hopen => (h.frame hopen (hframe path hopen) rfl rfl).1
      checked := fun path hopen => (h.frame hopen (hframe path hopen) rfl rfl).2 }

theorem Coherent.createdFile {s : Session} (h : s.Coherent) {files : List File}
    {parent name : String} (hcreate : Bundle.createFile s.files parent name = .ok files) :
    { s with files }.Coherent := by
  rcases Bundle.createFile_eq_ok hcreate with ⟨_, _, _, hfree, hfiles⟩
  rw [hfiles]
  exact h.addFile (File.derived_ofPath _ _) (Bundle.existsAt_of_not_isTaken hfree)

theorem Coherent.createFile {s : Session} (h : s.Coherent) (parent name : String) :
    (s.createFile parent name).2.Coherent := by
  unfold Session.createFile
  cases hcreate : Bundle.createFile s.files parent name with
  | error fault => exact h
  | ok files =>
      have hcreated := h.createdFile hcreate
      cases hopen : ({ s with files } : Session).openFile (Path.join parent name) with
      | error fault => simpa [hopen] using hcreated
      | ok next => simpa [hopen] using hcreated.openFile hopen

theorem Coherent.createFolder {s : Session} (h : s.Coherent) (parent name : String) :
    (s.afterResult ((s.createFolder parent name).map Prod.snd)).Coherent := by
  unfold Session.createFolder
  cases hcreate : Bundle.createFolder s.files parent name with
  | error fault => exact h
  | ok files =>
      rcases Bundle.createFolder_eq_ok hcreate with ⟨_, _, hplaceholder⟩
      exact h.createdFile hplaceholder

theorem derived_movedTab (new : String) (tab : Tab) : (movedTab new tab).Derived := by
  constructor <;> simp only [movedTab]

theorem Tidy.moving {s : Session} (h : s.Tidy) {path new : String} (hopen : path ∈ s.openPaths)
    (hne : path ≠ new) (hnew : new ∉ s.openPaths) :
    { s with
      tabs := replaceTab path (movedTab new) s.tabs
      active := if s.active = some path then some new else s.active
      board := s.board.rename path new }.Tidy := by
  have hpaths : (replaceTab path (movedTab new) s.tabs).map Tab.path =
      s.openPaths.map (movedPath path new) := paths_replaceTab_movedTab h.distinct
  constructor
  · intro tab hmem
    rcases mem_replaceTab hmem with hold | ⟨old, _, _, hmoved⟩
    · exact h.tabsDerived tab hold
    · rw [hmoved]
      exact derived_movedTab new old
  · unfold openPaths
    rw [hpaths]
    exact nodup_map_movedPath h.distinct hnew
  · intro active hactive
    unfold openPaths
    rw [hpaths, movedPath_mem_iff hopen]
    by_cases hsame : s.active = some path
    · simp only [if_pos hsame, Option.some.injEq] at hactive
      exact .inl hactive.symm
    · simp only [if_neg hsame] at hactive
      refine .inr ⟨h.activeOpen active hactive, ?_⟩
      intro hpath
      rw [hpath] at hactive
      exact hsame hactive
  · intro hactive
    by_cases hsame : s.active = some path
    · simp [hsame] at hactive
    · simp only [if_neg hsame] at hactive
      rw [h.activeNone hactive] at hopen
      cases hopen
  · intro other hclosed
    unfold openPaths at hclosed
    rw [hpaths, movedPath_mem_iff hopen, not_or, not_and, not_not] at hclosed
    rcases hclosed with ⟨hothernew, hother⟩
    by_cases hsame : other = path
    · rw [hsame]
      exact FindingBoard.findings_rename_old s.board hne
    · have hkept : other ∉ s.openPaths := fun hmem => hsame (hother hmem)
      exact (FindingBoard.findings_rename_of_ne s.board hsame hothernew).trans
        (h.closedClean other hkept)

theorem derived_of_replaceFirst_moved {files : List File} {path new : String}
    (h : File.AllDerived files) :
    File.AllDerived (Bundle.replaceFirst path (fun file => file.moved new) files) := by
  intro file hmem
  rcases Bundle.mem_replaceFirst hmem with hold | ⟨old, _, _, hmoved⟩
  · exact h file hold
  · rw [hmoved]
    exact File.derived_moved old new

theorem Coherent.movingClosed {s : Session} (h : s.Coherent) {path new : String}
    (hpath : path ∉ s.openPaths) (hnew : new ∉ s.openPaths) :
    { s with
      files := Bundle.replaceFirst path (fun file => file.moved new) s.files }.Coherent := by
  have hothers : ∀ other ∈ s.openPaths,
      ({ s with
        files := Bundle.replaceFirst path (fun file => file.moved new) s.files } : Session).file?
          other = s.file? other := by
    intro other hmem
    apply file?_replaceFirst_of_ne rfl
    · intro hsame
      rw [hsame] at hmem
      exact hpath hmem
    · intro _ _ hsame
      rw [← hsame] at hmem
      exact hnew hmem
  exact
    { toTidy := h.toTidy.of_eq h.tabsDerived rfl rfl rfl
      filesDerived := derived_of_replaceFirst_moved h.filesDerived
      backed := fun other hmem => (h.frame hmem (hothers other hmem) rfl rfl).1
      checked := fun other hmem => (h.frame hmem (hothers other hmem) rfl rfl).2 }

theorem Coherent.movingOpen {s : Session} (h : s.Coherent) {path new : String}
    (hopen : path ∈ s.openPaths) (hne : path ≠ new) (hnew : new ∉ s.openPaths)
    (hexists : File.existsAt s.files path = true) :
    ({ s with
      files := Bundle.replaceFirst path (fun file => file.moved new) s.files
      tabs := replaceTab path (movedTab new) s.tabs
      active := if s.active = some path then some new else s.active
      board := s.board.rename path new }.lint new).Coherent := by
  have htidy := h.toTidy.moving hopen hne hnew
  have hpaths : (replaceTab path (movedTab new) s.tabs).map Tab.path =
      s.openPaths.map (movedPath path new) := paths_replaceTab_movedTab h.distinct
  apply Tidy.lint
  · exact ⟨htidy.tabsDerived, htidy.distinct, htidy.activeOpen, htidy.activeNone,
      htidy.closedClean⟩
  · exact derived_of_replaceFirst_moved h.filesDerived
  · unfold openPaths
    rw [hpaths, movedPath_mem_iff hopen]
    exact .inl rfl
  · rcases File.exists_of_existsAt hexists with ⟨file, hfile⟩
    exact Bundle.existsAt_replaceFirst (f := fun file => file.moved new) hfile
  · intro other hother hothernew
    unfold openPaths at hother
    rw [hpaths, movedPath_mem_iff hopen] at hother
    rcases hother with hsame | ⟨hmem, hpath⟩
    · exact absurd hsame hothernew
    · apply h.frame hmem
      · exact file?_replaceFirst_of_ne rfl hpath fun _ _ => Ne.symm hothernew
      · rfl
      · exact FindingBoard.findings_rename_of_ne s.board hpath hothernew

theorem Coherent.moveFile {s next : Session} (h : s.Coherent) {path new : String}
    (hmove : s.moveFile path new = .ok next) : next.Coherent := by
  unfold Session.moveFile at hmove
  cases hfiles : Bundle.moveFile s.files path new with
  | error fault =>
      rw [hfiles] at hmove
      cases hmove
  | ok files =>
      rw [hfiles] at hmove
      rcases Bundle.moveFile_eq_ok hfiles with ⟨_, _, hexists, ⟨hsame, hkept⟩ | hmoved⟩
      · simp only [hsame, decide_true, Bool.true_or, if_true, Except.ok.injEq] at hmove
        rw [← hmove, hkept]
        exact h
      · rcases hmoved with ⟨hne, _, htaken, hfilesEq⟩
        have hfree : File.existsAt s.files new = false := Bundle.existsAt_of_not_isTaken htaken
        have hclosed : new ∉ s.openPaths := by
          intro hopen
          rw [h.backed new hopen] at hfree
          cases hfree
        by_cases htab : s.isOpen path = true
        · simp only [hne, decide_false, htab, Bool.not_true, Bool.or_false, Bool.false_eq_true,
            if_false, Except.ok.injEq] at hmove
          rw [← hmove, hfilesEq]
          exact h.movingOpen (isOpen_iff.mp htab) hne hclosed hexists
        · simp only [hne, decide_false, htab, Bool.not_false, Bool.or_true, if_true,
            Except.ok.injEq] at hmove
          rw [← hmove, hfilesEq]
          apply h.movingClosed _ hclosed
          intro hopen
          exact htab (isOpen_iff.mpr hopen)

theorem Coherent.withoutFile {s : Session} (h : s.Coherent) {path : String}
    (hclosed : path ∉ s.openPaths) :
    { s with
      files := s.files.filter fun file => file.path != path
      board := s.board.remove path }.Coherent := by
  have hne : ∀ other ∈ s.openPaths, other ≠ path := fun other hmem hsame => hclosed (hsame ▸ hmem)
  have hframe : ∀ other ∈ s.openPaths,
      ({ s with
        files := s.files.filter fun file => file.path != path
        board := s.board.remove path } : Session).file? other = s.file? other :=
    fun other hmem => File.find?_filter_of_ne s.files (hne other hmem)
  have hboard : ∀ other ∈ s.openPaths, (s.board.remove path).findings other = s.findings other :=
    fun other hmem => FindingBoard.findings_remove_of_ne s.board (hne other hmem)
  exact
    { tabsDerived := h.tabsDerived
      distinct := h.distinct
      activeOpen := h.activeOpen
      activeNone := h.activeNone
      closedClean := by
        intro other hother
        by_cases hsame : other = path
        · rw [hsame]
          exact FindingBoard.findings_remove_self s.board path
        · exact (FindingBoard.findings_remove_of_ne s.board hsame).trans
            (h.closedClean other hother)
      filesDerived := fun file hmem => h.filesDerived file (List.mem_filter.mp hmem).1
      backed := fun other hmem =>
        (h.frame hmem (hframe other hmem) rfl (hboard other hmem)).1
      checked := fun other hmem =>
        (h.frame hmem (hframe other hmem) rfl (hboard other hmem)).2 }

theorem Coherent.deleteFile {s : Session} (h : s.Coherent) (path : String) :
    (s.deleteFile path).2.Coherent := by
  unfold Session.deleteFile
  cases hdelete : Bundle.deleteFile s.files path with
  | error fault => exact h
  | ok files =>
      rw [Bundle.deleteFile_eq_ok hdelete]
      by_cases htab : ({ s with
          files := s.files.filter fun file => file.path != path } : Session).isOpen path = true
      · simp only [if_pos htab]
        apply (h.removeTab path).withoutFile
        rw [mem_openPaths_removeTab h.distinct]
        exact fun hopen => hopen.2 rfl
      · simp only [if_neg htab]
        apply h.withoutFile
        intro hopen
        exact htab (isOpen_iff.mpr hopen)

end Session
end StencilDesk
