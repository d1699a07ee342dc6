import StencilDesk.Proofs.Session.Coherence.Basic

/-!
# Coherence while files are opened and edited

A new tab shows the file that was found, and an edit changes one file and its tab. Each ends with a
check of that file, so that only the other tabs have to be framed.
-/

namespace StencilDesk
namespace Session

theorem Coherent.activating {s : Session} (h : s.Coherent) {path : String}
    (hopen : path ∈ s.openPaths) : { s with active := some path }.Coherent where
  tabsDerived := h.tabsDerived
  distinct := h.distinct
  activeOpen := by
    intro active hactive
    cases hactive
    exact hopen
  activeNone := by intro hactive; cases hactive
  closedClean := h.closedClean
  filesDerived := h.filesDerived
  backed := h.backed
  checked := h.checked

theorem lint_active (s : Session) (path : String) (active : Option String) :
    { s.lint path with active } = { s with active }.lint path := by
  have hfile : ({ s with active } : Session).file? path = s.file? path := rfl
  unfold lint
  rw [hfile]
  cases s.file? path with
  | none => simp only
  | some file => simp only

theorem openPaths_append_tab (s : Session) (tab : Tab) :
    (s.tabs ++ [tab]).map Tab.path = s.openPaths ++ [tab.path] := by
  rw [List.map_append, List.map_singleton]
  rfl

theorem Tidy.opening {s : Session} (h : s.Tidy) {tab : Tab} (htab : tab.Derived)
    (hclosed : tab.path ∉ s.openPaths) {active : Option String}
    (hactive : active = some tab.path ∨ active = s.active ∧ s.active ≠ none) :
    { s with tabs := s.tabs ++ [tab], active }.Tidy where
  tabsDerived := by
    intro other hmem
    rcases List.mem_append.mp hmem with hold | hnew
    · exact h.tabsDerived other hold
    · rw [List.mem_singleton.mp hnew]
      exact htab
  distinct := by
    unfold openPaths
    rw [openPaths_append_tab]
    exact List.nodup_append_comm.mp (List.nodup_cons.mpr ⟨hclosed, h.distinct⟩)
  activeOpen := by
    intro path hpath
    unfold openPaths
    rw [openPaths_append_tab]
    rcases hactive with hnew | ⟨hold, _⟩
    · cases hnew.symm.trans hpath
      exact List.mem_append_right _ List.mem_cons_self
    · exact List.mem_append_left _ (h.activeOpen path (hold.symm.trans hpath))
  activeNone := by
    intro hnone
    rcases hactive with hnew | ⟨hold, hsome⟩
    · cases hnew.symm.trans hnone
    · exact absurd (hold.symm.trans hnone) hsome
  closedClean := by
    intro path hpath
    unfold openPaths at hpath
    rw [openPaths_append_tab] at hpath
    exact h.closedClean path fun hmem => hpath (List.mem_append_left _ hmem)

theorem Coherent.opening {s : Session} (h : s.Coherent) {path : String} {file : File}
    (hfile : s.file? path = some file) (hclosed : path ∉ s.openPaths) :
    ({ s with tabs := s.tabs ++ [Tab.ofFile file], active := some path }.lint path).Coherent := by
  have hpath : (Tab.ofFile file).path = path := (File.of_find?_eq_some hfile).2
  have hpaths : (s.tabs ++ [Tab.ofFile file]).map Tab.path = s.openPaths ++ [path] := by
    rw [openPaths_append_tab, hpath]
  apply Tidy.lint
  · apply h.toTidy.opening (derived_ofFile h.filesDerived hfile)
    · rw [hpath]
      exact hclosed
    · rw [hpath]
      exact .inl rfl
  · exact h.filesDerived
  · unfold openPaths
    rw [hpaths]
    exact List.mem_append_right _ List.mem_cons_self
  · exact File.existsAt_of_find? hfile
  · intro other hopen hne
    unfold openPaths at hopen
    rw [hpaths] at hopen
    rcases List.mem_append.mp hopen with hold | hnew
    · exact h.frame hold rfl rfl rfl
    · exact absurd (List.mem_singleton.mp hnew) hne

theorem Coherent.openFile {s next : Session} (h : s.Coherent) {path : String}
    (hopen : s.openFile path = .ok next) : next.Coherent := by
  unfold Session.openFile at hopen
  cases hfile : s.file? path with
  | none =>
      rw [hfile] at hopen
      cases hopen
  | some file =>
      rw [hfile] at hopen
      by_cases htab : s.isOpen path = true
      · simp only [if_pos htab, Except.ok.injEq] at hopen
        rw [← hopen]
        exact h.activating (isOpen_iff.mp htab)
      · simp only [if_neg htab, Except.ok.injEq] at hopen
        rw [← hopen, lint_active]
        exact h.opening hfile (mt isOpen_iff.mpr htab)

theorem Coherent.activate {s next : Session} (h : s.Coherent) {path : String}
    (hactivate : s.activate path = .ok next) : next.Coherent := by
  unfold Session.activate at hactivate
  split at hactivate
  · rename_i htab
    cases hactivate
    exact h.activating (isOpen_iff.mp htab)
  · cases hactivate

theorem file?_replaceFirst_of_ne {s t : Session} {path other : String} {f : File → File}
    (hfiles : t.files = Bundle.replaceFirst path f s.files) (hne : other ≠ path)
    (hnew : ∀ file, file.path = path → (f file).path ≠ other) : t.file? other = s.file? other := by
  unfold Session.file?
  rw [hfiles]
  exact Bundle.find?_replaceFirst_of_ne s.files hne hnew

theorem Coherent.editing {s : Session} (h : s.Coherent) {path : String} (content : String)
    (settings : Settings) (hopen : path ∈ s.openPaths) {file : File}
    (hfile : s.file? path = some file) :
    ({ s with
      settings
      files := Bundle.replaceFirst path (fun file => { file with content }) s.files
      tabs := replaceTab path Tab.edited s.tabs }.lint path).Coherent := by
  have hpaths : (replaceTab path Tab.edited s.tabs).map Tab.path = s.openPaths :=
    paths_replaceTab_of_eq fun _ => rfl
  apply Tidy.lint
  · apply h.toTidy.of_eq
    · intro tab hmem
      rcases mem_replaceTab hmem with hold | ⟨old, hold, _, hnew⟩
      · exact h.tabsDerived tab hold
      · rw [hnew]
        exact h.tabsDerived old hold
    · exact hpaths
    · rfl
    · rfl
  · intro changed hmem
    rcases Bundle.mem_replaceFirst hmem with hold | ⟨old, hold, _, hchanged⟩
    · exact h.filesDerived changed hold
    · rw [hchanged]
      exact (h.filesDerived old hold).withContent content
  · unfold openPaths
    rw [hpaths]
    exact hopen
  · have hfound := Bundle.existsAt_replaceFirst (f := fun file => { file with content }) hfile
    rw [(File.of_find?_eq_some hfile).2] at hfound
    exact hfound
  · intro other hother hne
    unfold openPaths at hother
    rw [hpaths] at hother
    apply h.frame hother
    · exact file?_replaceFirst_of_ne rfl hne fun file hpath => by
        rw [hpath]
        exact Ne.symm hne
    · rfl
    · rfl

theorem Coherent.edit {s next : Session} (h : s.Coherent) {path content : String}
    (hedit : s.edit path content = .ok next) : next.Coherent := by
  unfold Session.edit at hedit
  by_cases htab : s.isOpen path = true
  · cases hfile : s.file? path with
    | none => simp [htab, hfile] at hedit
    | some file =>
        cases heditable : file.editable with
        | false => simp [htab, hfile, heditable] at hedit
        | true =>
            simp only [htab, hfile, heditable, Bool.not_true, Bool.false_eq_true, if_false,
              Except.ok.injEq] at hedit
            rw [← hedit]
            exact h.editing content _ (isOpen_iff.mp htab) hfile
  · simp [htab] at hedit

end Session
end StencilDesk
