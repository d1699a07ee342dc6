import StencilDesk.Proofs.Session.Run

/-!
# What an operation does to the bundle

An operation stays on its stencil, and leaves its files alone, changes one of them, or puts others
in their place. What opening, closing and checking do is only seen in the tabs.
-/

namespace StencilDesk

inductive Bundle.Change (P : List File → Prop) (files : List File) : List File → Prop where
  | kept : Change P files files
  | edited (path content : String) :
      Change P files (replaceFirst path (fun file => { file with content }) files)
  | createdFile {parent name : String} {next : List File}
      (h : createFile files parent name = .ok next) : Change P files next
  | createdFolder {parent name : String} {next : List File}
      (h : createFolder files parent name = .ok next) : Change P files next
  | moved {path new : String} {next : List File}
      (h : moveFile files path new = .ok next) : Change P files next
  | deleted {path : String} {next : List File}
      (h : deleteFile files path = .ok next) : Change P files next
  | replaced {next : List File} (h : P next) : Change P files next

namespace Session

variable {σ : Type}

structure SameBundle (s t : Session) : Prop where
  stencilId_eq : t.stencilId = s.stencilId
  files_eq : t.files = s.files

structure Step (P : List File → Prop) (s t : Session) : Prop where
  stencilId_eq : t.stencilId = s.stencilId
  change : Bundle.Change P s.files t.files

/-!
## What leaves the bundle alone
-/

theorem SameBundle.refl (s : Session) : s.SameBundle s :=
  ⟨rfl, rfl⟩

theorem SameBundle.trans {s t u : Session} (h : s.SameBundle t) (hnext : t.SameBundle u) :
    s.SameBundle u :=
  ⟨hnext.stencilId_eq.trans h.stencilId_eq, hnext.files_eq.trans h.files_eq⟩

theorem sameBundle_lint (s : Session) (path : String) : s.SameBundle (s.lint path) := by
  rcases lint_eq s path with ⟨board, h⟩
  rw [h]
  exact ⟨rfl, rfl⟩

theorem sameBundle_lintTabs (s : Session) : s.SameBundle s.lintTabs := by
  rcases lintTabs_eq s with ⟨board, h⟩
  rw [h]
  exact ⟨rfl, rfl⟩

theorem sameBundle_openFile {s next : Session} {path : String} (h : s.openFile path = .ok next) :
    s.SameBundle next := by
  unfold openFile at h
  cases hfile : s.file? path with
  | none =>
      rw [hfile] at h
      cases h
  | some file =>
      rw [hfile] at h
      cases h
      show s.SameBundle { (if s.isOpen path then s else _) with active := some path }
      split
      · exact ⟨rfl, rfl⟩
      · have hlinted := sameBundle_lint { s with tabs := s.tabs ++ [Tab.ofFile file] } path
        exact ⟨hlinted.stencilId_eq, hlinted.files_eq⟩

theorem sameBundle_activate {s next : Session} {path : String}
    (h : s.activate path = .ok next) : s.SameBundle next := by
  unfold activate at h
  split at h
  · cases h
    exact ⟨rfl, rfl⟩
  · cases h

theorem sameBundle_close (s : Session) (path : String) (confirmed : Bool) :
    s.SameBundle (s.close path confirmed).2 := by
  unfold close
  split
  · exact SameBundle.refl s
  · split
    · exact SameBundle.refl s
    · exact ⟨rfl, rfl⟩

theorem sameBundle_closeAll (s : Session) (paths : List String) :
    s.SameBundle (s.closeAll paths) := by
  induction paths generalizing s with
  | nil => exact SameBundle.refl s
  | cons path rest ih =>
      have hremoved : s.SameBundle (s.removeTab path) := ⟨rfl, rfl⟩
      exact hremoved.trans (ih (s.removeTab path))

theorem sameBundle_openConfig (s : Session) : s.SameBundle s.openConfig.2 := by
  unfold openConfig
  split
  · exact SameBundle.refl s
  · split
    · exact SameBundle.refl s
    · exact ⟨rfl, rfl⟩

theorem sameBundle_markDirty (s : Session) : s.SameBundle s.markDirty.2 :=
  ⟨rfl, rfl⟩

theorem sameBundle_replaceFiles (s : Session) (files : List File) :
    { s with files }.SameBundle (s.replaceFiles files).2 := by
  have hclosed := sameBundle_closeAll { s with files } (s.gonePaths files)
  exact (hclosed.trans (sameBundle_markDirty _)).trans (sameBundle_openConfig _)

theorem sameBundle_install (s : Session) (files : List File) :
    { s with files }.SameBundle (s.install files).2 := by
  have hreplaced := sameBundle_replaceFiles s files
  rw [snd_install]
  constructor
  · rw [(sameBundle_lintTabs _).stencilId_eq]
    exact hreplaced.stencilId_eq
  · rw [(sameBundle_lintTabs _).files_eq]
    exact hreplaced.files_eq

theorem sameBundle_save (service : StoreService σ) (s : Session) (author : String)
    (message : Option String) (store : σ) :
    s.SameBundle (s.save service author message store).1.2 := by
  rcases save_cases service s author message store with hsame | ⟨serial, versions, hsaved⟩
  · rw [hsame]
    exact SameBundle.refl s
  · rw [hsaved]
    exact ⟨rfl, rfl⟩

/-!
## What changes it
-/

theorem SameBundle.step {P : List File → Prop} {s t : Session} (h : s.SameBundle t) :
    s.Step P t where
  stencilId_eq := h.stencilId_eq
  change := by
    rw [h.files_eq]
    exact .kept

theorem step_of_sameBundle {P : List File → Prop} {s t : Session} {files : List File}
    (hchange : Bundle.Change P s.files files) (h : { s with files }.SameBundle t) :
    s.Step P t where
  stencilId_eq := h.stencilId_eq
  change := by
    rw [h.files_eq]
    exact hchange

theorem step_afterResult {P : List File → Prop} {s : Session}
    {result : Except SessionFault Session} (h : ∀ next, result = .ok next → s.Step P next) :
    s.Step P (s.afterResult result) := by
  cases result with
  | error fault => exact (SameBundle.refl s).step
  | ok next => exact h next rfl

theorem step_edit {P : List File → Prop} {s next : Session} {path content : String}
    (h : s.edit path content = .ok next) : s.Step P next := by
  unfold edit at h
  split at h
  · cases h
  · split at h
    · cases h
    · split at h
      · cases h
      · cases h
        have hlinted := sameBundle_lint
          { s with
            files := Bundle.replaceFirst path (fun file => { file with content }) s.files
            settings :=
              if path = File.mainConfigPath then (Settings.ofText? content).getD s.settings
              else s.settings
            tabs := replaceTab path Tab.edited s.tabs } path
        exact step_of_sameBundle (.edited path content)
          ⟨hlinted.stencilId_eq, hlinted.files_eq⟩

theorem step_createFile {P : List File → Prop} (s : Session) (parent name : String) :
    s.Step P (s.createFile parent name).2 := by
  unfold createFile
  cases hcreate : Bundle.createFile s.files parent name with
  | error fault => exact (SameBundle.refl s).step
  | ok files =>
      cases hopen : ({ s with files } : Session).openFile (Path.join parent name) with
      | error fault =>
          simp only [hopen]
          exact step_of_sameBundle (.createdFile hcreate) (SameBundle.refl _)
      | ok next =>
          simp only [hopen]
          exact step_of_sameBundle (.createdFile hcreate) (sameBundle_openFile hopen)

theorem step_createFolder {P : List File → Prop} (s : Session) (parent name : String) :
    s.Step P (s.afterResult ((s.createFolder parent name).map Prod.snd)) := by
  unfold createFolder
  cases hcreate : Bundle.createFolder s.files parent name with
  | error fault => exact (SameBundle.refl s).step
  | ok files => exact step_of_sameBundle (.createdFolder hcreate) (SameBundle.refl _)

theorem step_moveFile {P : List File → Prop} {s next : Session} {path new : String}
    (h : s.moveFile path new = .ok next) : s.Step P next := by
  unfold moveFile at h
  split at h
  · cases h
  · rename_i files hmove
    simp only at h
    split at h
    · cases h
      exact step_of_sameBundle (.moved hmove) (SameBundle.refl _)
    · cases h
      have hlinted := sameBundle_lint
        { s with
          files
          tabs := replaceTab path (movedTab new) s.tabs
          active := if s.active = some path then some new else s.active
          board := s.board.rename path new } new
      exact step_of_sameBundle (.moved hmove) ⟨hlinted.stencilId_eq, hlinted.files_eq⟩

theorem step_deleteFile {P : List File → Prop} (s : Session) (path : String) :
    s.Step P (s.deleteFile path).2 := by
  unfold deleteFile
  cases hdelete : Bundle.deleteFile s.files path with
  | error fault => exact (SameBundle.refl s).step
  | ok files =>
      apply step_of_sameBundle (.deleted hdelete)
      show SameBundle _ { (if _ then _ else _ : Session) with board := _ }
      split <;> exact ⟨rfl, rfl⟩

theorem step_install {P : List File → Prop} (s : Session) {files : List File} (h : P files) :
    s.Step P (s.install files).2 :=
  step_of_sameBundle (.replaced h) (sameBundle_install s files)

theorem step_restore {P : List File → Prop} (service : StoreService σ) (s : Session)
    (serial : Serial) (store : σ)
    (h : ∀ version, (service.snapshot s.stencilId serial store).1 = .ok version →
      P version.files) :
    s.Step P (s.restore service serial store).1.2 := by
  rcases restore_cases service s serial store with hsame | ⟨version, hanswer, hrestored⟩
  · rw [hsame]
    exact (SameBundle.refl s).step
  · rw [hrestored]
    exact step_install s (h version hanswer)

/-- Every operation stays on the stencil, and changes its files at most once. -/
theorem step_perform {P : List File → Prop} {service : StoreService σ} {s : Session}
    {operation : Operation} (hinstalls : operation.Installs service s.stencilId P) (store : σ) :
    s.Step P (s.perform service operation store).1 := by
  cases operation with
  | expect expected =>
      have hlinted := sameBundle_lintTabs { s with expected }
      exact SameBundle.step ⟨hlinted.stencilId_eq, hlinted.files_eq⟩
  | openFile path => exact step_afterResult fun next h => (sameBundle_openFile h).step
  | activate path => exact step_afterResult fun next h => (sameBundle_activate h).step
  | edit path content => exact step_afterResult fun next => step_edit
  | close path confirmed => exact (sameBundle_close s path confirmed).step
  | createFile parent name => exact step_createFile s parent name
  | createFolder parent name => exact step_createFolder s parent name
  | moveFile path new => exact step_afterResult fun next => step_moveFile
  | deleteFile path => exact step_deleteFile s path
  | install files => exact step_install s hinstalls
  | save author message => exact (sameBundle_save service s author message store).step
  | restore serial => exact step_restore service s serial store (hinstalls store)
  | setVersions versions => exact SameBundle.step ⟨rfl, rfl⟩

theorem installs_any (service : StoreService σ) (id : String) (operation : Operation) :
    operation.Installs service id fun _ => True := by
  cases operation with
  | restore serial =>
      intro _ _ _
      trivial
  | _ => trivial

theorem stencilId_perform (service : StoreService σ) (s : Session) (operation : Operation)
    (store : σ) : (s.perform service operation store).1.stencilId = s.stencilId :=
  (step_perform (installs_any service s.stencilId operation) store).stencilId_eq

end Session
end StencilDesk
