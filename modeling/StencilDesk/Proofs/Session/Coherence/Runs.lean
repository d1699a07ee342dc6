import StencilDesk.Proofs.Findings
import StencilDesk.Proofs.Session.Coherence.Files
import StencilDesk.Proofs.Session.Coherence.Replacement

/-!
# Every session is coherent

Each operation keeps a session coherent, so that every run of operations does. The files that a
session begins on, or that are put in place of all others, only have to be named after their paths.
-/

namespace StencilDesk
namespace Session

variable {σ : Type}

theorem coherent_of_begins {s : Session} (h : s.Begins File.AllDerived) : s.Coherent := by
  cases h with
  | start id hfiles =>
      exact
        { tabsDerived := by intro tab hmem; cases hmem
          distinct := List.nodup_nil
          activeOpen := by intro path hactive; cases hactive
          activeNone := by intro _; rfl
          closedClean := by intro path _; rfl
          filesDerived := hfiles
          backed := by intro path hopen; cases hopen
          checked := by intro path hopen; cases hopen }
  | loaded hfiles =>
      exact
        { tabsDerived := by intro tab hmem; cases hmem
          distinct := List.nodup_nil
          activeOpen := by intro path hactive; cases hactive
          activeNone := by intro _; rfl
          closedClean := by intro path _; rfl
          filesDerived := hfiles
          backed := by intro path hopen; cases hopen
          checked := by intro path hopen; cases hopen }

theorem Coherent.afterResult {s : Session} (h : s.Coherent)
    {result : Except SessionFault Session} (hnext : ∀ next, result = .ok next → next.Coherent) :
    (s.afterResult result).Coherent := by
  cases result with
  | error fault => exact h
  | ok next => exact hnext next rfl

theorem Coherent.perform {s : Session} (h : s.Coherent) {service : StoreService σ}
    {operation : Operation} (hinstalls : operation.Installs service s.stencilId File.AllDerived)
    (store : σ) : (s.perform service operation store).1.Coherent := by
  cases operation with
  | expect expected => exact h.expect expected
  | openFile path => exact h.afterResult fun next => h.openFile
  | activate path => exact h.afterResult fun next => h.activate
  | edit path content => exact h.afterResult fun next => h.edit
  | close path confirmed => exact h.close path confirmed
  | createFile parent name => exact h.createFile parent name
  | createFolder parent name => exact h.createFolder parent name
  | moveFile path new => exact h.afterResult fun next => h.moveFile
  | deleteFile path => exact h.deleteFile path
  | install files => exact h.install hinstalls
  | save author message => exact h.save service author message store
  | restore serial => exact h.restore service serial store (hinstalls store)
  | setVersions versions => exact h.setVersions versions

theorem Coherent.run {s : Session} (h : s.Coherent) {service : StoreService σ}
    {operations : List Operation}
    (hinstalls : ∀ operation ∈ operations, operation.Installs service s.stencilId File.AllDerived)
    (store : σ) : (s.run service operations store).1.Coherent := by
  have hstep : ∀ (t : Session) (operation : Operation) (store : σ), operation ∈ operations →
      t.stencilId = s.stencilId ∧ t.Coherent →
      (t.perform service operation store).1.stencilId = s.stencilId ∧
        (t.perform service operation store).1.Coherent := by
    intro t operation store hmem ⟨hid, ht⟩
    constructor
    · rw [stencilId_perform]
      exact hid
    · apply ht.perform
      rw [hid]
      exact hinstalls operation hmem
  exact (run_preserves store hstep ⟨rfl, h⟩).2

/-- The tabs, the active path and the findings of a session, as its files demand them. -/
structure FitsFiles (s : Session) : Prop where
  tabsDistinct : (s.tabs.map Tab.path).Nodup
  tabsShowFiles : ∀ tab ∈ s.tabs, (∃ file ∈ s.files, file.path = tab.path) ∧
    ∀ file ∈ s.files, file.path = tab.path → tab.name = file.name ∧ tab.kind = file.kind
  activeNone : s.active = none ↔ s.tabs = []
  activeOpen : ∀ path, s.active = some path → ∃ tab ∈ s.tabs, tab.path = path
  findingsOfClosed : ∀ path, s.isOpen path = false → s.findings path = []
  findingsOfOpen : ∀ path, s.isOpen path = true → ∃ file, s.file? path = some file ∧
    s.findings path =
      match file.kind with
      | .template => Template.lintExpecting s.expected path file.content
      | .mainConfig => Config.Schema.stencil.lint path file.content
      | _ => []
  countsOfTabs :
    s.counts = (s.tabs.map fun tab => FindingCounts.ofList (s.findings tab.path)).sum

theorem Coherent.fitsFiles {s : Session} (h : s.Coherent) : s.FitsFiles where
  tabsDistinct := h.distinct
  tabsShowFiles := by
    intro tab hmem
    constructor
    · exact File.existsAt_iff.mp (h.backed tab.path (List.mem_map_of_mem hmem))
    · intro file hfile hpath
      rcases h.tabsDerived tab hmem with ⟨hname, hkind⟩
      have hderived := h.filesDerived file hfile
      have hsameName : tab.name = file.name := by rw [hname, hderived.name_eq, hpath]
      exact ⟨hsameName, by rw [hkind, hderived.kind_eq, hsameName]⟩
  activeNone := by
    constructor
    · intro hnone
      exact List.map_eq_nil_iff.mp (h.activeNone hnone)
    · intro htabs
      cases hactive : s.active with
      | none => rfl
      | some path =>
          have hopen := h.activeOpen path hactive
          unfold openPaths at hopen
          rw [htabs] at hopen
          cases hopen
  activeOpen := fun path hactive => List.mem_map.mp (h.activeOpen path hactive)
  findingsOfClosed := by
    intro path hclosed
    apply h.closedClean
    intro hopen
    rw [isOpen_iff.mpr hopen] at hclosed
    cases hclosed
  findingsOfOpen := by
    intro path htab
    have hopen := isOpen_iff.mp htab
    rcases File.exists_of_existsAt (h.backed path hopen) with ⟨file, hfile⟩
    refine ⟨file, hfile, ?_⟩
    rw [h.checked path hopen, fileFindings, show s.file? path = some file from hfile]
    have hpath : file.path = path := (File.of_find?_eq_some hfile).2
    rw [← hpath]
    rfl
  countsOfTabs := by
    have hsum := FindingBoard.counts_eq_sum s.board h.distinct h.closedClean
    rw [openPaths, List.map_map] at hsum
    exact hsum

/-- After every run of operations, whatever the store answers, a session fits its files. -/
theorem fitsFiles_run {s : Session} (hbegins : s.Begins File.AllDerived) {service : StoreService σ}
    {operations : List Operation}
    (hinstalls : ∀ operation ∈ operations, operation.Installs service s.stencilId File.AllDerived)
    (store : σ) : (s.run service operations store).1.FitsFiles :=
  ((coherent_of_begins hbegins).run hinstalls store).fitsFiles

theorem fitsFiles_run_moved :
    (start "demo" [File.ofPath "/stencil.yml" "stencil:", File.ofPath "/a.ftl" "hello"]).Begins
        File.AllDerived ∧
      Operation.Installs DirectoryStore.service "demo" File.AllDerived
        (.install [File.ofPath "/a.ftl" "hello"]) ∧
      ((start "demo" [File.ofPath "/stencil.yml" "stencil:", File.ofPath "/a.ftl" "hello"]).run
        DirectoryStore.service
        [.openFile "/a.ftl", .moveFile "/a.ftl" "/b.txt", .install [File.ofPath "/a.ftl" "hello"],
          .openFile "/a.ftl", .save "ann" none]
        { now := ⟨⟨2025, 9, 13⟩, 10, 0, 0, 0, 0⟩ }).1.FitsFiles := by
  have hfiles : File.AllDerived
      [File.ofPath "/stencil.yml" "stencil:", File.ofPath "/a.ftl" "hello"] := by
    intro file hmem
    rcases List.mem_cons.mp hmem with rfl | hmem
    · exact File.derived_ofPath _ _
    · rw [List.mem_singleton.mp hmem]
      exact File.derived_ofPath _ _
  have hinstalled : File.AllDerived [File.ofPath "/a.ftl" "hello"] := by
    intro file hmem
    rw [List.mem_singleton.mp hmem]
    exact File.derived_ofPath _ _
  refine ⟨.start "demo" hfiles, hinstalled, fitsFiles_run (.start "demo" hfiles) ?_ _⟩
  intro operation hmem
  simp only [List.mem_cons, List.not_mem_nil, or_false] at hmem
  rcases hmem with rfl | rfl | rfl | rfl | rfl
  · trivial
  · trivial
  · exact hinstalled
  · trivial
  · trivial

end Session
end StencilDesk
