import StencilDesk.Proofs.Bundle.Diff
import StencilDesk.Proofs.FindingOrder
import StencilDesk.Proofs.Findings
import StencilDesk.Proofs.Session.Anchored
import StencilDesk.Proofs.Session.Findings

/-!
# Opening files one after another

A file is checked when it is opened, so after some files were opened the findings of a session are
those of their checks. Every finding names the file that was checked.
-/

namespace StencilDesk

/-!
## Findings name the file that was checked
-/

theorem Template.file_of_mem_lintExpecting {expected : List String} {file source : String}
    {finding : Finding} (h : finding ∈ Template.lintExpecting expected file source) :
    finding.file = file := by
  unfold Template.lintExpecting at h
  rw [Finding.mem_sorted, List.mem_map] at h
  rcases h with ⟨located, _, hfinding⟩
  rw [← hfinding]
  rfl

namespace Config.Schema

variable {schema : Schema} {file source : String} {finding : Finding}

theorem file_of_mem_check {document : Yaml.Value}
    (h : finding ∈ schema.check file source document) : finding.file = file := by
  unfold check at h
  split at h
  · cases h
  · split at h
    · rw [List.mem_singleton.mp h]
      rfl
    · rcases List.mem_flatMap.mp h with ⟨rule, _, hrule⟩
      rcases List.mem_map.mp hrule with ⟨violation, _, hfinding⟩
      rw [← hfinding]
      rfl

theorem file_of_mem_lint (h : finding ∈ schema.lint file source) : finding.file = file := by
  unfold lint at h
  split at h
  · cases h
  · split at h
    · rw [List.mem_singleton.mp h]
      rfl
    · exact file_of_mem_check h

end Config.Schema

/-!
## Sessions in which files were opened
-/

namespace Session

variable {s next : Session} {files : List File} {expected paths : List String}

theorem file_of_mem_lintFile {file : File} {finding : Finding}
    (h : finding ∈ lintFile expected file) : finding.file = file.path := by
  unfold lintFile at h
  split at h
  · exact Template.file_of_mem_lintExpecting h
  · exact Config.Schema.file_of_mem_lint h
  · cases h

theorem lintFile_template {file : File} (hkind : file.kind = .template) :
    lintFile expected file = Template.lintExpecting expected file.path file.content := by
  rw [lintFile, hkind]

theorem lintFile_mainConfig {file : File} (hkind : file.kind = .mainConfig) :
    lintFile expected file = Config.Schema.stencil.lint file.path file.content := by
  rw [lintFile, hkind]

/-- Holds of a session on some files in which the files at some paths were opened: the findings are
those of these files. -/
structure Opens (files : List File) (expected paths : List String) (s : Session) : Prop where
  files_eq : s.files = files
  expected_eq : s.expected = expected
  mem_openPaths : ∀ path, path ∈ s.openPaths ↔ path ∈ paths
  findings_eq : ∀ path, s.findings path = if path ∈ paths then s.fileFindings path else []

theorem opens_expect_start (files : List File) (expected : List String) :
    ((start "" files).expect expected).Opens files expected [] where
  files_eq := rfl
  expected_eq := rfl
  mem_openPaths := fun _ => Iff.rfl
  findings_eq := fun _ => rfl

/-- A file is checked when it is opened, but not when it was open. -/
theorem findings_openFile_self {path : String} (hopened : s.openFile path = .ok next) :
    next.findings path = if path ∈ s.openPaths then s.findings path else s.fileFindings path := by
  unfold openFile at hopened
  cases hfile : s.file? path with
  | none =>
      rw [hfile] at hopened
      cases hopened
  | some file =>
      rw [hfile] at hopened
      cases hopened
      show Session.findings (if s.isOpen path then s else _) path = _
      simp only [isOpen_iff]
      split
      · rfl
      · exact findings_lint_self _ path

theorem Opens.openFile (h : s.Opens files expected paths) {path : String}
    (hexists : File.existsAt files path = true) :
    ∃ next, s.openFile path = .ok next ∧ next.Opens files expected (paths ++ [path]) := by
  rw [← h.files_eq] at hexists
  rcases File.exists_of_existsAt hexists with ⟨file, hfile⟩
  have hopens : ∃ next, s.openFile path = .ok next := by
    unfold Session.openFile file?
    rw [hfile]
    exact ⟨_, rfl⟩
  rcases hopens with ⟨next, hopened⟩
  refine ⟨next, hopened, ?_⟩
  have hself := findings_openFile_self hopened
  have hothers : ∀ other, other ≠ path → next.findings other = s.findings other :=
    fun other hother => findings_openFile hopened hother
  rcases openFile_eq_ok hopened with ⟨found, board, hfound, rfl⟩
  have hpath : found.path = path := (File.of_find?_eq_some hfound).2
  constructor
  · exact h.files_eq
  · exact h.expected_eq
  · intro other
    unfold openPaths
    rw [mem_openPaths_tabsOpening, h.mem_openPaths, hpath, List.mem_append, List.mem_singleton]
  · intro other
    by_cases hother : other = path
    · rw [hother, hself, if_pos (List.mem_append_right _ List.mem_cons_self), h.findings_eq]
      split
      · rename_i hopen
        rw [if_pos ((h.mem_openPaths path).mp hopen)]
        rfl
      · rfl
    · rw [hothers other hother, h.findings_eq]
      simp only [List.mem_append, List.mem_singleton, hother, or_false]
      rfl

theorem Opens.findings_of_mem (h : s.Opens files expected paths) (hdistinct : Bundle.Distinct files)
    {file : File} (hmem : file ∈ files) (hopen : file.path ∈ paths) :
    s.findings file.path = lintFile expected file := by
  have hfile : s.file? file.path = some file := by
    unfold file?
    rw [h.files_eq]
    exact hdistinct.find?_eq hmem
  rw [h.findings_eq, if_pos hopen]
  unfold fileFindings
  rw [hfile, h.expected_eq]

theorem Opens.namesFiles (h : s.Opens files expected paths) : s.board.NamesFiles := by
  intro path finding hmem
  rw [show s.board.findings path = _ from h.findings_eq path] at hmem
  split at hmem
  · unfold fileFindings at hmem
    cases hfile : s.file? path with
    | none =>
        rw [hfile] at hmem
        cases hmem
    | some file =>
        rw [hfile] at hmem
        exact (file_of_mem_lintFile hmem).trans (File.of_find?_eq_some hfile).2
  · cases hmem

end Session

end StencilDesk
