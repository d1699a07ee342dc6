import StencilDesk.CommandLine.Run
import StencilDesk.Proofs.Import
import StencilDesk.Proofs.Session.Opening

/-!
# What is printed about a bundle

The report of a bundle is read off a session in which all templates and main configurations were
opened. It lists what the check of each of these files finds, and nothing else: file by file, in the
order of the places in each file, and at one place as the check tells it. The last line counts what
is listed, and the exit code tells if there is an error among it.
-/

namespace StencilDesk

/-!
## The list of findings
-/

def Finding.standsAt (line column : Option Nat) (finding : Finding) : Bool :=
  finding.line == line && finding.column == column

theorem Finding.le_of_standsAt {line column : Option Nat} {a b : Finding}
    (ha : a.standsAt line column = true) (hb : b.standsAt line column = true) :
    a.le b = true := by
  unfold standsAt at ha hb
  rw [Bool.and_eq_true, beq_iff_eq, beq_iff_eq] at ha hb
  have hcolumns : optionLe column column = true := (optionLe_total column column).elim id id
  unfold le
  rw [ha.1, hb.1, ha.2, hb.2]
  cases line with
  | none => exact hcolumns
  | some n => simp [hcolumns]

namespace LintReport

/-- Holds of a list of findings that tells what the checks of some files find by themselves. -/
structure Lists (expected : List String) (files : List File) (printed : List Finding) : Prop where
  /-- Each finding of a template or a main configuration is told once, and nothing else is. -/
  complete : printed.Perm
    ((files.filter fun file => file.kind == .template).flatMap
        (fun file => Template.lintExpecting expected file.path file.content) ++
      (files.filter fun file => file.kind == .mainConfig).flatMap
        fun file => Config.Schema.stencil.lint file.path file.content)
  /-- The findings are ordered by their files, and those of a file by their places. -/
  ordered : printed.Pairwise fun a b => a.file < b.file ∨ a.file = b.file ∧ a.Precedes b
  /-- At one place, the findings are told as the check of the template tells them. -/
  templates : ∀ file ∈ files, file.kind = .template → ∀ line column,
    printed.filter (fun finding => finding.standsAt line column && finding.file == file.path) =
      (Template.lintExpecting expected file.path file.content).filter (Finding.standsAt line column)
  mainConfigs : ∀ file ∈ files, file.kind = .mainConfig → ∀ line column,
    printed.filter (fun finding => finding.standsAt line column && finding.file == file.path) =
      (Config.Schema.stencil.lint file.path file.content).filter (Finding.standsAt line column)

theorem fileLe_trans (a b c : Finding) (hab : fileLe a b = true) (hbc : fileLe b c = true) :
    fileLe a c = true := by
  unfold fileLe at hab hbc ⊢
  rw [decide_eq_true_iff] at hab hbc ⊢
  exact String.le_trans hab hbc

theorem fileLe_total (a b : Finding) : (fileLe a b || fileLe b a) = true := by
  unfold fileLe
  rw [Bool.or_eq_true, decide_eq_true_iff, decide_eq_true_iff]
  exact String.le_total a.file b.file

theorem fileLe_of_eq {a b : Finding} (h : a.file = b.file) : fileLe a b = true := by
  have hle : a.file ≤ b.file := h ▸ String.le_refl b.file
  exact decide_eq_true hle

def listed (findings : List Finding) : List Finding :=
  (Finding.sorted findings).mergeSort fileLe

theorem listed_perm (findings : List Finding) : (listed findings).Perm findings :=
  (List.mergeSort_perm _ fileLe).trans (List.mergeSort_perm findings Finding.le)

theorem pairwise_listed (findings : List Finding) :
    (listed findings).Pairwise fun a b => a.file < b.file ∨ a.file = b.file ∧ a.Precedes b := by
  have hsorted := pairwise_mergeSort_of_pairwise fileLe_trans fileLe_total
    (Finding.pairwise_sorted findings)
  apply hsorted.imp
  intro a b hpair
  rcases hpair with ⟨hle, hties⟩
  by_cases hfile : a.file = b.file
  · exact .inr ⟨hfile, hties (fileLe_of_eq hfile.symm)⟩
  · unfold fileLe at hle
    rw [decide_eq_true_iff] at hle
    exact .inl (Std.lt_of_le_of_ne hle hfile)

/-- Neither sort changes the order of the findings at one place of a file. -/
theorem filter_listed (findings : List Finding) (path : String) (line column : Option Nat) :
    (listed findings).filter
        (fun finding => finding.standsAt line column && finding.file == path) =
      findings.filter fun finding => finding.standsAt line column && finding.file == path := by
  have hfiles : ∀ a b : Finding, (a.standsAt line column && a.file == path) = true →
      (b.standsAt line column && b.file == path) = true → fileLe a b = true := by
    intro a b ha hb
    rw [Bool.and_eq_true, beq_iff_eq] at ha hb
    exact fileLe_of_eq (ha.2.trans hb.2.symm)
  have hplaces : ∀ a b : Finding, (a.standsAt line column && a.file == path) = true →
      (b.standsAt line column && b.file == path) = true → a.le b = true := by
    intro a b ha hb
    rw [Bool.and_eq_true] at ha hb
    exact Finding.le_of_standsAt ha.1 hb.1
  unfold listed Finding.sorted
  rw [filter_mergeSort_of_ties fileLe_trans fileLe_total hfiles,
    filter_mergeSort_of_ties Finding.le_trans Finding.le_total hplaces]

/-!
## The session behind a report
-/

section
variable {files : List File} {expected : List String} {s : Session}

def checkedPaths (files : List File) : List String :=
  (files.filter isChecked).map File.path

theorem mem_checkedPaths {file : File} (hmem : file ∈ files) (hchecked : isChecked file = true) :
    file.path ∈ checkedPaths files :=
  List.mem_map_of_mem (List.mem_filter.mpr ⟨hmem, hchecked⟩)

theorem openAll_opens {done paths : List String} (h : s.Opens files expected done)
    (hexists : ∀ path ∈ paths, File.existsAt files path = true) :
    ∃ next, openAll s paths = .ok next ∧ next.Opens files expected (done ++ paths) := by
  induction paths generalizing s done with
  | nil => exact ⟨s, rfl, (List.append_nil done).symm ▸ h⟩
  | cons path rest ih =>
      rcases h.openFile (hexists path List.mem_cons_self) with ⟨opened, hopened, hfirst⟩
      rcases ih hfirst fun other hother => hexists other (List.mem_cons_of_mem _ hother) with
        ⟨next, hrest, hopens⟩
      rw [List.append_assoc] at hopens
      refine ⟨next, ?_, hopens⟩
      unfold openAll at hrest ⊢
      rw [List.foldlM_cons, hopened]
      exact hrest

/-- The report of a bundle comes from a session in which all checked files were opened. -/
theorem exists_ofFiles_eq (files : List File) (expected : List String) :
    ∃ (report : LintReport) (s : Session), ofFiles files expected = .ok report ∧
      s.Opens files expected (checkedPaths files) ∧ report.findings = listed s.board.all ∧
      report.checked = files.countP isChecked ∧
      report.counts = FindingCounts.ofList report.findings := by
  have hexists : ∀ path ∈ checkedPaths files, File.existsAt files path = true := by
    intro path hmem
    rcases List.mem_map.mp hmem with ⟨file, hfile, hpath⟩
    exact File.existsAt_iff.mpr ⟨file, (List.mem_filter.mp hfile).1, hpath⟩
  rcases openAll_opens (Session.opens_expect_start files expected) hexists with ⟨s, hall, hopens⟩
  have hreport : ofFiles files expected = .ok
      { findings := listed s.board.all
        checked := (checkedPaths files).length
        counts := FindingCounts.ofList s.board.all } := by
    unfold checkedPaths at hall ⊢
    unfold ofFiles
    dsimp only
    rw [hall]
    rfl
  refine ⟨_, s, hreport, hopens, rfl, ?_, ?_⟩
  · show (checkedPaths files).length = _
    rw [checkedPaths, List.length_map, List.countP_eq_length_filter]
  · exact (FindingCounts.ofList_perm (listed_perm s.board.all)).symm

theorem flatMap_lintFile_perm (expected : List String) (files : List File) :
    ((files.filter isChecked).flatMap (Session.lintFile expected)).Perm
      ((files.filter fun file => file.kind == .template).flatMap
          (fun file => Template.lintExpecting expected file.path file.content) ++
        (files.filter fun file => file.kind == .mainConfig).flatMap
          fun file => Config.Schema.stencil.lint file.path file.content) := by
  induction files with
  | nil => exact .nil
  | cons file rest ih =>
      cases hkind : file.kind with
      | template =>
          simp only [isChecked, hkind, BEq.rfl, Bool.true_or, List.filter_cons_of_pos,
            List.flatMap_cons, Session.lintFile_template hkind, beq_iff_eq, reduceCtorEq,
            not_false_eq_true, List.filter_cons_of_neg, List.append_assoc]
          exact ih.append_left _
      | mainConfig =>
          simp only [isChecked, hkind, BEq.rfl, Bool.or_true, List.filter_cons_of_pos,
            List.flatMap_cons, Session.lintFile_mainConfig hkind, beq_iff_eq, reduceCtorEq,
            not_false_eq_true, List.filter_cons_of_neg]
          exact (ih.append_left _).trans (List.perm_append_comm_assoc _ _ _)
      | sharedConfig => simpa [isChecked, hkind] using ih
      | placeholder => simpa [isChecked, hkind] using ih
      | other => simpa [isChecked, hkind] using ih

theorem all_perm_flatMap_lintFile (hdistinct : Bundle.Distinct files)
    (h : s.Opens files expected (checkedPaths files)) :
    s.board.all.Perm ((files.filter isChecked).flatMap (Session.lintFile expected)) := by
  have hnodup : (checkedPaths files).Nodup :=
    List.Nodup.sublist (List.filter_sublist.map File.path) hdistinct
  have hothers : ∀ path, path ∉ checkedPaths files → s.board.findings path = [] :=
    fun path hout => (h.findings_eq path).trans (if_neg hout)
  have hfiles : (checkedPaths files).flatMap s.board.findings =
      (files.filter isChecked).flatMap (Session.lintFile expected) := by
    unfold checkedPaths
    rw [List.flatMap_map]
    apply List.flatMap_congr
    intro file hfile
    rw [List.mem_filter] at hfile
    exact h.findings_of_mem hdistinct hfile.1 (mem_checkedPaths hfile.1 hfile.2)
  rw [← hfiles]
  exact s.board.all_perm_flatMap hnodup hothers

theorem filter_listed_all (hdistinct : Bundle.Distinct files)
    (h : s.Opens files expected (checkedPaths files)) {file : File} (hmem : file ∈ files)
    (hchecked : isChecked file = true) (line column : Option Nat) :
    (listed s.board.all).filter
        (fun finding => finding.standsAt line column && finding.file == file.path) =
      (Session.lintFile expected file).filter (Finding.standsAt line column) := by
  have hfindings : s.board.findings file.path = Session.lintFile expected file :=
    h.findings_of_mem hdistinct hmem (mem_checkedPaths hmem hchecked)
  rw [filter_listed, ← List.filter_filter, h.namesFiles.filter_all, hfindings]

theorem lists_listed (hdistinct : Bundle.Distinct files)
    (h : s.Opens files expected (checkedPaths files)) :
    Lists expected files (listed s.board.all) where
  complete := (listed_perm s.board.all).trans
    ((all_perm_flatMap_lintFile hdistinct h).trans (flatMap_lintFile_perm expected files))
  ordered := pairwise_listed s.board.all
  templates := by
    intro file hmem hkind line column
    have hchecked : isChecked file = true := by simp [isChecked, hkind]
    rw [filter_listed_all hdistinct h hmem hchecked, Session.lintFile_template hkind]
  mainConfigs := by
    intro file hmem hkind line column
    have hchecked : isChecked file = true := by simp [isChecked, hkind]
    rw [filter_listed_all hdistinct h hmem hchecked, Session.lintFile_mainConfig hkind]

end

theorem hasErrors_iff {report : LintReport}
    (hcounts : report.counts = FindingCounts.ofList report.findings) :
    report.hasErrors = true ↔ ∃ finding ∈ report.findings, finding.severity = .error := by
  unfold hasErrors
  rw [hcounts, decide_eq_true_iff]
  show 0 < List.countP _ report.findings ↔ _
  simp only [List.countP_pos_iff, beq_iff_eq]

end LintReport

/-!
## What is printed
-/

namespace CommandLine

def summary (files : List File) (printed : List Finding) : String :=
  let checked := files.countP fun file => file.kind == .template || file.kind == .mainConfig
  let errors := printed.countP fun finding => finding.severity == .error
  let warnings := printed.countP fun finding => finding.severity == .warning
  let infos := printed.countP fun finding => finding.severity == .info
  s!"{checked} file(s) checked: {errors} error(s), " ++ s!"{warnings} warning(s), {infos} info"

theorem lines_of_counts {files : List File} {report : LintReport}
    (hchecked : report.checked = files.countP LintReport.isChecked)
    (hcounts : report.counts = FindingCounts.ofList report.findings) :
    report.lines = report.findings.map Finding.text ++ [summary files report.findings] := by
  unfold LintReport.lines
  rw [hchecked, hcounts]
  rfl

theorem lint_eq {here : Surroundings} {folder : String} {expected : List String}
    {files : List File} {report : LintReport} (himport : here.importFolder folder [] = .ok files)
    (hreport : LintReport.ofFiles files expected = .ok report) :
    lint here folder expected = .ok { lines := report.lines, succeeds := !report.hasErrors } := by
  simp only [lint, himport, hreport, bind, Except.bind, Except.mapError, pure, Except.pure]

/-- A check of a bundle whose files have paths of their own gives a report, which lists what the
checks of its templates and main configurations find. What is printed are these findings and their
numbers, and the exit code tells if there is an error among them. -/
theorem listsFindings_lint (expected : List String) {files : List File}
    (hdistinct : Bundle.Distinct files) :
    ∃ report, LintReport.ofFiles files expected = .ok report ∧
      LintReport.Lists expected files report.findings ∧
      report.lines = report.findings.map Finding.text ++ [summary files report.findings] ∧
      ∀ (here : Surroundings) (folder : String), here.importFolder folder [] = .ok files →
        outputText (lint here folder expected) = String.join (report.lines.map (· ++ "\n")) ∧
          exitCode (lint here folder expected) =
            if ∃ finding ∈ report.findings, finding.severity = .error then 1 else 0 := by
  rcases LintReport.exists_ofFiles_eq files expected with
    ⟨report, s, hreport, hopens, hfindings, hchecked, hcounts⟩
  refine ⟨report, hreport, ?_, lines_of_counts hchecked hcounts, ?_⟩
  · rw [hfindings]
    exact LintReport.lists_listed hdistinct hopens
  · intro here folder himport
    rw [lint_eq himport hreport]
    refine ⟨rfl, ?_⟩
    simp only [exitCode, ← LintReport.hasErrors_iff hcounts]
    cases report.hasErrors <;> rfl

def faultyFiles : List File :=
  [File.ofPath "/a.ftl" "<#if x>", File.ofPath "/stencil.yml" "stencil:\n  id: demo\n"]

def faultySurroundings : Surroundings where
  directory :=
    ⟨[(["b"], .folder), (["b", "stencil.yml"], .file (.text "stencil:\n  id: demo\n")),
      (["b", "a.ftl"], .file (.text "<#if x>"))]⟩
  preferences := ["home"]
  now := ⟨⟨2025, 9, 13⟩, 10, 0, 0, 0, 0⟩

theorem importFolder_faultySurroundings :
    faultySurroundings.importFolder "b" [] = .ok faultyFiles := by
  have hkept : ((Import.textsBelow faultySurroundings.directory ["b"]).filter fun file =>
      Import.comesAlong faultySurroundings.directory (Exclusions.ofPatterns []) ["b"] file.1) =
      [(["stencil.yml"], "stencil:\n  id: demo\n"), (["a.ftl"], "<#if x>")] := by
    decide +kernel
  have hconfig : Import.bundlePath ["stencil.yml"] = "/stencil.yml" := rfl
  have htemplate : Import.bundlePath ["a.ftl"] = "/a.ftl" := rfl
  have horder : ¬"/stencil.yml" ≤ "/a.ftl" := by decide
  have hbundle : Import.bundle faultySurroundings.directory ["b"] "b" [] = .ok faultyFiles := by
    rw [Import.bundle_eq, if_neg (by decide), if_neg (by decide), Import.importedFiles, hkept]
    simp [Import.sortedFiles, List.mergeSort, hconfig, htemplate, horder, faultyFiles]
  have hlocation : faultySurroundings.locate "b" = ["b"] := by decide +kernel
  rw [Surroundings.importFolder, hlocation, hbundle]
  rfl

theorem listsFindings_lint_faulty :
    Bundle.Distinct faultyFiles ∧ faultySurroundings.importFolder "b" [] = .ok faultyFiles ∧
      ∃ report, LintReport.ofFiles faultyFiles ["name"] = .ok report ∧
        ⟨.error, "unclosed directive \x60<#if>\x60", "/a.ftl", some 1, some 1,
          some "unclosed-directive"⟩ ∈ report.findings ∧
        ⟨.error, "stencil.name: is required", "/stencil.yml", none, none,
          some "config-schema"⟩ ∈ report.findings ∧
        outputText (lint faultySurroundings "b" ["name"]) =
          String.join (report.lines.map (· ++ "\n")) ∧
        exitCode (lint faultySurroundings "b" ["name"]) = 1 := by
  have hdistinct : Bundle.Distinct faultyFiles := by
    unfold Bundle.Distinct
    decide +kernel
  have htemplate : Finding.mk .error "unclosed directive \x60<#if>\x60" "/a.ftl" (some 1) (some 1)
      (some "unclosed-directive") ∈ Template.lintExpecting ["name"] "/a.ftl" "<#if x>" := by
    rw [Template.lintExpecting, Finding.mem_sorted]
    decide +kernel
  have hconfig : Finding.mk .error "stencil.name: is required" "/stencil.yml" none none
      (some "config-schema") ∈
        Config.Schema.stencil.lint "/stencil.yml" "stencil:\n  id: demo\n" := by
    decide +kernel
  rcases listsFindings_lint ["name"] hdistinct with ⟨report, hreport, hlists, _, hprinted⟩
  rcases hprinted faultySurroundings "b" importFolder_faultySurroundings with ⟨htext, hcode⟩
  have hfirst := hlists.complete.mem_iff.mpr (List.mem_append_left _ (List.mem_flatMap.mpr
    ⟨File.ofPath "/a.ftl" "<#if x>", by decide +kernel, htemplate⟩))
  have hsecond := hlists.complete.mem_iff.mpr (List.mem_append_right _ (List.mem_flatMap.mpr
    ⟨File.ofPath "/stencil.yml" "stencil:\n  id: demo\n", by decide +kernel, hconfig⟩))
  refine ⟨hdistinct, importFolder_faultySurroundings, report, hreport, hfirst, hsecond, htext, ?_⟩
  rw [hcode, if_pos ⟨_, hfirst, rfl⟩]

end CommandLine
end StencilDesk
