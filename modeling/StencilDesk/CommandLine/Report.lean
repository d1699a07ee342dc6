import StencilDesk.Bundle.Diff
import StencilDesk.Session.Operations

/-!
# Reports

What is printed about the findings of a bundle, about the versions of a stencil, and about the
difference of two versions.
-/

namespace StencilDesk

structure LintReport where
  /-- The findings in the order of their files and places. -/
  findings : List Finding
  /-- How many files were checked. -/
  checked : Nat
  counts : FindingCounts
deriving DecidableEq, Repr

namespace LintReport

def isChecked (file : File) : Bool :=
  file.kind == .template || file.kind == .mainConfig

def openAll (s : Session) (paths : List String) : Except SessionFault Session :=
  paths.foldlM Session.openFile s

def fileLe (a b : Finding) : Bool :=
  a.file ≤ b.file

def ofFiles (files : List File) (expected : List String) : Except SessionFault LintReport := do
  let paths := (files.filter isChecked).map File.path
  let s ← openAll ((Session.start "" files).expect expected) paths
  return {
    findings := (Finding.sorted s.board.all).mergeSort fileLe
    checked := paths.length
    counts := s.counts }

def lines (report : LintReport) : List String :=
  let counts := report.counts
  report.findings.map Finding.text ++
    [s!"{report.checked} file(s) checked: {counts.errors} error(s), " ++
      s!"{counts.warnings} warning(s), {counts.infos} info"]

def hasErrors (report : LintReport) : Bool :=
  report.counts.errors > 0

end LintReport

namespace Snapshot

/-- The line about a version; a star marks the active one. -/
def line (version : Snapshot) : String :=
  let mark := if version.isActive then "*" else " "
  let message := match version.message with
    | some message => " " ++ message
    | none => ""
  s!"{version.serial.text}{mark} {version.createdAt.display} {version.createdBy} " ++
    s!"({version.files.length} file(s)){message}"

end Snapshot

namespace BundleDiff

def fileLine (file : FileDiff) : String :=
  s!"{file.status.title} {file.path} +{file.stat.additions} -{file.stat.deletions}"

def lines (diff : BundleDiff) : List String :=
  diff.changed.map fileLine ++ [s!"total +{diff.total.additions} -{diff.total.deletions}"]

end BundleDiff

end StencilDesk
