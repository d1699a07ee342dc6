import StencilDesk.PathMap

/-!
# Findings

What a check has to say about a file: how serious it is, where it is, and a stable code. Findings
are listed by line and column, those without a line last. A board holds the findings of several
files, each file's in the order in which they were found.
-/

namespace StencilDesk

inductive Severity where
  | error
  | warning
  | info
deriving DecidableEq, Repr, Inhabited

namespace Severity

def text : Severity → String
  | error => "error"
  | warning => "warning"
  | info => "info"

end Severity

structure Finding where
  severity : Severity
  message : String
  file : String
  line : Option Nat := none
  column : Option Nat := none
  code : Option String := none
deriving DecidableEq, Repr, Inhabited

namespace Finding

def isError (finding : Finding) : Bool :=
  finding.severity == .error

/-- The file with line and column, as far as they are known; a column counts only with a line. -/
def placeText (finding : Finding) : String :=
  match finding.line, finding.column with
  | none, _ => finding.file
  | some line, none => s!"{finding.file}:{line}"
  | some line, some column => s!"{finding.file}:{line}:{column}"

def text (finding : Finding) : String :=
  let code := match finding.code with
    | some code => s!" [{code}]"
    | none => ""
  s!"{finding.placeText}: {finding.severity.text}: {finding.message}{code}"

/-- The order of optional numbers in which a missing number comes first. -/
def optionLe : Option Nat → Option Nat → Bool
  | none, _ => true
  | some _, none => false
  | some a, some b => a ≤ b

/-- Holds if a finding is listed no later than another: by line, then column; no line comes last. -/
def le (a b : Finding) : Bool :=
  match a.line, b.line with
  | none, none => optionLe a.column b.column
  | none, some _ => false
  | some _, none => true
  | some m, some n => m < n || (m == n && optionLe a.column b.column)

/-- The findings in the order of their places; findings at one place keep their order. -/
def sorted (findings : List Finding) : List Finding :=
  findings.mergeSort le

end Finding

structure FindingCounts where
  total : Nat := 0
  errors : Nat := 0
  warnings : Nat := 0
  infos : Nat := 0
deriving DecidableEq, Repr, Inhabited

namespace FindingCounts

def countOf (severity : Severity) (findings : List Finding) : Nat :=
  findings.countP fun finding => finding.severity == severity

def ofList (findings : List Finding) : FindingCounts where
  total := findings.length
  errors := countOf .error findings
  warnings := countOf .warning findings
  infos := countOf .info findings

def isEmpty (counts : FindingCounts) : Bool :=
  counts.total == 0

end FindingCounts

structure FindingBoard where
  byPath : PathMap (List Finding) := PathMap.empty

namespace FindingBoard

def empty : FindingBoard := {}

instance : Inhabited FindingBoard := ⟨empty⟩

def remove (board : FindingBoard) (path : String) : FindingBoard :=
  ⟨board.byPath.erase path⟩

/-- Replaces the findings of a file; a file without findings has no entry. -/
def replace (board : FindingBoard) (path : String) (findings : List Finding) : FindingBoard :=
  if findings.isEmpty then board.remove path else ⟨board.byPath.insert path findings⟩

def rename (board : FindingBoard) (path new : String) : FindingBoard :=
  match board.byPath.get? path with
  | none => board
  | some findings =>
      let moved := findings.map fun finding => { finding with file := new }
      ⟨(board.byPath.erase path).insert new moved⟩

def findings (board : FindingBoard) (path : String) : List Finding :=
  (board.byPath.get? path).getD []

def paths (board : FindingBoard) : List String :=
  board.byPath.paths

def all (board : FindingBoard) : List Finding :=
  board.byPath.values.flatten

def counts (board : FindingBoard) : FindingCounts :=
  FindingCounts.ofList board.all

/-! ## Reading a board -/

@[simp] theorem findings_remove_self (board : FindingBoard) (path : String) :
    (board.remove path).findings path = [] := by
  simp [findings, remove]

theorem findings_remove_of_ne (board : FindingBoard) {path other : String} (h : other ≠ path) :
    (board.remove path).findings other = board.findings other := by
  simp only [findings, remove]
  rw [PathMap.get?_erase_of_ne board.byPath h]

@[simp] theorem findings_replace_self (board : FindingBoard) (path : String)
    (list : List Finding) : (board.replace path list).findings path = list := by
  unfold replace
  split
  · rename_i hempty
    rw [findings_remove_self, List.isEmpty_iff.mp hempty]
  · simp [findings]

theorem findings_replace_of_ne (board : FindingBoard) {path other : String} (list : List Finding)
    (h : other ≠ path) : (board.replace path list).findings other = board.findings other := by
  unfold replace
  split
  · exact findings_remove_of_ne board h
  · simp only [findings]
    rw [PathMap.get?_insert_of_ne board.byPath list h]

theorem findings_rename_old (board : FindingBoard) {path new : String} (h : path ≠ new) :
    (board.rename path new).findings path = [] := by
  unfold rename
  cases hfound : board.byPath.get? path with
  | none => simp [findings, hfound]
  | some list =>
      simp only [findings]
      rw [PathMap.get?_insert_of_ne _ _ h, PathMap.get?_erase_self]
      rfl

theorem findings_rename_of_ne (board : FindingBoard) {path new other : String}
    (hpath : other ≠ path) (hnew : other ≠ new) :
    (board.rename path new).findings other = board.findings other := by
  unfold rename
  cases board.byPath.get? path with
  | none => rfl
  | some list =>
      simp only [findings]
      rw [PathMap.get?_insert_of_ne _ _ hnew, PathMap.get?_erase_of_ne _ hpath]

end FindingBoard

end StencilDesk
