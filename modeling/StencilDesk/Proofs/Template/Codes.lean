import StencilDesk.Proofs.FindingOrder
import StencilDesk.Template.Lint

/-!
# The codes of findings

Each check of a template has codes of its own. So the findings with some code are the issues of one
check, whatever the other checks find, and in whatever order all findings are listed.
-/

namespace StencilDesk
namespace Template

def directiveCodes : List String :=
  ["unmatched-closing-tag", "directive-mismatch", "unclosed-directive"]

def referenceCodes : List String :=
  ["empty-reference", "invalid-reference"]

def commentCodes : List String :=
  ["unmatched-comment-close", "nested-comment", "unterminated-comment"]

def braceCodes : List String :=
  ["unterminated-interpolation", "unmatched-brace"]

def usageCodes : List String :=
  ["unused-expected-variable"]

section
variable {located : Located} {masked : List Char}

theorem code_of_mem_scopeIssues {opened tags : List ScopeTag}
    (h : located ∈ scopeIssues opened tags) : located.issue.code ∈ directiveCodes := by
  fun_induction scopeIssues opened tags <;> grind [Issue.code, directiveCodes]

theorem code_of_mem_referenceIssues (h : located ∈ referenceIssues masked) :
    located.issue.code ∈ referenceCodes := by
  rcases List.mem_filterMap.mp h with ⟨found, _, hissue⟩
  rcases Option.map_eq_some_iff.mp hissue with ⟨issue, hexpression, rfl⟩
  simp only [referenceIssue?] at hexpression
  split at hexpression
  · cases hexpression
    exact List.mem_cons_self
  · split at hexpression
    · cases hexpression
    · cases hexpression
      exact List.mem_cons_of_mem _ List.mem_cons_self

theorem code_of_mem_markerIssues {surroundings : Surroundings}
    {markers : List (Text.Position × Marker)} (h : located ∈ markerIssues surroundings markers) :
    located.issue.code ∈ commentCodes := by
  -- One case for each marker and what it stands in.
  fun_induction markerIssues surroundings markers <;> grind [Issue.code, commentCodes]

theorem code_of_mem_commentIssues {text : List Char} (h : located ∈ commentIssues text) :
    located.issue.code ∈ commentCodes :=
  code_of_mem_markerIssues h

theorem code_of_mem_lineIssues {number : Nat} {lines : List (List Char)}
    (h : located ∈ lineIssues number lines) : located.issue.code ∈ braceCodes := by
  fun_induction lineIssues number lines <;> grind [Issue.code, braceCodes, braceIssue?]

theorem code_of_mem_braceIssues (h : located ∈ braceIssues masked) :
    located.issue.code ∈ braceCodes :=
  code_of_mem_lineIssues h

theorem code_of_mem_unusedNames {expected : List String}
    (h : located ∈ unusedNames expected masked) :
    located.issue.code ∈ usageCodes := by
  rcases List.mem_map.mp h with ⟨name, _, rfl⟩
  exact List.mem_singleton_self _

end

def issuesWith (code : String) (issues : List Located) : List Located :=
  issues.filter fun located => located.issue.code == code

def findingsWith (code : String) (findings : List Finding) : List Finding :=
  findings.filter fun finding => finding.code == some code

section
variable {code : String}

theorem issuesWith_append (issues others : List Located) :
    issuesWith code (issues ++ others) = issuesWith code issues ++ issuesWith code others :=
  List.filter_append _ _

theorem filter_of_codes (keep : String → Bool) (kept : Bool) {issues : List Located}
    {codes : List String} (h : ∀ located ∈ issues, located.issue.code ∈ codes)
    (hkeep : ∀ code ∈ codes, keep code = kept) :
    (issues.filter fun located => keep located.issue.code) = if kept then issues else [] := by
  cases kept with
  | true =>
      rw [if_pos rfl, List.filter_eq_self]
      exact fun located hmem => hkeep _ (h located hmem)
  | false =>
      rw [if_neg Bool.false_ne_true, List.filter_eq_nil_iff]
      exact fun located hmem => Bool.not_eq_true _ ▸ hkeep _ (h located hmem)

theorem issuesWith_eq_nil {issues : List Located} {codes : List String}
    (h : ∀ located ∈ issues, located.issue.code ∈ codes) (hcode : code ∉ codes) :
    issuesWith code issues = [] := by
  apply filter_of_codes (· == code) false h
  intro other hother
  rw [beq_eq_false_iff_ne]
  rintro rfl
  exact hcode hother

theorem issuesWith_eq_nil_iff {issues : List Located} {codes : List String}
    (h : ∀ located ∈ issues, located.issue.code ∈ codes) :
    (∀ code ∈ codes, issuesWith code issues = []) ↔ issues = [] := by
  constructor
  · intro hnone
    rw [List.eq_nil_iff_forall_not_mem]
    intro located hmem
    have hcode := List.filter_eq_nil_iff.mp (hnone _ (h located hmem)) located hmem
    simp at hcode
  · rintro rfl code _
    rfl

theorem findingsWith_eq_nil_iff {findings : List Finding} :
    findingsWith code findings = [] ↔ ∀ finding ∈ findings, finding.code ≠ some code := by
  rw [findingsWith, List.filter_eq_nil_iff]
  simp only [beq_iff_eq, ne_eq]

/-- Some of the findings are listed as if there were no others. -/
theorem filter_lint (keep : Finding → Bool) (expected : List String) (file source : String) :
    (lintExpecting expected file source).filter keep =
      Finding.sorted (((issues expected source.toList).filter fun located =>
        keep (located.finding file)).map (Located.finding file)) := by
  rw [lintExpecting, Finding.filter_sorted, List.filter_map]
  rfl

theorem findingsWith_lint (code : String) (expected : List String) (file source : String) :
    findingsWith code (lintExpecting expected file source) =
      Finding.sorted
        ((issuesWith code (issues expected source.toList)).map (Located.finding file)) :=
  filter_lint _ expected file source

theorem perm_findingsWith (code : String) (expected : List String) (file source : String) :
    (findingsWith code (lintExpecting expected file source)).Perm
      ((issuesWith code (issues expected source.toList)).map (Located.finding file)) := by
  rw [findingsWith_lint]
  exact List.mergeSort_perm _ _

theorem filter_issues (keep : String → Bool) (directive reference comment brace usage : Bool)
    (hkeep : ∀ group ∈ [(directiveCodes, directive), (referenceCodes, reference),
      (commentCodes, comment), (braceCodes, brace), (usageCodes, usage)],
      ∀ code ∈ group.1, keep code = group.2) (expected : List String) (source : List Char) :
    ((issues expected source).filter fun located => keep located.issue.code) =
      (if directive then directiveIssues (mask source) else []) ++
        (if reference then referenceIssues (mask source) else []) ++
        (if comment then commentIssues source else []) ++
        (if brace then braceIssues (mask source) else []) ++
        (if usage then unusedNames expected (mask source) else []) := by
  simp only [List.forall_mem_cons] at hkeep
  rcases hkeep with ⟨hdirective, hreference, hcomment, hbrace, husage, _⟩
  have hdirectives : (directiveIssues (mask source)).filter (fun located =>
      keep located.issue.code) = if directive then directiveIssues (mask source) else [] :=
    filter_of_codes keep directive (fun _ => code_of_mem_scopeIssues) hdirective
  rw [issues, List.filter_append, List.filter_append, List.filter_append, List.filter_append,
    hdirectives, filter_of_codes keep reference (fun _ => code_of_mem_referenceIssues) hreference,
    filter_of_codes keep comment (fun _ => code_of_mem_commentIssues) hcomment,
    filter_of_codes keep brace (fun _ => code_of_mem_braceIssues) hbrace,
    filter_of_codes keep usage (fun _ => code_of_mem_unusedNames) husage]

theorem contains_code (codes : List String) (located : Located) (file : String) :
    (codes.map some).contains (located.finding file).code = codes.contains located.issue.code := by
  rw [Bool.eq_iff_iff, List.contains_iff_mem, List.contains_iff_mem, Located.finding, List.mem_map]
  simp only [Option.some.injEq, exists_eq_right]

theorem issuesWith_of_mem_commentCodes (hcode : code ∈ commentCodes) (expected : List String)
    (source : List Char) :
    issuesWith code (issues expected source) = issuesWith code (commentIssues source) := by
  have hothers : ∀ codes ∈ [directiveCodes, referenceCodes, braceCodes, usageCodes],
      code ∉ codes := by
    revert code
    decide
  simp only [List.forall_mem_cons] at hothers
  rcases hothers with ⟨hdirective, hreference, hbrace, husage, _⟩
  have hdirectives : issuesWith code (directiveIssues (mask source)) = [] :=
    issuesWith_eq_nil (fun _ => code_of_mem_scopeIssues) hdirective
  rw [issues, issuesWith_append, issuesWith_append, issuesWith_append, issuesWith_append,
    hdirectives, issuesWith_eq_nil (fun _ => code_of_mem_referenceIssues) hreference,
    issuesWith_eq_nil (fun _ => code_of_mem_braceIssues) hbrace,
    issuesWith_eq_nil (fun _ => code_of_mem_unusedNames) husage]
  simp only [List.append_nil, List.nil_append]

theorem issuesWith_of_mem_directiveCodes (hcode : code ∈ directiveCodes) (expected : List String)
    (source : List Char) :
    issuesWith code (issues expected source) = issuesWith code (directiveIssues (mask source)) := by
  have hothers : ∀ codes ∈ [referenceCodes, commentCodes, braceCodes, usageCodes],
      code ∉ codes := by
    revert code
    decide
  simp only [List.forall_mem_cons] at hothers
  rcases hothers with ⟨hreference, hcomment, hbrace, husage, _⟩
  rw [issues, issuesWith_append, issuesWith_append, issuesWith_append, issuesWith_append,
    issuesWith_eq_nil (fun _ => code_of_mem_referenceIssues) hreference,
    issuesWith_eq_nil (fun _ => code_of_mem_commentIssues) hcomment,
    issuesWith_eq_nil (fun _ => code_of_mem_braceIssues) hbrace,
    issuesWith_eq_nil (fun _ => code_of_mem_unusedNames) husage]
  simp only [List.append_nil]

/-- The findings with a code of directives are the issues of these, whatever else is found. -/
theorem perm_findingsWith_directive (hcode : code ∈ directiveCodes) (expected : List String)
    (file source : String) :
    (findingsWith code (lintExpecting expected file source)).Perm
      ((issuesWith code (directiveIssues (mask source.toList))).map (Located.finding file)) := by
  rw [← issuesWith_of_mem_directiveCodes hcode expected]
  exact perm_findingsWith code expected file source

end

end Template
end StencilDesk
