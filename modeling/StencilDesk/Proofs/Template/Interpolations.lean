import Mathlib.Data.List.TakeWhile
import StencilDesk.Proofs.Template.Codes
import StencilDesk.Proofs.Template.References
import StencilDesk.Proofs.Template.Tags

/-!
# Interpolations and their references

An interpolation is written with its expression between braces, up to the first closing one. The
findings about references are those of the interpolations that a scan of the masked text finds, one
by one: an error if the expression is blank, a warning if it is no reference of the grammar, and
nothing otherwise.
-/

namespace StencilDesk

namespace Text

/-- Holds of a text and what is left of it without the blanks around it. -/
def Trims (text trimmed : List Char) : Prop :=
  ∃ front back, text = front ++ (trimmed ++ back) ∧ (∀ c ∈ front, isBlank c = true) ∧
    (∀ c ∈ back, isBlank c = true) ∧ (∀ c ∈ trimmed.head?, isBlank c = false) ∧
    ∀ c ∈ trimmed.getLast?, isBlank c = false

theorem trims_trim (text : List Char) : Trims text (trim text) := by
  rcases span_spec isBlank text with ⟨htext, hfront, hfirst⟩
  rw [← trimStart] at htext hfirst
  refine ⟨text.takeWhile isBlank, ?_⟩
  rcases blank_or_exists_last (trimStart text) with hblank | ⟨inner, c, blanks, hsplit, hc, hblanks⟩
  · have htrim : trim text = [] := trimEnd_of_blank hblank
    rw [htrim]
    exact ⟨trimStart text, htext, hfront, hblank, by simp, by simp⟩
  · have htrim : trim text = inner ++ [c] := by
      rw [trim, hsplit, trimEnd_append_blank inner hc hblanks]
    rw [htrim]
    refine ⟨blanks, ?_, hfront, hblanks, ?_, ?_⟩
    · rw [List.append_assoc, List.singleton_append, ← hsplit]
      exact htext
    · intro d hd
      apply hfirst
      rw [hsplit]
      cases inner <;> exact hd
    · intro d hd
      rw [List.getLast?_concat, Option.mem_def, Option.some.injEq] at hd
      exact hd ▸ hc

theorem Trims.trim_eq {text trimmed : List Char} (h : Trims text trimmed) :
    trim text = trimmed := by
  rcases h with ⟨front, back, rfl, hfront, hback, hfirst, hlast⟩
  rcases List.eq_nil_or_concat trimmed with rfl | ⟨inner, c, rfl⟩
  · have hblank : ∀ c ∈ front ++ back, isBlank c = true :=
      List.forall_mem_append.mpr ⟨hfront, hback⟩
    rw [List.nil_append, trim, trimStart, List.dropWhile_eq_nil_iff.mpr hblank]
    rfl
  · rw [List.concat_eq_append] at hfirst hlast ⊢
    have hstart : ∀ d ∈ (inner ++ [c] ++ back).head?, isBlank d = false := by
      intro d hd
      apply hfirst
      cases inner <;> exact hd
    have hc : isBlank c = false := hlast c List.getLast?_concat
    rw [trim, trimStart, (span_append hfront hstart).2, List.append_assoc, List.singleton_append,
      trimEnd_append_blank inner hc hback]

end Text

namespace Template

def interpolationOpening : List Char :=
  ['$', '{']

def Interpolates (expression spelled : List Char) : Prop :=
  spelled = interpolationOpening ++ (expression ++ ['}']) ∧ '}' ∉ expression

theorem recognises_interpolation : Text.Recognises interpolation? Interpolates where
  eq_some_iff := by
    intro text expression size
    constructor
    · intro h
      rw [interpolation?.eq_def] at h
      split at h
      · rename_i rest
        split at h
        · cases h
        · next hbrace =>
            rcases Text.span_spec (· != '}') rest with ⟨hrest, hinside, hfirst⟩
            rw [List.isEmpty_iff] at hbrace
            rcases List.exists_cons_of_ne_nil hbrace with ⟨c, behind, hlast⟩
            rw [hlast] at hrest hfirst
            have hc : c = '}' := by simpa using hfirst c rfl
            rw [hc] at hrest
            cases h
            refine ⟨_, behind, ?_, ?_, rfl, ?_⟩
            · simpa [interpolationOpening] using hrest
            · simp [interpolationOpening]
            · intro hmem
              simpa using hinside _ hmem
      · cases h
    · intro h
      rcases h with ⟨_, behind, rfl, rfl, rfl, hinside⟩
      have hkept : ∀ c ∈ expression, (c != '}') = true := by
        intro c hc
        rw [bne_iff_ne]
        rintro rfl
        exact hinside hc
      have hbrace : ∀ c ∈ ('}' :: behind).head?, (c != '}') = false := by
        intro c hc
        cases hc
        rfl
      rcases Text.span_append hkept hbrace with ⟨hexpression, hbehind⟩
      have hsplit : interpolationOpening ++ (expression ++ ['}']) ++ behind =
          '$' :: '{' :: (expression ++ '}' :: behind) := by simp [interpolationOpening]
      rw [hsplit, interpolation?, hexpression, hbehind]
      simp [interpolationOpening]
  nonempty := by
    intro expression spelled h
    rw [h.1]
    exact List.cons_ne_nil _ _

def referenceFindings (findings : List Finding) : List Finding :=
  findings.filter fun finding => (referenceCodes.map some).contains finding.code

/-- Holds of the interpolations that were found and of the findings that judge their expressions by
the grammar, one by one. -/
inductive Judged (file : String) : List (Text.Position × List Char) → List Finding → Prop where
  | nil : Judged file [] []
  | empty {place : Text.Position} {expression : List Char}
      {found : List (Text.Position × List Char)} {findings : List Finding}
      (htrims : Text.Trims expression []) (hrest : Judged file found findings) :
      Judged file ((place, expression) :: found)
        (Located.finding file ⟨.at place, .emptyReference⟩ :: findings)
  | invalid {place : Text.Position} {expression trimmed : List Char}
      {found : List (Text.Position × List Char)} {findings : List Finding}
      (htrims : Text.Trims expression trimmed) (hsome : trimmed ≠ [])
      (hinvalid : trimmed ∉ references) (hrest : Judged file found findings) :
      Judged file ((place, expression) :: found)
        (Located.finding file ⟨.at place, .invalidReference (String.ofList trimmed)⟩ :: findings)
  | valid {place : Text.Position} {expression trimmed : List Char}
      {found : List (Text.Position × List Char)} {findings : List Finding}
      (htrims : Text.Trims expression trimmed) (hvalid : trimmed ∈ references)
      (hrest : Judged file found findings) :
      Judged file ((place, expression) :: found) findings

/-- The issues of interpolations judge their expressions by the grammar. -/
theorem judged_issues (file : String) (found : List (Text.Position × List Char)) :
    Judged file found ((found.filterMap fun item =>
      (referenceIssue? item.2).map fun issue => ⟨.at item.1, issue⟩).map
        (Located.finding file)) := by
  induction found with
  | nil => exact .nil
  | cons item found ih =>
      rcases item with ⟨place, expression⟩
      have htrims := Text.trims_trim expression
      rw [List.filterMap_cons, referenceIssue?]
      by_cases hempty : Text.trim expression = []
      · rw [hempty] at htrims ⊢
        exact .empty htrims ih
      · rw [if_neg (by simpa using hempty)]
        by_cases hvalid : Text.trim expression ∈ references
        · rw [if_pos (isReference_iff.mpr hvalid)]
          exact .valid htrims hvalid ih
        · rw [if_neg fun h => hvalid (isReference_iff.mp h)]
          exact .invalid htrims hempty hvalid ih

theorem le_of_before {p q : Text.Position} (h : p.Before q) (file : String) (issue other : Issue) :
    (Located.finding file ⟨.at p, issue⟩).le (Located.finding file ⟨.at q, other⟩) = true := by
  rw [Finding.le]
  simp only [Located.finding, Finding.optionLe, Bool.or_eq_true, Bool.and_eq_true,
    decide_eq_true_iff, beq_iff_eq]
  exact h.imp_right fun hline => ⟨hline.1, Nat.le_of_lt hline.2⟩

theorem pairwise_referenceIssues (file : String) (masked : List Char) :
    ((referenceIssues masked).map (Located.finding file)).Pairwise fun a b => a.le b = true := by
  have hfound : Text.Scanned Interpolates [] masked (interpolations masked) :=
    recognises_interpolation.scanned_iff.mpr rfl
  have hordered := hfound.pairwise_before fun _ _ => recognises_interpolation.nonempty
  rw [List.pairwise_map, referenceIssues, List.pairwise_filterMap]
  apply hordered.imp
  intro a b hbefore located hlocated other hother
  rcases Option.map_eq_some_iff.mp hlocated with ⟨_, _, rfl⟩
  rcases Option.map_eq_some_iff.mp hother with ⟨_, _, rfl⟩
  exact le_of_before hbefore file _ _

theorem referenceFindings_lint (expected : List String) (file source : String) :
    referenceFindings (lintExpecting expected file source) =
      (referenceIssues (mask source.toList)).map (Located.finding file) := by
  have hissues := filter_issues referenceCodes.contains false true false false false (by decide)
    expected source.toList
  simp only [if_true, Bool.false_eq_true, if_false, List.append_nil, List.nil_append] at hissues
  rw [referenceFindings, filter_lint]
  simp only [contains_code, hissues]
  exact List.mergeSort_of_pairwise (pairwise_referenceIssues file _)

/-- The references of a template are judged by the grammar. -/
theorem judged_lint (expected : List String) (file source : String) :
    (∃ found, Text.Scanned Interpolates [] (mask source.toList) found) ∧
      ∀ found, Text.Scanned Interpolates [] (mask source.toList) found →
        Judged file found (referenceFindings (lintExpecting expected file source)) := by
  constructor
  · exact ⟨_, recognises_interpolation.scanned_iff.mpr rfl⟩
  · intro found hfound
    rw [referenceFindings_lint, recognises_interpolation.scanned_iff.mp hfound]
    exact judged_issues file _

def referringSource : String :=
  "$\x7ba.b(c)[0]\x7d $\x7b \x7d\n$\x7b$\x7bx\x7d\x7d"

def referringFound : List (Text.Position × List Char) :=
  [(⟨1, 1⟩, "a.b(c)[0]".toList), (⟨1, 14⟩, [' ']), (⟨2, 1⟩, "$\x7bx".toList)]

theorem scanned_referring :
    Text.Scanned Interpolates [] (mask referringSource.toList) referringFound := by
  rw [recognises_interpolation.scanned_iff]
  decide +kernel

theorem judged_lint_referring :
    Text.Scanned Interpolates [] (mask referringSource.toList) referringFound ∧
      Judged "a.ftl" referringFound
        (referenceFindings (lintExpecting ["a"] "a.ftl" referringSource)) :=
  ⟨scanned_referring, (judged_lint ["a"] "a.ftl" referringSource).2 _ scanned_referring⟩

end Template
end StencilDesk
