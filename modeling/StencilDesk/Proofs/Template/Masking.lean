import Mathlib.Data.List.Forall2
import StencilDesk.Proofs.FindingOrder
import StencilDesk.Proofs.Template.Codes
import StencilDesk.Proofs.Template.Comments
import StencilDesk.Proofs.Text.Positions

/-!
# What masking hides

A masked text has the length and the line feeds of the text. It has no template comments, and is its
own mask. So texts that only differ in what stands in their comments have the same findings, except
for those about the comments themselves.
-/

namespace StencilDesk
namespace Template

/-!
## Characters
-/

theorem maskedChar_eq_newLine_iff {c : Char} : maskedChar c = '\n' ↔ c = '\n' := by
  rw [maskedChar]
  split
  · next h => simp [h]
  · next h => simp [h]

theorem maskedChar_eq_iff {c d : Char} : maskedChar c = maskedChar d ↔ (c = '\n' ↔ d = '\n') := by
  rw [← maskedChar_eq_newLine_iff, ← @maskedChar_eq_newLine_iff d]
  constructor
  · intro h
    rw [h]
  · rw [maskedChar, maskedChar]
    split <;> split <;> simp

theorem map_maskedChar_eq_iff {a b : List Char} :
    a.map maskedChar = b.map maskedChar ↔ Text.SameLines a b := by
  have hlineFeed : ∀ (text : List Char) (i : Nat),
      (text.map maskedChar)[i]? = some '\n' ↔ text[i]? = some '\n' := by
    intro text i
    rw [List.getElem?_map, Option.map_eq_some_iff]
    simp only [maskedChar_eq_newLine_iff, exists_eq_right]
  constructor
  · intro h
    constructor
    · simpa using congrArg List.length h
    · intro i
      rw [← hlineFeed, h, hlineFeed]
  · intro h
    apply List.ext_getElem
    · rw [List.length_map, List.length_map, h.length]
    · intro i hi hj
      rw [List.length_map] at hi hj
      have hlines := h.lineFeed_iff i
      rw [List.getElem?_eq_getElem hi, List.getElem?_eq_getElem hj, Option.some.injEq,
        Option.some.injEq] at hlines
      rw [List.getElem_map, List.getElem_map]
      exact maskedChar_eq_iff.mpr hlines

def Shows (c shown : Char) : Prop :=
  shown = c ∨ shown = maskedChar c

/-- Every character stays as it is, or is masked. -/
theorem forall₂_maskFrom (inside : Bool) (text : List Char) :
    List.Forall₂ Shows text (maskFrom inside text) := by
  fun_induction maskFrom inside text with
  | case1 rest ih =>
      exact .cons (.inr rfl) (.cons (.inr rfl) (.cons (.inr rfl) (.cons (.inr rfl) ih)))
  | case2 c rest _ ih => exact .cons (.inl rfl) ih
  | case3 rest ih => exact .cons (.inr rfl) (.cons (.inr rfl) (.cons (.inr rfl) ih))
  | case4 c rest _ ih => exact .cons (.inr rfl) ih
  | case5 => exact .nil

theorem sameLines_of_shown {text shown : List Char} (h : List.Forall₂ Shows text shown) :
    Text.SameLines shown text := by
  induction h with
  | nil => exact ⟨rfl, fun _ => Iff.rfl⟩
  | cons hc _ ih =>
      rw [Text.sameLines_cons_iff]
      refine ⟨?_, ih⟩
      rcases hc with rfl | rfl
      · exact Iff.rfl
      · exact maskedChar_eq_newLine_iff

theorem sameLines_mask (source : List Char) : Text.SameLines (mask source) source :=
  sameLines_of_shown (forall₂_maskFrom false source)

/-- Holds of the texts that masking cannot make: without spaces and line feeds. -/
def Solid (text : List Char) : Prop :=
  ∀ c ∈ text, c ≠ ' ' ∧ c ≠ '\n'

theorem eq_of_shown {text shown : List Char} (h : List.Forall₂ Shows text shown)
    (hsolid : Solid shown) : text = shown := by
  induction h with
  | nil => rfl
  | cons hc _ ih =>
      rw [Solid, List.forall_mem_cons] at hsolid
      rw [ih hsolid.2]
      rcases hc with rfl | rfl
      · rfl
      · rw [maskedChar] at hsolid
        split at hsolid
        · exact absurd rfl hsolid.1.2
        · exact absurd rfl hsolid.1.1

/-- What stands in the masked text without spaces stands in the text, at the same place. -/
theorem exists_shown {source before construct behind : List Char}
    (hmask : mask source = before ++ (construct ++ behind)) (hsolid : Solid construct) :
    ∃ front rest, source = front ++ (construct ++ rest) ∧
      ∀ p : Text.Position, p.behind front = p.behind before := by
  have hshown := forall₂_maskFrom false source
  rw [← mask, hmask] at hshown
  have hfront := List.forall₂_take_append _ _ _ hshown
  have hrest := List.forall₂_drop_append _ _ _ hshown
  have hconstruct := eq_of_shown (List.forall₂_take_append _ _ _ hrest) hsolid
  refine ⟨source.take before.length, (source.drop before.length).drop construct.length, ?_, ?_⟩
  · nth_rewrite 1 [← List.take_append_drop before.length source,
      ← List.take_append_drop construct.length (source.drop before.length), hconstruct]
    rfl
  · intro p
    exact ((sameLines_of_shown hfront).behind_eq p).symm

/-!
## The masked text
-/

theorem not_opening_append {gap blanks behind : List Char} (hgap : ¬commentOpening <:+: gap)
    (hblanks : ∀ c ∈ blanks, c ∉ commentOpening) (hsome : blanks ≠ [])
    (hbehind : ¬commentOpening <:+: behind) : ¬commentOpening <:+: gap ++ (blanks ++ behind) := by
  induction blanks generalizing gap with
  | nil => exact absurd rfl hsome
  | cons c blanks ih =>
      rw [List.forall_mem_cons] at hblanks
      intro h
      rcases Text.infix_append_cons_of_not_mem hblanks.1 h with hearlier | hlater
      · exact hgap hearlier
      · cases blanks with
        | nil => exact hbehind hlater
        | cons d blanks =>
            have hnil : ¬commentOpening <:+: [] := by simp [commentOpening]
            exact ih hnil hblanks.2 (List.cons_ne_nil _ _) hlater

theorem blank_of_mem_map {text : List Char} : ∀ c ∈ text.map maskedChar, c ∉ commentOpening := by
  intro c hc
  rcases List.mem_map.mp hc with ⟨d, _, rfl⟩
  exact maskedChar_not_mem_opening

theorem not_opening_mask (source : List Char) : ¬commentOpening <:+: mask source := by
  rcases exists_divided source with ⟨parts, hparts⟩
  induction hparts with
  | plain htext => rwa [mask_plain htext]
  | unended hgap hbody =>
      have hnil : ¬commentOpening <:+: [] := by simp [commentOpening]
      rw [mask_unended hgap hbody, ← List.append_nil (Part.masked _)]
      exact not_opening_append hgap blank_of_mem_map (List.cons_ne_nil _ _) hnil
  | comment hgap hbody _ ih =>
      rw [mask_comment hgap hbody]
      exact not_opening_append hgap blank_of_mem_map (List.cons_ne_nil _ _) ih

theorem mask_mask (source : List Char) : mask (mask source) = mask source :=
  mask_plain (not_opening_mask source)

/-!
## Other comments
-/

/-- Holds of texts that are the same but for the bodies of comments, which have the same length and
the same line feeds in both. -/
inductive SameOutside : List Char → List Char → Prop where
  | same (text : List Char) : SameOutside text text
  | comment {gap body other behind rest : List Char} (hgap : ¬commentOpening <:+: gap)
      (hbody : ¬commentClosing <:+: body) (hother : ¬commentClosing <:+: other)
      (hlines : Text.SameLines body other) (hbehind : SameOutside behind rest) :
      SameOutside (gap ++ (commentOpening ++ body ++ commentClosing ++ behind))
        (gap ++ (commentOpening ++ other ++ commentClosing ++ rest))

theorem SameOutside.mask_eq {a b : List Char} (h : SameOutside a b) : mask a = mask b := by
  induction h with
  | same _ => rfl
  | comment hgap hbody hother hlines _ ih =>
      rw [mask_comment hgap hbody, mask_comment hgap hother, ih]
      simp [Part.masked, Part.text, map_maskedChar_eq_iff.mpr hlines]

def besidesComments (findings : List Finding) : List Finding :=
  findings.filter fun finding => !(commentCodes.map some).contains finding.code

def maskedIssues (expected : List String) (masked : List Char) : List Located :=
  directiveIssues masked ++ referenceIssues masked ++ braceIssues masked ++
    unusedNames expected masked

/-- The findings that are not about comments are those of the masked text. -/
theorem besidesComments_lint (expected : List String) (file source : String) :
    besidesComments (lintExpecting expected file source) =
      Finding.sorted ((maskedIssues expected (mask source.toList)).map (Located.finding file)) := by
  have hissues := filter_issues (fun code => !commentCodes.contains code) true true false true true
    (by decide) expected source.toList
  simp only [if_true, Bool.false_eq_true, if_false, List.append_nil] at hissues
  rw [besidesComments, filter_lint]
  simp only [contains_code, hissues]
  rfl

/-- Holds of a text of which the mask shows what is outside comments, and nothing else. -/
structure HidesComments (source : List Char) : Prop where
  sameLines : Text.SameLines (mask source) source
  divided : ∃ parts, Divided source parts
  masked : ∀ parts, Divided source parts →
    source = parts.flatMap Part.text ∧ mask source = parts.flatMap Part.masked
  cleared : ¬commentOpening <:+: mask source
  fixed : mask (mask source) = mask source

/-- Masking hides comments and nothing else, and so no finding besides those about comments depends
on what stands in them. -/
theorem hidesComments_mask (source : String) :
    HidesComments source.toList ∧
      ∀ other : String, SameOutside source.toList other.toList → ∀ expected file,
        besidesComments (lintExpecting expected file source) =
          besidesComments (lintExpecting expected file other) := by
  constructor
  · constructor
    · exact sameLines_mask source.toList
    · exact exists_divided source.toList
    · intro parts hparts
      exact ⟨hparts.text_eq, hparts.mask_eq⟩
    · exact not_opening_mask source.toList
    · exact mask_mask source.toList
  · intro other hother expected file
    rw [besidesComments_lint, besidesComments_lint, hother.mask_eq]

def remarkedSource : String :=
  "é <#-- <#if\nx> --> $\x7b\x7d \x7d"

def rewordedSource : String :=
  "é <#-- $\x7béa\n/> --> $\x7b\x7d \x7d"

theorem sameOutside_reworded : SameOutside remarkedSource.toList rewordedSource.toList := by
  have hremarked : remarkedSource.toList = "é ".toList ++
      (commentOpening ++ " <#if\nx> ".toList ++ commentClosing ++ " $\x7b\x7d \x7d".toList) := by
    decide +kernel
  have hreworded : rewordedSource.toList = "é ".toList ++
      (commentOpening ++ " $\x7béa\n/> ".toList ++ commentClosing ++ " $\x7b\x7d \x7d".toList) := by
    decide +kernel
  rw [hremarked, hreworded]
  apply SameOutside.comment
  · decide +kernel
  · decide +kernel
  · decide +kernel
  · exact map_maskedChar_eq_iff.mp (by decide +kernel)
  · exact .same _

theorem hidesComments_mask_reworded :
    remarkedSource ≠ rewordedSource ∧ HidesComments remarkedSource.toList ∧
      SameOutside remarkedSource.toList rewordedSource.toList ∧
      besidesComments (lintExpecting ["x"] "a.ftl" remarkedSource) =
        besidesComments (lintExpecting ["x"] "a.ftl" rewordedSource) := by
  refine ⟨by decide, (hidesComments_mask remarkedSource).1, sameOutside_reworded, ?_⟩
  exact (hidesComments_mask remarkedSource).2 rewordedSource sameOutside_reworded ["x"] "a.ftl"

end Template
end StencilDesk
