import StencilDesk.Proofs.Template.Usage
import StencilDesk.Proofs.Text.Padding

/-!
# Line ends

Lines can end with a carriage return before the line feed. It is one blank more at the end of each
line, and so is what masking makes of it in a comment. Every check finds the same at the same places
with or without it; only an expression that is no reference is told as it is written.
-/

namespace StencilDesk

namespace Finding

def unworded (finding : Finding) : Finding :=
  { finding with message := "" }

theorem map_unworded_sorted (findings : List Finding) :
    (sorted findings).map unworded = sorted (findings.map unworded) :=
  List.map_mergeSort fun _ _ _ _ => rfl

end Finding

namespace Text

/-- The text with a carriage return before each line feed. -/
def withReturns (text : List Char) : List Char :=
  text.flatMap fun c => if c = '\n' then ['\r', '\n'] else [c]

theorem padded_withReturns (text : List Char) : Padded text (withReturns text) := by
  induction text with
  | nil => exact .nil
  | cons c rest ih =>
      rw [withReturns, List.flatMap_cons]
      split
      · next hc =>
          rw [hc]
          exact .lineFeed isBlank_carriageReturn (by decide) ih
      · next hc => exact .other hc ih

theorem Padded.trim {text padded : List Char} (h : Padded text padded) :
    Padded (Text.trim text) (Text.trim padded) := by
  rcases trims_trim text with ⟨front, back, hsplit, hfront, hback, hfirst, hlast⟩
  generalize Text.trim text = trimmed at hsplit hfirst hlast
  rw [hsplit] at h
  rcases h.exists_parts with ⟨left, rest, rfl, hleft, hrest⟩
  rcases hrest.exists_parts with ⟨middle, right, rfl, hmiddle, hright⟩
  have htrims : Trims (left ++ (middle ++ right)) middle := by
    refine ⟨left, right, rfl, hleft.blank_iff.mpr hfront, hright.blank_iff.mpr hback, ?_, ?_⟩
    · intro c hc
      cases hmiddle with
      | nil => cases hc
      | other _ _ => exact hfirst c hc
      | lineFeed _ _ _ => cases hfirst '\n' rfl
    · rw [hmiddle.getLast?_eq]
      exact hlast
  rwa [htrims.trim_eq]

end Text

namespace Template

open Text (Padded Together)

section
variable {text padded : List Char}

/-!
## Comments
-/

theorem opening_of_padded (h : Padded text padded) (hstarts : commentOpening <+: padded) :
    commentOpening <+: text :=
  h.prefix_of_padded (by decide : '\n' ∉ ['<', '#', '-']) (by decide : Text.isBlank '-' = false)
    hstarts

theorem closing_of_padded (h : Padded text padded) (hstarts : commentClosing <+: padded) :
    commentClosing <+: text :=
  h.prefix_of_padded (by decide : '\n' ∉ ['-', '-']) (by decide : Text.isBlank '>' = false)
    hstarts

theorem not_opening_lineFeed (rest : List Char) : ¬commentOpening <+: '\n' :: rest := by
  intro hstarts
  exact absurd (List.cons_prefix_cons.mp hstarts).1 (by decide)

theorem not_closing_lineFeed (rest : List Char) : ¬commentClosing <+: '\n' :: rest := by
  intro hstarts
  exact absurd (List.cons_prefix_cons.mp hstarts).1 (by decide)

/-- The mask of a padded text is padded: in comments, carriage returns are masked as well. -/
theorem padded_maskFrom (inside : Bool) (h : Padded text padded) :
    Padded (maskFrom inside text) (maskFrom inside padded) := by
  have hspace : ' ' ≠ '\n' := by decide
  fun_induction maskFrom inside text generalizing padded with
  | case1 rest ih =>
      have hmarker : Padded (commentOpening ++ rest) padded := h
      rcases hmarker.exists_parts with ⟨left, right, rfl, hleft, hright⟩
      rw [hleft.eq_of_not_mem (by decide)]
      exact .other hspace (.other hspace (.other hspace (.other hspace (ih hright))))
  | case2 c rest hplain ih =>
      have hnone : ¬commentOpening <+: c :: rest := by
        intro hstarts
        rcases hstarts with ⟨behind, hbehind⟩
        rw [commentOpening, List.cons_append, List.cons.injEq] at hbehind
        exact hplain behind hbehind.1.symm hbehind.2.symm
      have hpadded : ¬commentOpening <+: padded := mt (opening_of_padded h) hnone
      cases h with
      | other hc hrest =>
          rw [maskFrom_false_cons hpadded]
          exact .other hc (ih hrest)
      | lineFeed hblank hpad hrest =>
          rw [maskFrom_false_cons hpadded, maskFrom_false_cons (not_opening_lineFeed _)]
          exact .lineFeed hblank hpad (ih hrest)
  | case3 rest ih =>
      have hmarker : Padded (commentClosing ++ rest) padded := h
      rcases hmarker.exists_parts with ⟨left, right, rfl, hleft, hright⟩
      rw [hleft.eq_of_not_mem (by decide)]
      exact .other hspace (.other hspace (.other hspace (ih hright)))
  | case4 c rest hplain ih =>
      have hnone : ¬commentClosing <+: c :: rest := by
        intro hstarts
        rcases hstarts with ⟨behind, hbehind⟩
        rw [commentClosing, List.cons_append, List.cons.injEq] at hbehind
        exact hplain behind hbehind.1.symm hbehind.2.symm
      have hpadded : ¬commentClosing <+: padded := mt (closing_of_padded h) hnone
      cases h with
      | other hc hrest =>
          rw [maskFrom_true_cons hpadded]
          exact .other (maskedChar_eq_newLine_iff.not.mpr hc) (ih hrest)
      | @lineFeed pad _ _ hblank hpad hrest =>
          have hmasked : maskedChar pad = ' ' := if_neg hpad
          rw [maskFrom_true_cons hpadded, maskFrom_true_cons (not_closing_lineFeed _), hmasked]
          exact .lineFeed (by decide) hspace (ih hrest)
  | case5 inside =>
      cases h
      cases inside <;> exact .nil

theorem padded_mask (h : Padded text padded) : Padded (mask text) (mask padded) :=
  padded_maskFrom false h

theorem paddable_marker : Text.Paddable Marker.Spells Eq where
  pad := by
    intro marker spelled padded hspelled hpadded
    have hline : '\n' ∉ spelled := by
      rw [hspelled]
      cases marker <;> decide
    rw [hpadded.eq_of_not_mem hline]
    exact ⟨marker, hspelled, rfl⟩
  unpad := by
    intro marker spelled padded hspelled hpadded
    have hline : '\n' ∉ spelled := by
      rw [← hpadded.mem_lineFeed_iff, hspelled]
      cases marker <;> decide
    rw [hpadded.eq_of_not_mem hline] at hspelled
    exact ⟨marker, hspelled⟩
  first := by
    intro marker spelled hspelled
    rw [hspelled]
    cases marker <;> exact ⟨_, _, rfl, rfl⟩
  last := by
    intro marker spelled hspelled
    rw [hspelled]
    cases marker with
    | openTemplate => exact ⟨['<', '#', '-'], '-', rfl, rfl⟩
    | openMarkup => exact ⟨['<', '!', '-'], '-', rfl, rfl⟩
    | close => exact ⟨['-', '-'], '>', rfl, rfl⟩

theorem commentIssues_padded (h : Padded text padded) :
    commentIssues padded = commentIssues text := by
  have htogether := paddable_marker.occurrences Marker.recognises_spells h
  have hequal : Together (@Eq Marker) = Eq := by
    ext a b
    exact Prod.ext_iff.symm
  rw [hequal, List.forall₂_eq_eq_eq] at htogether
  rw [commentIssues, commentIssues, htogether]

end

/-!
## Directives
-/

namespace Tag

/-- Holds of tags by which the same scopes begin and end. -/
def SameScope (tag other : Tag) : Prop :=
  tag.closing = other.closing ∧ tag.name = other.name ∧ tag.isScope = other.isScope

theorem written_eq (tag : Tag) :
    tag.written = opener tag.closing ++ tag.name.toList ++ (tag.attributes ++ ['>']) := by
  simp [written]

theorem lineFeed_not_mem_opener {letters : List Char} (closing : Bool)
    (h : ∀ c ∈ letters, isNameChar c = true) : '\n' ∉ opener closing ++ letters := by
  intro hmem
  rcases List.mem_append.mp hmem with hopener | hletters
  · exact (solid_opener _ _ hopener).2 rfl
  · exact (solid_name h _ hletters).2 rfl

theorem isBlank_of_isNameChar {c : Char} (h : isNameChar c = true) : Text.isBlank c = false := by
  have hstart : isIdentifierStart c = true := h
  exact isBlank_of_isIdentifierChar (isIdentifierChar_of_start hstart)

section
variable {tag : Tag} {attributes : List Char}

theorem closesItself_padded (h : Padded tag.attributes attributes) :
    ClosesItself { tag with attributes } ↔ tag.ClosesItself := by
  have hslash : Text.isBlank '/' = false := by decide
  constructor
  · intro hcloses
    rcases hcloses with ⟨front, blanks, hsplit, hblanks⟩
    rw [show attributes = front ++ '/' :: blanks from hsplit] at h
    rcases h.exists_unpadded_behind hslash with ⟨left, right, hleft, _, hright⟩
    exact ⟨left, right, hleft, hright.blank_iff.mp hblanks⟩
  · intro hcloses
    rcases hcloses with ⟨front, blanks, hsplit, hblanks⟩
    rw [hsplit, List.append_cons] at h
    rcases h.exists_parts with ⟨_, right, hleft, hfront, hright⟩
    rcases hfront.exists_parts with ⟨left, middle, rfl, _, hmiddle⟩
    rw [hmiddle.eq_of_not_mem (by decide)] at hleft
    exact ⟨left, right, by rw [← List.append_cons] at hleft; exact hleft,
      hright.blank_iff.mpr hblanks⟩

theorem isScope_padded (h : Padded tag.attributes attributes) :
    isScope { tag with attributes } = tag.isScope := by
  have hassigns : Assigns { tag with attributes } ↔ tag.Assigns :=
    and_congr_right fun _ => h.mem_iff (by decide)
  rw [Bool.eq_iff_iff, isScope_iff, isScope_iff, BoundsScope, BoundsScope, closesItself_padded h,
    hassigns]

theorem Proper.with_attributes (hproper : tag.Proper)
    (hfirst : ∀ c, Text.isBlank c = false → attributes.head? = some c →
      tag.attributes.head? = some c)
    (hinside : '>' ∉ attributes) : Proper { tag with attributes } where
  named := hproper.named
  letters := hproper.letters
  ended := by
    intro c hc
    rw [Bool.eq_false_iff]
    intro hchar
    rw [hproper.ended c (hfirst c (isBlank_of_isNameChar hchar) hc)] at hchar
    cases hchar
  inside := hinside

theorem Proper.padded (hproper : tag.Proper) (h : Padded tag.attributes attributes) :
    Proper { tag with attributes } := by
  have hbracket : '>' ∈ attributes ↔ '>' ∈ tag.attributes := h.mem_iff (by decide)
  exact hproper.with_attributes (fun _ hc => (h.head?_eq_some_iff hc).mp)
    (hbracket.not.mpr hproper.inside)

theorem Proper.unpadded (hproper : tag.Proper) (h : Padded attributes tag.attributes) :
    Proper { tag with attributes } := by
  have hbracket : '>' ∈ tag.attributes ↔ '>' ∈ attributes := h.mem_iff (by decide)
  exact hproper.with_attributes (fun _ hc => (h.head?_eq_some_iff hc).mpr)
    (hbracket.not.mp hproper.inside)

end

theorem paddable_spells : Text.Paddable Spells SameScope where
  pad := by
    intro tag spelled padded hspelled hpadded
    rcases hspelled with ⟨hproper, rfl⟩
    have hline := lineFeed_not_mem_opener tag.closing hproper.letters
    rw [written_eq] at hpadded
    rcases hpadded.exists_inner hline (by decide) with ⟨attributes, rfl, hattributes⟩
    refine ⟨{ tag with attributes }, ⟨hproper.padded hattributes, ?_⟩, rfl, rfl, ?_⟩
    · rw [written_eq]
    · exact (isScope_padded hattributes).symm
  unpad := by
    intro tag spelled padded hspelled hpadded
    rcases hspelled with ⟨hproper, rfl⟩
    rcases List.eq_nil_or_concat tag.name.toList with hnone | ⟨front, d, hname⟩
    · exact absurd hnone hproper.named
    · rw [List.concat_eq_append] at hname
      have hletters := hproper.letters
      rw [hname, List.forall_mem_append] at hletters
      have hd : Text.isBlank d = false :=
        isBlank_of_isNameChar (hletters.2 d (List.mem_singleton_self d))
      have hline := lineFeed_not_mem_opener tag.closing hletters.1
      rw [written_eq, hname, ← List.append_assoc (opener _)] at hpadded
      rcases hpadded.exists_inner_unpadded hline hd (by decide : Text.isBlank '>' = false) with
        ⟨attributes, rfl, hattributes⟩
      refine ⟨{ tag with attributes }, hproper.unpadded hattributes, ?_⟩
      rw [written_eq, hname, ← List.append_assoc (opener _)]
  first := by
    intro tag spelled hspelled
    rw [hspelled.2, written, opener]
    split
    · exact ⟨'<', _, rfl, rfl⟩
    · exact ⟨'<', _, rfl, rfl⟩
  last := by
    intro tag spelled hspelled
    rw [hspelled.2, written, ← List.append_assoc]
    exact ⟨_, '>', rfl, rfl⟩

end Tag

section
variable {padded masked : List Char}

theorem scopeTags_padded (h : Padded masked padded) : scopeTags padded = scopeTags masked := by
  have htogether := Tag.paddable_spells.occurrences Tag.recognises_spells h
  rw [scopeTags, scopeTags]
  generalize Text.occurrences Tag.recognise masked = found at htogether
  generalize Text.occurrences Tag.recognise padded = others at htogether
  induction htogether with
  | nil => rfl
  | @cons item other found others hsame _ ih =>
      rcases item with ⟨place, tag⟩
      rcases other with ⟨position, changed⟩
      rcases hsame with ⟨rfl, hclosing, hname, hscope⟩
      rw [List.filter_cons, List.filter_cons]
      dsimp only at hclosing hname hscope ⊢
      rw [hscope]
      split
      · rw [List.map_cons, List.map_cons, ih, hclosing, hname]
      · exact ih

theorem directiveIssues_padded (h : Padded masked padded) :
    directiveIssues padded = directiveIssues masked := by
  rw [directiveIssues, directiveIssues, scopeTags_padded h]

end

/-!
## References
-/

section
variable {text padded masked expression : List Char}

theorem paddable_interpolates : Text.Paddable Interpolates Padded where
  pad := by
    intro expression spelled padded hspelled hpadded
    rcases hspelled with ⟨rfl, hinside⟩
    rcases hpadded.exists_inner (by decide) (by decide) with ⟨other, rfl, hother⟩
    exact ⟨other, ⟨rfl, (hother.mem_iff (by decide)).not.mpr hinside⟩, hother⟩
  unpad := by
    intro expression spelled padded hspelled hpadded
    rcases hspelled with ⟨rfl, hinside⟩
    have hopening : '\n' ∉ ['$'] := by decide
    rcases hpadded.exists_inner_unpadded hopening (by decide : Text.isBlank '{' = false)
      (by decide : Text.isBlank '}' = false) with ⟨other, rfl, hother⟩
    exact ⟨other, rfl, (hother.mem_iff (by decide)).not.mp hinside⟩
  first := by
    intro expression spelled hspelled
    rw [hspelled.1]
    exact ⟨'$', _, rfl, rfl⟩
  last := by
    intro expression spelled hspelled
    rw [hspelled.1, ← List.append_assoc]
    exact ⟨_, '}', rfl, rfl⟩

/-- In padded texts, the same interpolations are found, with padded expressions. -/
theorem interpolations_padded (h : Padded masked padded) :
    List.Forall₂ (Together Padded) (interpolations masked) (interpolations padded) :=
  paddable_interpolates.occurrences recognises_interpolation h

theorem isIdentifierChar_of_isBlank {c : Char} (h : Text.isBlank c = true) :
    isIdentifierChar c = false := by
  rw [Bool.eq_false_iff]
  intro hchar
  rw [isBlank_of_isIdentifierChar hchar] at h
  cases h

theorem isIdentifierStart_of_isBlank {c : Char} (h : Text.isBlank c = true) :
    isIdentifierStart c = false := by
  rw [Bool.eq_false_iff]
  intro hstart
  rw [isBlank_of_isIdentifierChar (isIdentifierChar_of_start hstart)] at h
  cases h

namespace ReferenceState

def afterBlank : ReferenceState → Option ReferenceState
  | parentheses => some parentheses
  | brackets _ => some (brackets true)
  | _ => none

theorem step_blank (state : ReferenceState) {c : Char} (h : Text.isBlank c = true) :
    state.step c = state.afterBlank := by
  have hother : ∀ mark : Char, Text.isBlank mark = false → c ≠ mark := by
    intro mark hmark
    exact (Text.ne_of_isBlank hmark h).symm
  have hchar := isIdentifierChar_of_isBlank h
  have hstart := isIdentifierStart_of_isBlank h
  cases state <;>
    simp [step, afterBlank, hchar, hstart, hother '.' rfl, hother '?' rfl, hother '!' rfl,
      hother '(' rfl, hother ')' rfl, hother '[' rfl, hother ']' rfl]

theorem run_blanks (state : ReferenceState) {c d : Char} (hc : Text.isBlank c = true)
    (hd : Text.isBlank d = true) (rest : List Char) :
    state.run (c :: d :: rest) = state.run (d :: rest) := by
  rw [run, step_blank state hc]
  cases state with
  | parentheses => rfl
  | brackets filled =>
      -- The first of the blanks may fill the brackets; then the other one changes nothing.
      change (brackets true).run (d :: rest) = (brackets filled).run (d :: rest)
      rw [run, run, step_blank _ hd, step_blank _ hd]
      rfl
  | start | identifier | closed =>
      rw [run, step_blank _ hd]
      rfl

theorem run_padded (state : ReferenceState) (h : Padded text padded) :
    state.run padded = state.run text := by
  induction h generalizing state with
  | nil => rfl
  | @other c _ _ _ _ ih =>
      rw [run, run]
      cases state.step c with
      | none => rfl
      | some next => exact ih next
  | lineFeed hblank _ _ ih =>
      rw [run_blanks state hblank Text.isBlank_newline, run, run]
      cases state.step '\n' with
      | none => rfl
      | some next => exact ih next

end ReferenceState

def Issue.kind (issue : Issue) : Severity × String :=
  (issue.severity, issue.code)

theorem referenceIssue?_padded (h : Padded expression padded) :
    (referenceIssue? padded).map Issue.kind = (referenceIssue? expression).map Issue.kind := by
  have htrim := h.trim
  have hreference : isReference (Text.trim padded) = isReference (Text.trim expression) :=
    ReferenceState.run_padded .start htrim
  rw [referenceIssue?, referenceIssue?, htrim.isEmpty_eq, hreference]
  split
  · rfl
  · split <;> rfl

theorem unworded_finding (file : String) (spot : Spot) {issue other : Issue}
    (h : issue.kind = other.kind) :
    (Located.finding file ⟨spot, issue⟩).unworded =
      (Located.finding file ⟨spot, other⟩).unworded := by
  rcases Prod.mk.inj h with ⟨hseverity, hcode⟩
  simp only [Finding.unworded, Located.finding, hseverity, hcode]

theorem referenceIssues_padded (file : String) (h : Padded masked padded) :
    (referenceIssues padded).map (fun located => (located.finding file).unworded) =
      (referenceIssues masked).map fun located => (located.finding file).unworded := by
  rw [referenceIssues, referenceIssues, List.map_filterMap, List.map_filterMap]
  apply filterMap_eq_of_forall₂ (interpolations_padded h)
  intro item other htogether
  rcases item with ⟨place, expression⟩
  rcases other with ⟨position, changed⟩
  rcases htogether with ⟨hplace, hpadded⟩
  dsimp only at hplace hpadded ⊢
  have hkind := referenceIssue?_padded hpadded
  rw [hplace]
  cases hissue : referenceIssue? expression with
  | none =>
      rw [hissue, Option.map_none, Option.map_eq_none_iff] at hkind
      rw [hkind]
  | some issue =>
      rw [hissue, Option.map_some] at hkind
      rcases Option.map_eq_some_iff.mp hkind with ⟨reworded, hreworded, hsame⟩
      rw [hreworded, Option.map_some, Option.map_some, Option.map_some, Option.map_some,
        unworded_finding file _ hsame]

end

/-!
## Braces
-/

section
variable {padded masked line : List Char}

theorem countOpenings_append_blank (line : List Char) {pad : Char}
    (h : Text.isBlank pad = true) : countOpenings (line ++ [pad]) = countOpenings line := by
  fun_induction countOpenings line with
  | case1 rest ih => rw [List.cons_append, List.cons_append, countOpenings, ih]
  | case2 c rest hplain ih =>
      have hother : ∀ behind, c = '$' → rest ++ [pad] ≠ '{' :: behind := by
        intro behind hc hsplit
        cases rest with
        | nil =>
            rw [List.nil_append, List.cons.injEq] at hsplit
            exact Text.ne_of_isBlank (by decide) h hsplit.1.symm
        | cons d rest =>
            rw [List.cons_append, List.cons.injEq] at hsplit
            exact hplain rest hc (by rw [hsplit.1])
      rw [List.cons_append, countOpenings, ih]
      exact hother
  | case3 =>
      rw [List.nil_append, countOpenings, countOpenings]
      intro _ _ hsplit
      cases hsplit

theorem braceIssue?_padded (h : Text.EndsPadded line padded) :
    braceIssue? padded = braceIssue? line := by
  rcases h with rfl | ⟨pad, hblank, rfl⟩
  · rfl
  · have hbrace : [pad].count '}' = 0 := by
      rw [List.count_eq_zero, List.mem_singleton]
      exact Text.ne_of_isBlank (by decide) hblank
    rw [braceIssue?, braceIssue?, countOpenings_append_blank line hblank, List.count_append,
      hbrace, Nat.add_zero]

theorem lineIssues_padded (number : Nat) {lines others : List (List Char)}
    (h : List.Forall₂ Text.EndsPadded lines others) :
    lineIssues number others = lineIssues number lines := by
  induction h generalizing number with
  | nil => rfl
  | cons hline _ ih => rw [lineIssues, lineIssues, braceIssue?_padded hline, ih]

theorem braceIssues_padded (h : Padded masked padded) : braceIssues padded = braceIssues masked :=
  lineIssues_padded 1 h.lines

end

/-!
## Names
-/

section
variable {padded masked expression : List Char}

theorem leadingIdentifier?_padded (h : Padded expression padded) :
    leadingIdentifier? padded = leadingIdentifier? expression := by
  have htrimmed := h.trimStart
  rw [leadingIdentifier?, leadingIdentifier?]
  generalize Text.trimStart expression = trimmed at htrimmed
  generalize Text.trimStart padded = changed at htrimmed
  cases htrimmed with
  | nil => rfl
  | other _ hrest => simp only [hrest.takeWhile_eq fun _ => isIdentifierChar_of_isBlank]
  | lineFeed hblank _ _ =>
      simp only [isIdentifierStart_of_isBlank hblank,
        isIdentifierStart_of_isBlank Text.isBlank_newline]
      rfl

theorem unusedNames_padded (expected : List String) (h : Padded masked padded) :
    unusedNames expected padded = unusedNames expected masked := by
  have hnames : referencedNames padded = referencedNames masked := by
    rw [referencedNames, referencedNames]
    apply filterMap_eq_of_forall₂ (interpolations_padded h)
    intro item other htogether
    exact congrArg (Option.map String.ofList) (leadingIdentifier?_padded htogether.2)
  rw [unusedNames, unusedNames, hnames]

end

/-!
## All findings
-/

theorem issues_padded (expected : List String) (file : String) {source padded : List Char}
    (h : Padded source padded) :
    (issues expected padded).map (fun located => (located.finding file).unworded) =
      (issues expected source).map fun located => (located.finding file).unworded := by
  have hmasked := padded_mask h
  simp only [issues, List.map_append]
  rw [directiveIssues_padded hmasked, referenceIssues_padded file hmasked, commentIssues_padded h,
    braceIssues_padded hmasked, unusedNames_padded expected hmasked]

/-- With carriage returns before the line feeds, a template has the same findings at the same lines
and columns and in the same order. Only their messages may differ. -/
theorem map_unworded_lintExpecting_withReturns (expected : List String) (file source : String) :
    (lintExpecting expected file (String.ofList (Text.withReturns source.toList))).map
        Finding.unworded =
      (lintExpecting expected file source).map Finding.unworded := by
  rw [lintExpecting, lintExpecting, String.toList_ofList, Finding.map_unworded_sorted,
    Finding.map_unworded_sorted, List.map_map, List.map_map]
  exact congrArg Finding.sorted
    (issues_padded expected file (Text.padded_withReturns source.toList))

example : referenceIssues (Text.withReturns "$\x7ba\nb\x7d".toList) =
    [⟨.at ⟨1, 1⟩, .invalidReference "a\x0d\nb"⟩] := by
  decide +kernel

end Template
end StencilDesk
