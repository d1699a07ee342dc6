import StencilDesk.Proofs.Template.Places

/-!
# Names that are expected

Names can be expected to be used in a template. Whatever is expected, all other findings stay as
they are; behind them, the names are told that no interpolation starts with. An expression that is
a reference starts with its first identifier, so this identifier is used.
-/

namespace StencilDesk

namespace Template

/-- Holds of an expression and the identifier that it starts with, behind white space. -/
def LedBy (expression : List Char) (name : String) : Prop :=
  ∃ blanks rest, expression = blanks ++ (name.toList ++ rest) ∧
    (∀ c ∈ blanks, Text.isBlank c = true) ∧ name.toList ∈ identifiers ∧
    ∀ c ∈ rest.head?, isIdentifierChar c = false

def Leads (source : List Char) (name : String) : Prop :=
  ∃ found, Text.Scanned Interpolates [] (mask source) found ∧ ∃ item ∈ found, LedBy item.2 name

def unusedFinding (file name : String) : Finding where
  severity := .info
  message := s!"expected variable \x60{name}\x60 is never referenced"
  file := file
  code := some "unused-expected-variable"

/-!
## The first identifier
-/

theorem isBlank_of_isIdentifierChar {c : Char} (h : isIdentifierChar c = true) :
    Text.isBlank c = false := by
  rcases isIdentifierChar_iff.mp h with hletter | hmark
  · exact Text.isBlank_of_isAlphanum hletter
  · rw [hmark]
    rfl

theorem isIdentifierChar_of_start {c : Char} (h : isIdentifierStart c = true) :
    isIdentifierChar c = true := by
  rw [isIdentifierChar_iff, Char.isAlphanum, Bool.or_eq_true]
  exact (isIdentifierStart_iff.mp h).imp_left .inl

section
variable {expression : List Char} {name : String}

theorem leadingIdentifier?_eq_some_iff :
    (leadingIdentifier? expression).map String.ofList = some name ↔ LedBy expression name := by
  constructor
  · intro h
    rcases Option.map_eq_some_iff.mp h with ⟨letters, hletters, hname⟩
    rcases Text.span_spec Text.isBlank expression with ⟨hsplit, hblanks, _⟩
    rw [← Text.trimStart] at hsplit
    rw [leadingIdentifier?] at hletters
    split at hletters
    · rename_i c rest htrimmed
      split at hletters
      · rename_i hstart
        cases hletters
        rcases Text.span_spec isIdentifierChar rest with ⟨hrest, hinside, hbehind⟩
        refine ⟨expression.takeWhile Text.isBlank, rest.dropWhile isIdentifierChar, ?_, hblanks,
          ?_, hbehind⟩
        · rw [← hname, String.toList_ofList, List.cons_append, ← hrest, ← htrimmed]
          exact hsplit
        · rw [← hname, String.toList_ofList]
          exact ⟨c, _, rfl, isIdentifierStart_iff.mp hstart,
            fun d hd => isIdentifierChar_iff.mp (hinside d hd)⟩
      · cases hletters
    · cases hletters
  · intro h
    rcases h with ⟨blanks, rest, hsplit, hblanks, ⟨c, letters, hname, hstart, hinside⟩, hbehind⟩
    rw [← isIdentifierStart_iff] at hstart
    have hfirst : ∀ d ∈ (c :: (letters ++ rest)).head?, Text.isBlank d = false := by
      intro d hd
      cases hd
      exact isBlank_of_isIdentifierChar (isIdentifierChar_of_start hstart)
    have htrimmed : Text.trimStart expression = c :: (letters ++ rest) := by
      rw [hsplit, hname, Text.trimStart]
      exact (Text.span_append hblanks hfirst).2
    have hletters : (letters ++ rest).takeWhile isIdentifierChar = letters :=
      (Text.span_append (fun d hd => isIdentifierChar_iff.mpr (hinside d hd)) hbehind).1
    rw [leadingIdentifier?, htrimmed]
    simp only [hstart, if_true, hletters, Option.map_some]
    rw [← hname, String.ofList_toList]

end

theorem mem_referencedNames_iff {source : List Char} {name : String} :
    name ∈ referencedNames (mask source) ↔ Leads source name := by
  rw [referencedNames, List.mem_filterMap]
  simp only [Leads, recognises_interpolation.scanned_iff, exists_eq_left,
    leadingIdentifier?_eq_some_iff]
  rfl

instance (source : List Char) (name : String) : Decidable (Leads source name) :=
  decidable_of_iff _ mem_referencedNames_iff

/-- A reference starts with its first identifier, and so does an expression around it. -/
theorem exists_ledBy {expression trimmed : List Char} (htrims : Text.Trims expression trimmed)
    (h : trimmed ∈ references) :
    ∃ name rest, trimmed = String.toList name ++ rest ∧ name.toList ∈ identifiers ∧
      rest ∈ referenceRests ∧ LedBy expression name := by
  rw [references_eq, Language.mem_mul] at h
  rcases h with ⟨letters, hletters, rest, hrest, rfl⟩
  rcases htrims with ⟨blanks, back, hsplit, hblanks, hback, _, _⟩
  refine ⟨String.ofList letters, rest, ?_, ?_, hrest, blanks, rest ++ back, ?_, hblanks, ?_, ?_⟩
  · rw [String.toList_ofList]
  · rwa [String.toList_ofList]
  · rw [String.toList_ofList, hsplit, List.append_assoc]
  · rwa [String.toList_ofList]
  · -- Behind the identifier stands the rest of the reference, or a blank behind the reference.
    intro c hc
    rw [Bool.eq_false_iff]
    intro hchar
    cases rest with
    | nil =>
        have hblank := hback c (List.mem_of_mem_head? hc)
        rw [isBlank_of_isIdentifierChar hchar] at hblank
        cases hblank
    | cons d rest =>
        cases hc
        rw [← Text.mem_derivative_iff, derivative_referenceRests_eq_zero hchar] at hrest
        exact Language.notMem_zero rest hrest

/-!
## The list of findings
-/

theorem unusedNames_nil (masked : List Char) : unusedNames [] masked = [] := rfl

theorem issues_eq_append (expected : List String) (source : List Char) :
    issues expected source = issues [] source ++ unusedNames expected (mask source) := by
  simp only [issues, unusedNames_nil, List.append_nil]

theorem map_unusedNames (expected : List String) (file : String) (source : List Char) :
    (unusedNames expected (mask source)).map (Located.finding file) =
      (expected.filter fun name => ¬Leads source name).map (unusedFinding file) := by
  have hkept : (expected.filter fun name => !(referencedNames (mask source)).contains name) =
      expected.filter fun name => ¬Leads source name := by
    apply List.filter_congr
    intro name _
    rw [Bool.eq_iff_iff, decide_eq_true_iff, ← mem_referencedNames_iff, Bool.not_eq_true',
      ← Bool.not_eq_true, List.contains_iff_mem]
  rw [unusedNames, List.map_map, hkept]
  rfl

section
variable {file : String} {source : List Char} {located : Located}

theorem line_ne_none_of_pointsInto {codes : List String}
    (hpoints : PointsInto file source (located.finding file))
    (hcode : located.issue.code ∈ codes) (hother : "unused-expected-variable" ∉ codes) :
    (located.finding file).line ≠ none := by
  have hcodes : (located.finding file).code ≠ some "unused-expected-variable" := by
    intro hsame
    rw [← Option.some.inj hsame] at hother
    exact hother hcode
  generalize located.finding file = finding at hpoints hcodes
  cases hpoints with
  | construct _ _ _ => simp [Located.finding]
  | line _ _ _ => simp [Located.finding]
  | nowhere name => exact absurd rfl hcodes

theorem line_ne_none_of_mem (hmem : located ∈ issues [] source) :
    (located.finding file).line ≠ none := by
  simp only [issues, unusedNames_nil, List.append_nil, List.mem_append] at hmem
  rcases hmem with ((hdirective | hreference) | hcomment) | hbrace
  · exact line_ne_none_of_pointsInto (pointsInto_of_mem_directiveIssues hdirective)
      (code_of_mem_scopeIssues hdirective) (by decide)
  · exact line_ne_none_of_pointsInto (pointsInto_of_mem_referenceIssues hreference)
      (code_of_mem_referenceIssues hreference) (by decide)
  · exact line_ne_none_of_pointsInto (pointsInto_of_mem_commentIssues hcomment)
      (code_of_mem_commentIssues hcomment) (by decide)
  · exact line_ne_none_of_pointsInto (pointsInto_of_mem_braceIssues hbrace)
      (code_of_mem_braceIssues hbrace) (by decide)

end

/-- Expected names add findings behind all others, one for each name with which no interpolation
outside comments starts; and the first identifier of a reference is such a name. -/
theorem lintExpecting_eq_append (expected : List String) (file source : String) :
    lintExpecting expected file source = lint file source ++
        (expected.filter fun name => ¬Leads source.toList name).map (unusedFinding file) ∧
      ∀ found, Text.Scanned Interpolates [] (mask source.toList) found →
        ∀ item ∈ found, ∀ trimmed, Text.Trims item.2 trimmed → trimmed ∈ references →
          ∃ name rest, trimmed = String.toList name ++ rest ∧ name.toList ∈ identifiers ∧
            rest ∈ referenceRests ∧ Leads source.toList name := by
  constructor
  · have hplaced : ∀ finding ∈ (issues [] source.toList).map (Located.finding file),
        finding.line ≠ none := by
      rw [List.forall_mem_map]
      exact fun located hmem => line_ne_none_of_mem hmem
    have hunplaced : ∀ finding ∈ (expected.filter fun name => ¬Leads source.toList name).map
        (unusedFinding file), finding.line = none ∧ finding.column = none := by
      rw [List.forall_mem_map]
      exact fun _ _ => ⟨rfl, rfl⟩
    rw [lintExpecting, issues_eq_append, List.map_append, map_unusedNames,
      Finding.sorted_append hplaced hunplaced]
    rfl
  · intro found hfound item hitem trimmed htrims hvalid
    rcases exists_ledBy htrims hvalid with ⟨name, rest, hsplit, hname, hrest, hled⟩
    exact ⟨name, rest, hsplit, hname, hrest, found, hfound, item, hitem, hled⟩

def usingSource : String :=
  "<#-- $\x7bc\x7d -->\n$\x7b a.b \x7d </#if>"

def usingFound : List (Text.Position × List Char) :=
  [(⟨2, 1⟩, " a.b ".toList)]

theorem lintExpecting_eq_append_using :
    Text.Scanned Interpolates [] (mask usingSource.toList) usingFound ∧
      Text.Trims " a.b ".toList "a.b".toList ∧ "a.b".toList ∈ references ∧
      lintExpecting ["b", "a", "c", "b"] "a.ftl" usingSource = lint "a.ftl" usingSource ++
        [unusedFinding "a.ftl" "b", unusedFinding "a.ftl" "c", unusedFinding "a.ftl" "b"] ∧
      ∃ name rest, "a.b".toList = String.toList name ++ rest ∧ name.toList ∈ identifiers ∧
        rest ∈ referenceRests ∧ Leads usingSource.toList name := by
  have hscanned : Text.Scanned Interpolates [] (mask usingSource.toList) usingFound := by
    rw [recognises_interpolation.scanned_iff]
    decide +kernel
  have htrims : Text.Trims " a.b ".toList "a.b".toList := Text.trims_trim _
  have hvalid : "a.b".toList ∈ references := isReference_iff.mp (by decide)
  have hunused : (["b", "a", "c", "b"].filter fun name => ¬Leads usingSource.toList name) =
      ["b", "c", "b"] := by decide +kernel
  have happend := lintExpecting_eq_append ["b", "a", "c", "b"] "a.ftl" usingSource
  rw [hunused] at happend
  exact ⟨hscanned, htrims, hvalid, happend.1,
    happend.2 _ hscanned _ (List.mem_singleton_self _) _ htrims hvalid⟩

end Template
end StencilDesk
