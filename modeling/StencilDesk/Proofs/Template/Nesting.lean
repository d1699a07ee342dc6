import StencilDesk.Proofs.Template.Codes
import StencilDesk.Proofs.Template.Tags

/-!
# Nested scopes

Every sequence of scope tags falls apart into pairs and single tags: a closing tag ends the
innermost scope that is open, whatever its name, some find none, and some scopes stay open. The
check of a template tells of exactly the pairs with different names and of the tags without a
partner, so it has nothing to tell if the tags are well nested, and only then.
-/

namespace StencilDesk
namespace Template

/-!
## Sequences of scope tags
-/

/-- Holds of the sequences in which every tag has its partner: the words of the Dyck language over
the names of directives. -/
inductive WellNested : List ScopeTag → Prop where
  | nil : WellNested []
  | nest {opening closing : ScopeTag} {inner rest : List ScopeTag}
      (hopening : opening.closing = false) (hclosing : closing.closing = true)
      (hname : opening.name = closing.name) (hinner : WellNested inner) (hrest : WellNested rest) :
      WellNested (opening :: inner ++ closing :: rest)

/-- Holds of the sequences in which every tag has a partner, perhaps of another name, and of these
pairs, in the order of their closing tags. -/
inductive Balanced : List ScopeTag → List (ScopeTag × ScopeTag) → Prop where
  | nil : Balanced [] []
  | pair {opening closing : ScopeTag} {inner rest : List ScopeTag}
      {innerPairs restPairs : List (ScopeTag × ScopeTag)}
      (hopening : opening.closing = false) (hclosing : closing.closing = true)
      (hinner : Balanced inner innerPairs) (hrest : Balanced rest restPairs) :
      Balanced (opening :: inner ++ closing :: rest)
        (innerPairs ++ (opening, closing) :: restPairs)

/-- How a sequence falls apart: into pairs, closing tags without a scope, and scopes that stay
open. -/
structure Pairing where
  pairs : List (ScopeTag × ScopeTag)
  strays : List ScopeTag
  unclosed : List ScopeTag

/-- Holds of a sequence and what it falls apart into. No scope that stays open has a stray closing
tag behind it. -/
inductive Paired : List ScopeTag → Pairing → Prop where
  | balanced {tags : List ScopeTag} {pairs : List (ScopeTag × ScopeTag)}
      (h : Balanced tags pairs) : Paired tags ⟨pairs, [], []⟩
  | stray {first rest : List ScopeTag} {closing : ScopeTag} {pairs : List (ScopeTag × ScopeTag)}
      {pairing : Pairing} (hfirst : Balanced first pairs) (hclosing : closing.closing = true)
      (hrest : Paired rest pairing) :
      Paired (first ++ closing :: rest)
        ⟨pairs ++ pairing.pairs, closing :: pairing.strays, pairing.unclosed⟩
  | unclosed {first rest : List ScopeTag} {opening : ScopeTag}
      {pairs : List (ScopeTag × ScopeTag)} {pairing : Pairing} (hfirst : Balanced first pairs)
      (hopening : opening.closing = false) (hrest : Paired rest pairing)
      (hstrays : pairing.strays = []) :
      Paired (first ++ opening :: rest)
        ⟨pairs ++ pairing.pairs, [], opening :: pairing.unclosed⟩

namespace Pairing

def matched (pairing : Pairing) : List (ScopeTag × ScopeTag) :=
  pairing.pairs.filter fun pair => pair.1.name == pair.2.name

def mismatched (pairing : Pairing) : List (ScopeTag × ScopeTag) :=
  pairing.pairs.filter fun pair => pair.1.name != pair.2.name

theorem length_matched_add (pairing : Pairing) :
    pairing.matched.length + pairing.mismatched.length = pairing.pairs.length := by
  rw [matched, mismatched, ← List.countP_eq_length_filter, ← List.countP_eq_length_filter,
    List.length_eq_countP_add_countP fun pair => pair.1.name == pair.2.name]
  congr 2
  funext pair
  cases hname : pair.1.name == pair.2.name with
  | true => simp [bne, hname]
  | false => simp [bne, hname]

end Pairing

section
variable {tags rest : List ScopeTag} {pairs restPairs : List (ScopeTag × ScopeTag)}
  {pairing : Pairing}

theorem Balanced.append (h : Balanced tags pairs) (hrest : Balanced rest restPairs) :
    Balanced (tags ++ rest) (pairs ++ restPairs) := by
  induction h with
  | nil => exact hrest
  | pair hopening hclosing hinner _ _ ih =>
      rw [List.append_assoc, List.append_assoc]
      exact .pair hopening hclosing hinner ih

theorem wellNested_iff :
    WellNested tags ↔ ∃ pairs, Balanced tags pairs ∧ ∀ pair ∈ pairs, pair.1.name = pair.2.name := by
  constructor
  · intro h
    induction h with
    | nil => exact ⟨[], .nil, List.forall_mem_nil _⟩
    | nest hopening hclosing hname _ _ ihInner ihRest =>
        rcases ihInner with ⟨innerPairs, hinner, hinnerNames⟩
        rcases ihRest with ⟨restPairs, hrest, hrestNames⟩
        refine ⟨_, .pair hopening hclosing hinner hrest, ?_⟩
        rw [List.forall_mem_append, List.forall_mem_cons]
        exact ⟨hinnerNames, hname, hrestNames⟩
  · rintro ⟨pairs, h, hnames⟩
    induction h with
    | nil => exact .nil
    | pair hopening hclosing _ _ ihInner ihRest =>
        rw [List.forall_mem_append, List.forall_mem_cons] at hnames
        exact .nest hopening hclosing hnames.2.1 (ihInner hnames.1) (ihRest hnames.2.2)

theorem Paired.prepend (hrest : Paired rest pairing) (h : Balanced tags pairs) :
    Paired (tags ++ rest) ⟨pairs ++ pairing.pairs, pairing.strays, pairing.unclosed⟩ := by
  cases hrest with
  | balanced hbalanced => exact .balanced (h.append hbalanced)
  | stray hfirst hclosing hrest =>
      rw [← List.append_assoc, ← List.append_assoc]
      exact .stray (h.append hfirst) hclosing hrest
  | unclosed hfirst hopening hrest hstrays =>
      rw [← List.append_assoc, ← List.append_assoc]
      exact .unclosed (h.append hfirst) hopening hrest hstrays

/-- Every sequence falls apart. -/
theorem exists_paired (tags : List ScopeTag) : ∃ pairing, Paired tags pairing := by
  -- A scope that opens before all others is ended by the first stray closing tag.
  induction tags with
  | nil => exact ⟨_, .balanced .nil⟩
  | cons tag rest ih =>
      rcases ih with ⟨pairing, hrest⟩
      cases hclosing : tag.closing with
      | true => exact ⟨_, .stray .nil hclosing hrest⟩
      | false =>
          cases hrest with
          | balanced hbalanced => exact ⟨_, .unclosed .nil hclosing (.balanced hbalanced) rfl⟩
          | stray hfirst hend hbehind =>
              have hpaired := hbehind.prepend (.pair hclosing hend hfirst .nil)
              rw [List.append_assoc] at hpaired
              exact ⟨_, hpaired⟩
          | unclosed hfirst hopening hbehind hstrays =>
              exact ⟨_, .unclosed .nil hclosing (.unclosed hfirst hopening hbehind hstrays) rfl⟩

/-!
### Counting
-/

theorem Balanced.counts (h : Balanced tags pairs) :
    tags.countP ScopeTag.closing = pairs.length ∧
      (tags.countP fun tag => !tag.closing) = pairs.length := by
  induction h with
  | nil => exact ⟨rfl, rfl⟩
  | pair hopening hclosing _ _ ihInner ihRest =>
      simp only [List.countP_append, List.countP_cons, List.length_append, List.length_cons]
      grind

/-- Every closing tag ends a scope or is a stray one, and every scope is ended or stays open. -/
theorem Paired.counts (h : Paired tags pairing) :
    tags.countP ScopeTag.closing = pairing.pairs.length + pairing.strays.length ∧
      (tags.countP fun tag => !tag.closing) = pairing.pairs.length + pairing.unclosed.length := by
  induction h with
  | balanced hbalanced => exact hbalanced.counts
  | stray hfirst hclosing _ ih =>
      have hbefore := hfirst.counts
      simp only [List.countP_append, List.countP_cons, List.length_append, List.length_cons]
      grind
  | unclosed hfirst hopening _ hstrays ih =>
      have hbefore := hfirst.counts
      simp only [List.countP_append, List.countP_cons, List.length_append, List.length_cons]
      grind

theorem Paired.of_mem_unclosed (h : Paired tags pairing) {tag : ScopeTag}
    (hmem : tag ∈ pairing.unclosed) : tag ∈ tags ∧ tag.closing = false := by
  induction h with
  | balanced _ => cases hmem
  | stray _ _ _ ih =>
      rcases ih hmem with ⟨hrest, hopening⟩
      exact ⟨List.mem_append_right _ (List.mem_cons_of_mem _ hrest), hopening⟩
  | unclosed _ hopening _ _ ih =>
      rcases List.mem_cons.mp hmem with rfl | hlater
      · exact ⟨List.mem_append_right _ List.mem_cons_self, hopening⟩
      · rcases ih hlater with ⟨hrest, hopening⟩
        exact ⟨List.mem_append_right _ (List.mem_cons_of_mem _ hrest), hopening⟩

end

/-!
## What the check tells
-/

def mismatchOf (pair : ScopeTag × ScopeTag) : Located :=
  ⟨.at pair.2.position, .mismatch pair.1.name pair.1.position.line pair.2.name⟩

def strayOf (tag : ScopeTag) : Located :=
  ⟨.at tag.position, .unmatchedClosing tag.name⟩

def unclosedOf (tag : ScopeTag) : Located :=
  ⟨.at tag.position, .unclosed tag.name⟩

def mismatches (pairs : List (ScopeTag × ScopeTag)) : List Located :=
  (pairs.filter fun pair => pair.1.name != pair.2.name).map mismatchOf

def Pairing.issues (pairing : Pairing) : List Located :=
  mismatches pairing.pairs ++ pairing.strays.map strayOf ++ pairing.unclosed.map unclosedOf

section
variable {tags : List ScopeTag} {pairs : List (ScopeTag × ScopeTag)} {pairing : Pairing}

theorem mismatches_append (pairs others : List (ScopeTag × ScopeTag)) :
    mismatches (pairs ++ others) = mismatches pairs ++ mismatches others := by
  rw [mismatches, List.filter_append, List.map_append]
  rfl

theorem mismatches_cons (pair : ScopeTag × ScopeTag) (rest : List (ScopeTag × ScopeTag)) :
    mismatches (pair :: rest) = mismatches [pair] ++ mismatches rest :=
  mismatches_append [pair] rest

theorem mismatches_eq_nil_iff :
    mismatches pairs = [] ↔ ∀ pair ∈ pairs, pair.1.name = pair.2.name := by
  rw [mismatches, List.map_eq_nil_iff, List.filter_eq_nil_iff]
  simp only [bne_iff_ne, ne_eq, Decidable.not_not]

theorem scopeIssues_opening {tag : ScopeTag} (h : tag.closing = false)
    (opened rest : List ScopeTag) :
    scopeIssues opened (tag :: rest) = scopeIssues (tag :: opened) rest := by
  rw [scopeIssues.eq_def]
  exact if_neg (by simp [h])

theorem scopeIssues_closing {tag : ScopeTag} (h : tag.closing = true) (scope : ScopeTag)
    (opened rest : List ScopeTag) :
    scopeIssues (scope :: opened) (tag :: rest) =
      mismatches [(scope, tag)] ++ scopeIssues opened rest := by
  rw [scopeIssues, if_pos h]
  by_cases hname : scope.name = tag.name
  · simp [mismatches, hname]
  · simp [mismatches, hname, mismatchOf]

theorem scopeIssues_stray {tag : ScopeTag} (h : tag.closing = true) (rest : List ScopeTag) :
    scopeIssues [] (tag :: rest) = strayOf tag :: scopeIssues [] rest := by
  rw [scopeIssues.eq_def]
  exact if_pos h

theorem scopeIssues_nil (opened : List ScopeTag) :
    scopeIssues opened [] = opened.reverse.map unclosedOf := by
  rw [scopeIssues.eq_def]
  rfl

theorem Balanced.scopeIssues_append (h : Balanced tags pairs) (opened rest : List ScopeTag) :
    scopeIssues opened (tags ++ rest) = mismatches pairs ++ scopeIssues opened rest := by
  induction h generalizing opened rest with
  | nil => rfl
  | pair hopening hclosing _ _ ihInner ihRest =>
      rename_i opening closing inner others innerPairs restPairs _ _
      calc scopeIssues opened (opening :: inner ++ closing :: others ++ rest)
        _ = scopeIssues opened (opening :: (inner ++ closing :: (others ++ rest))) := by simp
        _ = mismatches innerPairs ++
              scopeIssues (opening :: opened) (closing :: (others ++ rest)) := by
            rw [scopeIssues_opening hopening, ihInner]
        _ = mismatches innerPairs ++ (mismatches [(opening, closing)] ++
              (mismatches restPairs ++ scopeIssues opened rest)) := by
            rw [scopeIssues_closing hclosing, ihRest]
        _ = mismatches (innerPairs ++ (opening, closing) :: restPairs) ++
              scopeIssues opened rest := by
            rw [mismatches_append, mismatches_cons (opening, closing) restPairs, List.append_assoc,
              List.append_assoc]

/-- The check tells of what a sequence falls apart into, behind scopes that are open already. -/
theorem Paired.perm_scopeIssues (h : Paired tags pairing) {opened : List ScopeTag}
    (hopened : opened = [] ∨ pairing.strays = []) :
    (scopeIssues opened tags).Perm
      (opened.reverse.map unclosedOf ++ pairing.issues) := by
  induction h generalizing opened with
  | balanced hbalanced =>
      rename_i tags pairs
      rw [← List.append_nil tags, hbalanced.scopeIssues_append, scopeIssues_nil]
      simpa [Pairing.issues] using List.perm_append_comm
  | stray hfirst hclosing _ ih =>
      rename_i first rest closing pairs pairing _
      have hnone : opened = [] := hopened.resolve_right (List.cons_ne_nil _ _)
      rw [hnone, hfirst.scopeIssues_append, scopeIssues_stray hclosing, List.perm_iff_count]
      intro located
      have hrest := (ih (.inl rfl)).count_eq located
      simp only [Pairing.issues, mismatches_append, List.count_append, List.map_cons,
        List.count_cons, List.reverse_nil, List.map_nil, List.count_nil] at hrest ⊢
      omega
  | unclosed hfirst hopening _ hstrays ih =>
      rename_i first rest opening pairs pairing _
      rw [hfirst.scopeIssues_append, scopeIssues_opening hopening, List.perm_iff_count]
      intro located
      have hperm : (scopeIssues (opening :: opened) rest).Perm
          ((opening :: opened).reverse.map unclosedOf ++ pairing.issues) := ih (.inr hstrays)
      have hrest := hperm.count_eq located
      simp only [Pairing.issues, mismatches_append, List.count_append, List.map_cons,
        List.count_cons, List.reverse_cons, List.map_append, List.map_nil, List.count_nil,
        hstrays] at hrest ⊢
      omega

theorem scopeIssues_eq_nil_iff : scopeIssues [] tags = [] ↔ WellNested tags := by
  rw [wellNested_iff]
  constructor
  · intro hnone
    rcases exists_paired tags with ⟨pairing, hpaired⟩
    have hperm := hpaired.perm_scopeIssues (.inl rfl)
    rw [hnone, List.nil_perm] at hperm
    cases hpaired with
    | balanced hbalanced =>
        rename_i pairs
        refine ⟨pairs, hbalanced, mismatches_eq_nil_iff.mp ?_⟩
        simpa [Pairing.issues] using hperm
    | stray => simp [Pairing.issues] at hperm
    | unclosed => simp [Pairing.issues] at hperm
  · rintro ⟨pairs, hbalanced, hnames⟩
    rw [← List.append_nil tags, hbalanced.scopeIssues_append, scopeIssues_nil,
      mismatches_eq_nil_iff.mpr hnames]
    rfl

end

/-!
## What the findings tell
-/

theorem issuesWith_map {α : Type} {f : α → Located} {code own : String}
    (h : ∀ a, (f a).issue.code = own) (list : List α) :
    issuesWith code (list.map f) = if own = code then list.map f else [] := by
  split
  · next hsame =>
      rw [issuesWith, List.filter_eq_self]
      intro located hmem
      rcases List.mem_map.mp hmem with ⟨a, _, rfl⟩
      rw [h, beq_iff_eq, hsame]
  · next hdiffers =>
      have hcodes : ∀ located ∈ list.map f, located.issue.code ∈ [own] := by
        intro located hmem
        rcases List.mem_map.mp hmem with ⟨a, _, rfl⟩
        exact List.mem_singleton.mpr (h a)
      apply issuesWith_eq_nil hcodes
      rw [List.mem_singleton]
      exact Ne.symm hdiffers

theorem Pairing.issuesWith_issues (pairing : Pairing) :
    issuesWith "unmatched-closing-tag" pairing.issues = pairing.strays.map strayOf ∧
      issuesWith "directive-mismatch" pairing.issues = pairing.mismatched.map mismatchOf ∧
      issuesWith "unclosed-directive" pairing.issues = pairing.unclosed.map unclosedOf := by
  have hmismatch : ∀ pair, (mismatchOf pair).issue.code = "directive-mismatch" := fun _ => rfl
  have hstray : ∀ tag, (strayOf tag).issue.code = "unmatched-closing-tag" := fun _ => rfl
  have hunclosed : ∀ tag, (unclosedOf tag).issue.code = "unclosed-directive" := fun _ => rfl
  simp [Pairing.issues, mismatches, issuesWith_append, issuesWith_map hmismatch,
    issuesWith_map hstray, issuesWith_map hunclosed, mismatched]

/-- No finding is about directives exactly if the scope tags are well nested. -/
theorem clean_iff_wellNested (expected : List String) (file source : String) :
    (∀ finding ∈ lintExpecting expected file source, ∀ code ∈ directiveCodes,
        finding.code ≠ some code) ↔ WellNested (scopeTags (mask source.toList)) := by
  have hcode : ∀ code ∈ directiveCodes,
      (findingsWith code (lintExpecting expected file source) = [] ↔
        issuesWith code (directiveIssues (mask source.toList)) = []) := by
    intro code hmem
    have hperm := perm_findingsWith_directive hmem expected file source
    rw [← List.map_eq_nil_iff (f := Located.finding file)]
    exact ⟨fun hnone => (hnone ▸ hperm).nil_eq.symm, fun hnone => (hnone ▸ hperm).eq_nil⟩
  have hissues : (∀ code ∈ directiveCodes,
      issuesWith code (directiveIssues (mask source.toList)) = []) ↔
        directiveIssues (mask source.toList) = [] :=
    issuesWith_eq_nil_iff fun _ => code_of_mem_scopeIssues
  rw [← scopeIssues_eq_nil_iff, ← directiveIssues, ← hissues]
  constructor
  · intro hclean code hmem
    rw [← hcode code hmem, findingsWith_eq_nil_iff]
    exact fun finding hfinding => hclean finding hfinding code hmem
  · intro hnone finding hfinding code hmem
    have hclean := (hcode code hmem).mpr (hnone code hmem)
    exact findingsWith_eq_nil_iff.mp hclean finding hfinding

/-- Holds of findings that tell how the scope tags of a text are nested. -/
structure TellsNesting (file : String) (masked : List Char) (tags : List ScopeTag)
    (pairing : Pairing) (findings : List Finding) : Prop where
  clean_iff : (∀ finding ∈ findings, ∀ code ∈ directiveCodes, finding.code ≠ some code) ↔
    WellNested tags
  strays : (findingsWith "unmatched-closing-tag" findings).Perm
    (pairing.strays.map fun tag => (strayOf tag).finding file)
  mismatches : (findingsWith "directive-mismatch" findings).Perm
    (pairing.mismatched.map fun pair => (mismatchOf pair).finding file)
  unclosed : (findingsWith "unclosed-directive" findings).Perm
    (pairing.unclosed.map fun tag => (unclosedOf tag).finding file)
  closings : tags.countP ScopeTag.closing = pairing.matched.length +
    (findingsWith "directive-mismatch" findings).length +
    (findingsWith "unmatched-closing-tag" findings).length
  openings : (tags.countP fun tag => !tag.closing) = pairing.matched.length +
    (findingsWith "directive-mismatch" findings).length +
    (findingsWith "unclosed-directive" findings).length
  placed : ∀ finding ∈ findingsWith "unclosed-directive" findings, ∃ tag before behind,
    masked = before ++ Tag.written tag ++ behind ∧ tag.Proper ∧ tag.BoundsScope ∧
      tag.closing = false ∧
      finding = Located.finding file
        ⟨.at (Text.Position.start.behind before), .unclosed tag.name⟩

/-- The findings of a template tell how its scope tags are nested. -/
theorem tellsNesting_lint (expected : List String) (file source : String) :
    (∃ tags pairing, ScopesOf (mask source.toList) tags ∧ Paired tags pairing) ∧
      ∀ tags pairing, ScopesOf (mask source.toList) tags → Paired tags pairing →
        TellsNesting file (mask source.toList) tags pairing
          (lintExpecting expected file source) := by
  constructor
  · rcases exists_paired (scopeTags (mask source.toList)) with ⟨pairing, hpaired⟩
    exact ⟨_, pairing, scopesOf_iff.mpr rfl, hpaired⟩
  · intro tags pairing htags hpaired
    have hissues : (directiveIssues (mask source.toList)).Perm pairing.issues := by
      rw [directiveIssues, ← scopesOf_iff.mp htags]
      exact hpaired.perm_scopeIssues (.inl rfl)
    have hwith : ∀ code ∈ directiveCodes,
        (findingsWith code (lintExpecting expected file source)).Perm
          ((issuesWith code pairing.issues).map (Located.finding file)) := by
      intro code hcode
      exact (perm_findingsWith_directive hcode expected file source).trans
        ((hissues.filter _).map _)
    rcases pairing.issuesWith_issues with ⟨hstrays, hmismatched, hunclosed⟩
    have hstrayFindings := hwith "unmatched-closing-tag" (by decide)
    have hmismatchFindings := hwith "directive-mismatch" (by decide)
    have hunclosedFindings := hwith "unclosed-directive" (by decide)
    rw [hstrays, List.map_map] at hstrayFindings
    rw [hmismatched, List.map_map] at hmismatchFindings
    rw [hunclosed, List.map_map] at hunclosedFindings
    have hcounts := hpaired.counts
    have hpairs := pairing.length_matched_add
    constructor
    · rw [scopesOf_iff.mp htags]
      exact clean_iff_wellNested expected file source
    · exact hstrayFindings
    · exact hmismatchFindings
    · exact hunclosedFindings
    · rw [hstrayFindings.length_eq, hmismatchFindings.length_eq, List.length_map, List.length_map,
        hpairs]
      exact hcounts.1
    · rw [hunclosedFindings.length_eq, hmismatchFindings.length_eq, List.length_map,
        List.length_map, hpairs]
      exact hcounts.2
    · intro finding hfinding
      rcases List.mem_map.mp (hunclosedFindings.mem_iff.mp hfinding) with ⟨scopeTag, hmem, rfl⟩
      rcases hpaired.of_mem_unclosed hmem with ⟨hscope, hopening⟩
      rcases htags.of_mem hscope with ⟨tag, before, behind, hsplit, hproper, hbounds, rfl⟩
      exact ⟨tag, before, behind, hsplit, hproper, hbounds, hopening, rfl⟩

def crossedSource : String :=
  "<#if a>\n<#list b as c><#assign x = 1></#if>"

def crossedTags : List ScopeTag :=
  [⟨⟨1, 1⟩, false, "if"⟩, ⟨⟨2, 1⟩, false, "list"⟩, ⟨⟨2, 30⟩, true, "if"⟩]

def crossedPairing : Pairing :=
  ⟨[(⟨⟨2, 1⟩, false, "list"⟩, ⟨⟨2, 30⟩, true, "if"⟩)], [], [⟨⟨1, 1⟩, false, "if"⟩]⟩

theorem scopesOf_crossed : ScopesOf (mask crossedSource.toList) crossedTags := by
  rw [scopesOf_iff]
  decide +kernel

theorem paired_crossed : Paired crossedTags crossedPairing :=
  .unclosed .nil rfl (.balanced (.pair rfl rfl .nil .nil)) rfl

theorem tellsNesting_lint_crossed :
    ScopesOf (mask crossedSource.toList) crossedTags ∧ Paired crossedTags crossedPairing ∧
      TellsNesting "a.ftl" (mask crossedSource.toList) crossedTags crossedPairing
        (lintExpecting ["a"] "a.ftl" crossedSource) :=
  ⟨scopesOf_crossed, paired_crossed,
    (tellsNesting_lint ["a"] "a.ftl" crossedSource).2 _ _ scopesOf_crossed paired_crossed⟩

end Template
end StencilDesk
