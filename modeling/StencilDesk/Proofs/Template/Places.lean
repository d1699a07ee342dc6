import StencilDesk.Proofs.Template.Interpolations
import StencilDesk.Proofs.Template.Markers
import StencilDesk.Proofs.Template.Masking

/-!
# Where findings point

A finding about a construct has the line and the column at which the construct stands in the text as
it is, although most checks read the masked text: what stands there without spaces stands in the
text, at the same place. A finding about braces has the number of their line, and a finding about an
expected name has no place. The findings are listed in the order of their places.
-/

namespace StencilDesk
namespace Template

def Issue.construct? : Issue → Option (List Char)
  | unmatchedClosing name => some (Tag.opener true ++ name.toList)
  | mismatch _ _ closed => some (Tag.opener true ++ closed.toList)
  | unclosed name => some (Tag.opener false ++ name.toList)
  | emptyReference => some interpolationOpening
  | invalidReference _ => some interpolationOpening
  | unmatchedCommentClose => some commentClosing
  | nestedComment => some commentOpening
  | unterminatedComment => some commentOpening
  | unterminatedInterpolation => none
  | unmatchedBrace => none
  | unusedVariable _ => none

/-- Holds of an issue if the opening tag that it names stands in the line that it names. -/
def Issue.NamesOpening (source : List Char) : Issue → Prop
  | mismatch opened line _ =>
      ∃ column, Text.StandsAt source line column (Tag.opener false ++ opened.toList)
  | _ => True

/-- Holds of a finding that points into a text: at the construct that it is about, or at the line of
its braces, or nowhere if it is about a name that is not used. -/
inductive PointsInto (file : String) (source : List Char) : Finding → Prop where
  | construct {place : Text.Position} {issue : Issue} {construct : List Char}
      (hconstruct : issue.construct? = some construct)
      (hstands : Text.StandsAt source place.line place.column construct)
      (hopening : issue.NamesOpening source) :
      PointsInto file source (Located.finding file ⟨.at place, issue⟩)
  | line {line : Nat} {issue : Issue} {content : List Char}
      (hline : 1 ≤ line ∧ line ≤ (Text.lines source).length)
      (hcontent : (Text.lines (mask source))[line - 1]? = some content)
      (hissue : braceIssue? content = some issue) :
      PointsInto file source (Located.finding file ⟨.line line, issue⟩)
  | nowhere (name : String) :
      PointsInto file source (Located.finding file ⟨.nowhere, .unusedVariable name⟩)

section
variable {file : String} {source : List Char} {located : Located}

theorem standsAt_of_mask {before construct behind : List Char}
    (hmask : mask source = before ++ (construct ++ behind)) (hsolid : Solid construct) :
    Text.StandsAt source (Text.Position.start.behind before).line
      (Text.Position.start.behind before).column construct := by
  rcases exists_shown hmask hsolid with ⟨front, rest, hsource, hplace⟩
  rw [← hplace, hsource]
  exact Text.standsAt_behind rest fun hmem => (hsolid _ hmem).2 rfl

/-!
## Directives
-/

def ScopeTag.StandsIn (source : List Char) (tag : ScopeTag) : Prop :=
  Text.StandsAt source tag.position.line tag.position.column
    (Tag.opener tag.closing ++ tag.name.toList)

theorem solid_opener (closing : Bool) : Solid (Tag.opener closing) := by
  cases closing <;> simp [Solid, Tag.opener]

theorem solid_name {name : List Char} (h : ∀ c ∈ name, Tag.isNameChar c = true) : Solid name := by
  have hblanks : Tag.isNameChar ' ' = false ∧ Tag.isNameChar '\n' = false := by decide
  intro c hc
  constructor
  · rintro rfl
    exact Bool.false_ne_true (hblanks.1.symm.trans (h _ hc))
  · rintro rfl
    exact Bool.false_ne_true (hblanks.2.symm.trans (h _ hc))

theorem standsIn_of_mem_scopeTags {tag : ScopeTag} (h : tag ∈ scopeTags (mask source)) :
    tag.StandsIn source := by
  rcases (scopesOf_iff.mpr rfl).of_mem h with ⟨tag, before, behind, hsplit, hproper, _, rfl⟩
  have hmask : mask source = before ++ ((Tag.opener tag.closing ++ tag.name.toList) ++
      (tag.attributes ++ ['>'] ++ behind)) := by
    rw [hsplit, Tag.written]
    simp
  apply standsAt_of_mask hmask
  intro c hc
  exact (List.mem_append.mp hc).elim (solid_opener _ c) (solid_name hproper.letters c)

/-- Each tag that is told of stands in the text, and so does the opening tag of a mismatch. -/
theorem pointsInto_of_mem_scopeIssues {opened tags : List ScopeTag}
    (hopened : ∀ scope ∈ opened, scope.closing = false ∧ scope.StandsIn source)
    (htags : ∀ tag ∈ tags, tag.StandsIn source) (h : located ∈ scopeIssues opened tags) :
    PointsInto file source (located.finding file) := by
  have hstands : ∀ {tag : ScopeTag} {closing : Bool}, tag.closing = closing → tag.StandsIn source →
      Text.StandsAt source tag.position.line tag.position.column
        (Tag.opener closing ++ tag.name.toList) := by
    intro tag closing hclosing htag
    rwa [ScopeTag.StandsIn, hclosing] at htag
  -- One case for each kind of tag and what is open before it.
  fun_induction scopeIssues opened tags with
  | case1 opened =>
      rcases List.mem_map.mp h with ⟨scope, hscope, rfl⟩
      rcases hopened scope (List.mem_reverse.mp hscope) with ⟨hclosing, hscope⟩
      exact .construct rfl (hstands hclosing hscope) trivial
  | case2 tag rest hclosing ih =>
      rw [List.forall_mem_cons] at htags
      rcases List.mem_cons.mp h with rfl | hlater
      · exact .construct rfl (hstands hclosing htags.1) trivial
      · exact ih (List.forall_mem_nil _) htags.2 hlater
  | case3 tag rest hclosing scope outer hname ih =>
      rw [List.forall_mem_cons] at hopened htags
      exact ih hopened.2 htags.2 h
  | case4 tag rest hclosing scope outer hname ih =>
      rw [List.forall_mem_cons] at hopened htags
      rcases List.mem_cons.mp h with rfl | hlater
      · exact .construct rfl (hstands hclosing htags.1)
          ⟨scope.position.column, hstands hopened.1.1 hopened.1.2⟩
      · exact ih hopened.2 htags.2 hlater
  | case5 opened tag rest hclosing ih =>
      rw [List.forall_mem_cons] at htags
      have hnested : ∀ scope ∈ tag :: opened, scope.closing = false ∧ scope.StandsIn source := by
        rw [List.forall_mem_cons]
        exact ⟨⟨Bool.eq_false_of_not_eq_true hclosing, htags.1⟩, hopened⟩
      exact ih hnested htags.2 h

theorem pointsInto_of_mem_directiveIssues (h : located ∈ directiveIssues (mask source)) :
    PointsInto file source (located.finding file) :=
  pointsInto_of_mem_scopeIssues (List.forall_mem_nil _)
    (fun _ hmem => standsIn_of_mem_scopeTags hmem) h

/-!
## Comments
-/

theorem standsAt_of_mem_markers {place : Text.Position} {marker : Marker}
    (h : (place, marker) ∈ Text.occurrences marker? source) :
    Text.StandsAt source place.line place.column marker.text := by
  rcases (Marker.recognises_spells.scanned_iff.mpr rfl).of_mem h with
    ⟨front, spelled, behind, hsplit, rfl, rfl⟩
  rw [List.nil_append, List.append_assoc] at hsplit
  nth_rewrite 1 [hsplit]
  apply Text.standsAt_behind
  cases marker <;> simp [Marker.text, commentOpening, markupOpening, commentClosing]

def Surroundings.StandsIn (source : List Char) : Surroundings → Prop
  | template opened => Text.StandsAt source opened.line opened.column commentOpening
  | _ => True

theorem pointsInto_of_mem_markerIssues {surroundings : Surroundings}
    {markers : List (Text.Position × Marker)} (hopened : surroundings.StandsIn source)
    (hmarkers : ∀ found ∈ markers, Text.StandsAt source found.1.line found.1.column found.2.text)
    (h : located ∈ markerIssues surroundings markers) :
    PointsInto file source (located.finding file) := by
  have hcons : ∀ {first : Text.Position × Marker} {rest : List (Text.Position × Marker)},
      (∀ found ∈ first :: rest, Text.StandsAt source found.1.line found.1.column found.2.text) →
        Text.StandsAt source first.1.line first.1.column first.2.text ∧
          ∀ found ∈ rest, Text.StandsAt source found.1.line found.1.column found.2.text :=
    List.forall_mem_cons.mp
  fun_induction markerIssues surroundings markers with
  | case1 opened =>
      rw [List.mem_singleton] at h
      rw [h]
      exact .construct rfl hopened trivial
  | case2 => cases h
  | case3 place rest ih => exact ih (hcons hmarkers).1 (hcons hmarkers).2 h
  | case4 place rest ih => exact ih trivial (hcons hmarkers).2 h
  | case5 place rest ih =>
      rcases List.mem_cons.mp h with rfl | hlater
      · exact .construct rfl (hcons hmarkers).1 trivial
      · exact ih trivial (hcons hmarkers).2 hlater
  | case6 opened place rest ih =>
      rcases List.mem_cons.mp h with rfl | hlater
      · exact .construct rfl (hcons hmarkers).1 trivial
      · exact ih hopened (hcons hmarkers).2 hlater
  | case7 opened place rest ih => exact ih trivial (hcons hmarkers).2 h
  | case8 opened place rest ih => exact ih hopened (hcons hmarkers).2 h
  | case9 place rest ih => exact ih trivial (hcons hmarkers).2 h
  | case10 place marker rest _ ih => exact ih trivial (hcons hmarkers).2 h

theorem pointsInto_of_mem_commentIssues (h : located ∈ commentIssues source) :
    PointsInto file source (located.finding file) := by
  have houtside : Surroundings.outside.StandsIn source := trivial
  exact pointsInto_of_mem_markerIssues houtside (fun _ hfound => standsAt_of_mem_markers hfound) h

/-!
## References
-/

theorem standsAt_of_mem_interpolations {place : Text.Position} {expression : List Char}
    (h : (place, expression) ∈ interpolations (mask source)) :
    Text.StandsAt source place.line place.column interpolationOpening := by
  rcases (recognises_interpolation.scanned_iff.mpr rfl).of_mem h with
    ⟨front, spelled, behind, hsplit, rfl, rfl, _⟩
  rw [List.nil_append, List.append_assoc, List.append_assoc] at hsplit
  exact standsAt_of_mask hsplit (by simp [Solid, interpolationOpening])

theorem pointsInto_of_mem_referenceIssues (h : located ∈ referenceIssues (mask source)) :
    PointsInto file source (located.finding file) := by
  rcases List.mem_filterMap.mp h with ⟨⟨place, expression⟩, hfound, hissue⟩
  rcases Option.map_eq_some_iff.mp hissue with ⟨issue, hexpression, rfl⟩
  have hstands := standsAt_of_mem_interpolations hfound
  simp only [referenceIssue?] at hexpression
  split at hexpression
  · cases hexpression
    exact .construct rfl hstands trivial
  · split at hexpression
    · cases hexpression
    · cases hexpression
      exact .construct rfl hstands trivial

/-!
## Braces
-/

theorem exists_of_mem_lineIssues {number : Nat} {lines : List (List Char)}
    (h : located ∈ lineIssues number lines) :
    ∃ i content issue, lines[i]? = some content ∧ braceIssue? content = some issue ∧
      located = ⟨.line (number + i), issue⟩ := by
  fun_induction lineIssues number lines with
  | case1 number => cases h
  | case2 number line rest issue hissue ih =>
      rcases List.mem_cons.mp h with rfl | hlater
      · exact ⟨0, line, issue, rfl, hissue, rfl⟩
      · rcases ih hlater with ⟨i, content, other, hcontent, hother, rfl⟩
        refine ⟨i + 1, content, other, hcontent, hother, ?_⟩
        rw [Nat.add_right_comm, Nat.add_assoc]
  | case3 number line rest hissue ih =>
      rcases ih h with ⟨i, content, other, hcontent, hother, rfl⟩
      refine ⟨i + 1, content, other, hcontent, hother, ?_⟩
      rw [Nat.add_right_comm, Nat.add_assoc]

theorem length_lines_mask (source : List Char) :
    (Text.lines (mask source)).length = (Text.lines source).length := by
  have hmasked := Text.Position.line_behind Text.Position.start (mask source)
  have hsource := Text.Position.line_behind Text.Position.start source
  rw [(sameLines_mask source).behind_eq] at hmasked
  omega

theorem pointsInto_of_mem_braceIssues (h : located ∈ braceIssues (mask source)) :
    PointsInto file source (located.finding file) := by
  rcases exists_of_mem_lineIssues h with ⟨i, content, issue, hcontent, hissue, rfl⟩
  have hline : i < (Text.lines (mask source)).length := (List.getElem?_eq_some_iff.mp hcontent).1
  rw [length_lines_mask] at hline
  apply PointsInto.line _ _ hissue
  · omega
  · rwa [Nat.add_sub_cancel_left]

end

/-- The findings of a template point into it, and are listed in the order of their places. -/
theorem pointsInto_lint (expected : List String) (file source : String) :
    (∀ finding ∈ lintExpecting expected file source, PointsInto file source.toList finding) ∧
      (lintExpecting expected file source).Pairwise Finding.Precedes := by
  constructor
  · intro finding hfinding
    rcases List.mem_map.mp (Finding.mem_sorted.mp hfinding) with ⟨located, hmem, rfl⟩
    simp only [issues, List.mem_append] at hmem
    rcases hmem with (((hdirective | hreference) | hcomment) | hbrace) | husage
    · exact pointsInto_of_mem_directiveIssues hdirective
    · exact pointsInto_of_mem_referenceIssues hreference
    · exact pointsInto_of_mem_commentIssues hcomment
    · exact pointsInto_of_mem_braceIssues hbrace
    · rcases List.mem_map.mp husage with ⟨name, _, rfl⟩
      exact .nowhere name
  · exact Finding.pairwise_sorted _

def straySource : String :=
  "é<#-- é --> </#if>\r\n$\x7b\x7d"

def strayFinding : Finding :=
  Located.finding "a.ftl" ⟨.at ⟨1, 13⟩, .unmatchedClosing "if"⟩

theorem pointsInto_lint_stray :
    strayFinding ∈ lintExpecting [] "a.ftl" straySource ∧
      PointsInto "a.ftl" straySource.toList strayFinding ∧
      (lintExpecting [] "a.ftl" straySource).Pairwise Finding.Precedes := by
  have hmem : strayFinding ∈ lintExpecting [] "a.ftl" straySource := by
    rw [lintExpecting, Finding.mem_sorted]
    decide +kernel
  have hpoints := pointsInto_lint [] "a.ftl" straySource
  exact ⟨hmem, hpoints.1 strayFinding hmem, hpoints.2⟩

end Template
end StencilDesk
