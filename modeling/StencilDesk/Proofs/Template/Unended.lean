import StencilDesk.Proofs.Template.Codes
import StencilDesk.Proofs.Template.Markers
import StencilDesk.Proofs.Text.Positions

/-!
# Comments without end

The check of comments and the mask find comments each in their own way. The check also follows
markup comments, and does not read a closing marker that shares its dashes with an opening one. So
it tells of a comment without end exactly where it comes to the opening marker from outside and
reads no closing marker behind it. That is the comment which the mask leaves open, if the check
stands outside there, and if it reads an end of every other comment that it enters from outside.
-/

namespace StencilDesk
namespace Template

/-- Holds if the check of comments reads a comment at a place that does not end. -/
def UnendedAt (source : List Char) (place : Text.Position) : Prop :=
  ∃ before rest, source = before ++ (commentOpening ++ rest) ∧
    place = Text.Position.start.behind before ∧ EndsOutside before ∧ NeverEnds rest

/-- Holds if the mask meets a comment at a place that does not end, and masks all behind it. -/
def LeftOpenAt (parts : List Part) (place : Text.Position) : Prop :=
  ∃ before body, parts = before ++ [.unended body] ∧
    place = Text.Position.start.behind (before.flatMap Part.text)

def unendedFinding (file : String) (place : Text.Position) : Finding :=
  Located.finding file ⟨.at place, .unterminatedComment⟩

structure TellsUnended (file : String) (unended : Text.Position → Prop)
    (findings : List Finding) : Prop where
  told : ∀ place, unended place →
    findingsWith "unterminated-comment" findings = [unendedFinding file place]
  meant : ∀ finding ∈ findingsWith "unterminated-comment" findings,
    ∃ place, unended place ∧ finding = unendedFinding file place

/-!
## What the check tells
-/

namespace Surroundings

def issues : Surroundings → List Located
  | template opened => [⟨.at opened, .unterminatedComment⟩]
  | _ => []

theorem issuesWith_markerIssues (surroundings : Surroundings)
    (markers : List (Text.Position × Marker)) :
    issuesWith "unterminated-comment" (markerIssues surroundings markers) =
      (markers.foldl after surroundings).issues := by
  fun_induction markerIssues surroundings markers <;>
    simp_all [issuesWith, issues, after, Issue.code]

end Surroundings

theorem findingsWith_unended (expected : List String) (file source : String) :
    findingsWith "unterminated-comment" (lintExpecting expected file source) =
      (Surroundings.outside.behind Text.Position.start source.toList).issues.map
        (Located.finding file) := by
  have hcode : "unterminated-comment" ∈ commentCodes := by decide
  rw [findingsWith_lint, issuesWith_of_mem_commentCodes hcode, commentIssues,
    Surroundings.issuesWith_markerIssues]
  show Finding.sorted ((Surroundings.issues (Surroundings.behind _ _ _)).map _) = _
  cases Surroundings.outside.behind Text.Position.start source.toList <;>
    simp [Surroundings.issues, Finding.sorted]

def Marker.Opens (marker : Marker) (spelled : List Char) : Prop :=
  marker ≠ .close ∧ spelled = marker.text

theorem Marker.Opens.ne_nil {marker : Marker} {spelled : List Char} (h : marker.Opens spelled) :
    spelled ≠ [] := by
  rw [h.2]
  exact marker.text_ne_nil

theorem not_infix_of_silent {gap behind : List Char} (h : Text.Silent Marker.Opens gap behind) :
    ¬commentOpening <:+: gap ∧ ¬markupOpening <:+: gap := by
  have htemplate : Marker.openTemplate.Opens commentOpening := ⟨by simp, rfl⟩
  have hmarkup : Marker.openMarkup.Opens markupOpening := ⟨by simp, rfl⟩
  exact ⟨h.not_infix htemplate htemplate.ne_nil, h.not_infix hmarkup hmarkup.ne_nil⟩

theorem first_opening (text : List Char) :
    (¬commentOpening <:+: text ∧ ¬markupOpening <:+: text) ∨
      ∃ gap marker rest, text = gap ++ (Marker.text marker ++ rest) ∧ marker ≠ .close ∧
        ¬commentOpening <:+: gap ∧ ¬markupOpening <:+: gap := by
  rcases Text.exists_scanned (fun _ _ => Marker.Opens.ne_nil) [] text with ⟨found, hscanned⟩
  cases hscanned with
  | done hsilent => exact .inl (not_infix_of_silent hsilent)
  | found hsilent hspelled _ =>
      rw [hspelled.2] at hsilent ⊢
      rw [List.append_assoc]
      exact .inr ⟨_, _, _, rfl, hspelled.1, not_infix_of_silent hsilent⟩

/-- A text ends outside of comments, or in the last one that it enters from outside. -/
theorem ends_cases (text : List Char) :
    EndsOutside text ∨ ∃ before marker rest, text = before ++ (Marker.text marker ++ rest) ∧
      marker ≠ .close ∧ EndsOutside before ∧ NeverEnds rest := by
  rcases exists_last_end text with ⟨closed, behind, rfl, hclosed, hbehind⟩
  rcases first_opening behind with hnone | ⟨gap, marker, rest, rfl, hmarker, hgap⟩
  · exact .inl ⟨closed, behind, rfl, hclosed, hnone⟩
  · refine .inr ⟨closed ++ gap, marker, rest, ?_, hmarker, ⟨closed, gap, rfl, hclosed, hgap⟩, ?_⟩
    · rw [List.append_assoc]
    · exact NeverEnds.behind (by rwa [List.append_assoc])

namespace Surroundings

theorem behind_entered {p : Text.Position} {before rest : List Char} {marker : Marker}
    (hmarker : marker ≠ .close) (hbefore : EndsOutside before) (hrest : NeverEnds rest) :
    outside.behind p (before ++ (marker.text ++ rest)) =
      outside.after (p.behind before, marker) := by
  have hinside : outside.after (p.behind before, marker) ≠ outside := by
    cases marker <;> simp_all [after]
  rw [behind_opening hmarker, behind_of_endsOutside hbefore, behind_of_neverEnds hinside hrest]

theorem behind_eq_outside_iff {p : Text.Position} {text : List Char} :
    outside.behind p text = outside ↔ EndsOutside text := by
  constructor
  · intro h
    rcases ends_cases text with houtside | ⟨before, marker, rest, rfl, hmarker, hbefore, hrest⟩
    · exact houtside
    · rw [behind_entered hmarker hbefore hrest] at h
      cases marker <;> simp_all [after]
  · exact behind_of_endsOutside

/-- The check ends in a comment that it entered from outside and does not end. -/
theorem behind_eq_template_iff {source : List Char} {place : Text.Position} :
    outside.behind Text.Position.start source = .template place ↔ UnendedAt source place := by
  constructor
  · intro h
    rcases ends_cases source with houtside | ⟨before, marker, rest, rfl, hmarker, hbefore, hrest⟩
    · rw [behind_of_endsOutside houtside] at h
      cases h
    · rw [behind_entered hmarker hbefore hrest] at h
      cases marker with
      | close => exact absurd rfl hmarker
      | openMarkup => cases h
      | openTemplate =>
          cases h
          exact ⟨before, rest, rfl, rfl, hbefore, hrest⟩
  · intro h
    rcases h with ⟨before, rest, rfl, rfl, hbefore, hrest⟩
    exact behind_entered (show Marker.openTemplate ≠ .close by simp) hbefore hrest

end Surroundings

theorem unendedFinding_inj {file : String} {place other : Text.Position}
    (h : unendedFinding file place = unendedFinding file other) : place = other := by
  have hline := Option.some.inj (congrArg Finding.line h)
  have hcolumn := Option.some.inj (congrArg Finding.column h)
  cases place
  cases other
  exact congr (congrArg Text.Position.mk hline) hcolumn

theorem tellsUnended_unendedAt (expected : List String) (file source : String) :
    TellsUnended file (UnendedAt source.toList) (lintExpecting expected file source) := by
  constructor
  · intro place hplace
    rw [findingsWith_unended, Surroundings.behind_eq_template_iff.mpr hplace]
    rfl
  · intro finding hfinding
    rw [findingsWith_unended] at hfinding
    cases hends : Surroundings.outside.behind Text.Position.start source.toList with
    | template place =>
        rw [hends] at hfinding
        refine ⟨place, Surroundings.behind_eq_template_iff.mp hends, ?_⟩
        exact List.mem_singleton.mp hfinding
    | outside =>
        rw [hends] at hfinding
        cases hfinding
    | markup =>
        rw [hends] at hfinding
        cases hfinding

theorem TellsUnended.congr_iff {file : String} {unended other : Text.Position → Prop}
    {findings : List Finding} (h : TellsUnended file unended findings) :
    TellsUnended file other findings ↔ ∀ place, other place ↔ unended place := by
  have himp : ∀ {these those : Text.Position → Prop}, TellsUnended file these findings →
      TellsUnended file those findings → ∀ place, these place → those place := by
    intro these those hthese hthose place hplace
    have hmem : unendedFinding file place ∈ findingsWith "unterminated-comment" findings := by
      rw [hthese.told place hplace]
      exact List.mem_singleton_self _
    rcases hthose.meant _ hmem with ⟨same, hsame, hfinding⟩
    exact unendedFinding_inj hfinding ▸ hsame
  constructor
  · intro hother place
    exact ⟨himp hother h place, himp h hother place⟩
  · intro hsame
    rwa [funext fun place => propext (hsame place)]

/-!
## Where the check and the mask agree
-/

/-- Holds of the parts of a text in which the check reads the ends of the comments that the mask
meets: it comes from outside to a comment without end, and ends every other one that it enters from
outside, there or later. -/
structure ReadAlike (parts : List Part) : Prop where
  unended : ∀ before body, parts = before ++ [.unended body] →
    EndsOutside (before.flatMap Part.text)
  ended : ∀ before body behind, parts = before ++ .comment body :: behind →
    EndsOutside (before.flatMap Part.text) →
      ¬NeverEnds (body ++ (commentClosing ++ behind.flatMap Part.text))

/-- Holds of parts without markup comments, and without a closing marker that shares its dashes with
an opening one. -/
structure Undisturbed (parts : List Part) : Prop where
  unmarked : ∀ text, .plain text ∈ parts → ¬markupOpening <:+: text
  clear : ∀ body, .comment body ∈ parts → ¬Obscured body

theorem opening_cases {gap rest before behind : List Char} (hgap : ¬commentOpening <:+: gap)
    (h : gap ++ (commentOpening ++ rest) = before ++ (commentOpening ++ behind)) :
    (before = gap ∧ behind = rest) ∨
      ∃ inner, before = gap ++ (commentOpening ++ inner) ∧
        rest = inner ++ (commentOpening ++ behind) := by
  have hinside : ∀ middle text : List Char, middle ≠ [] →
      commentOpening <+: middle ++ (commentOpening ++ text) → commentOpening <+: middle :=
    fun middle text hsome => apart_opening middle _ [] middle rfl hsome .openTemplate _ rfl
  rcases List.append_eq_append_iff.mp h with ⟨middle, hbefore, hrest⟩ | ⟨middle, hsplit, hbehind⟩
  · cases middle with
    | nil => exact .inl ⟨by simpa using hbefore, (List.append_cancel_left hrest).symm⟩
    | cons c middle =>
        rcases hinside _ behind (List.cons_ne_nil c middle) ⟨rest, hrest⟩ with ⟨inner, hinner⟩
        refine .inr ⟨inner, ?_, ?_⟩
        · rw [hbefore, hinner]
        · rw [← hinner, List.append_assoc] at hrest
          exact List.append_cancel_left hrest
  · cases middle with
    | nil => exact .inl ⟨by simpa using hsplit.symm, List.append_cancel_left hbehind⟩
    | cons c middle =>
        have hearlier := hinside _ rest (List.cons_ne_nil c middle) ⟨behind, hbehind⟩
        rw [hsplit] at hgap
        exact absurd (hearlier.isInfix.trans (List.suffix_append _ _).isInfix) hgap

theorem comment_cases {body behind inner rest : List Char}
    (h : body ++ (commentClosing ++ behind) = inner ++ (commentOpening ++ rest)) :
    inner <+: body ∨ ∃ before, inner = body ++ (commentClosing ++ before) ∧
      behind = before ++ (commentOpening ++ rest) := by
  rcases List.append_eq_append_iff.mp h with ⟨middle, hinner, hbehind⟩ | ⟨middle, hbody, _⟩
  · rcases List.append_eq_append_iff.mp hbehind with
      ⟨before, hmiddle, hrest⟩ | ⟨reach, hclosing, hrest⟩
    · exact .inr ⟨before, by rw [hinner, hmiddle], hrest⟩
    · cases reach with
      | nil =>
          rw [List.append_nil] at hclosing
          exact .inr ⟨[], by simp [hinner, hclosing], by simpa using hrest.symm⟩
      | cons c reach =>
          -- The opening marker does not start within the closing one.
          have hc : c = '<' := (List.cons.inj hrest).1.symm
          have hmem : '<' ∈ commentClosing := by simp [hclosing, hc]
          simp [commentClosing] at hmem
  · exact .inl ⟨middle, hbody.symm⟩

theorem not_closing_neverEnds {text : List Char} (h : ¬commentClosing <:+: text) :
    NeverEnds text := by
  intro front behind hsplit
  refine absurd ⟨front, behind, ?_⟩ h
  rw [List.append_assoc, hsplit]

theorem Surroundings.behind_inside {surroundings : Surroundings} {p : Text.Position}
    {gap inner : List Char} (hinner : ¬commentClosing <:+: inner) :
    surroundings.behind p (gap ++ (commentOpening ++ inner)) ≠ outside := by
  -- Whether the gap leads into a comment or not, the opening marker does.
  have hentered : ∀ place, (surroundings.behind p gap).after (place, .openTemplate) ≠ outside := by
    intro place
    cases surroundings.behind p gap <;> simp [after]
  have hopening : surroundings.behind p (gap ++ (commentOpening ++ inner)) =
      ((surroundings.behind p gap).after (p.behind gap, .openTemplate)).behind
        ((p.behind gap).behind commentOpening) inner :=
    behind_opening (show Marker.openTemplate ≠ .close by simp)
  rw [hopening, behind_of_neverEnds (hentered _) (not_closing_neverEnds hinner)]
  exact hentered _

section
variable {source : List Char} {parts : List Part}

theorem Divided.not_closing_of_unended (h : Divided source parts) {body : List Char}
    (hmem : .unended body ∈ parts) : ¬commentClosing <:+: body := by
  induction h with
  | plain _ => simp at hmem
  | unended _ hbody =>
      simp only [List.mem_cons, reduceCtorEq, Part.unended.injEq, List.not_mem_nil, or_false,
        false_or] at hmem
      rwa [hmem]
  | comment _ _ _ ih => exact ih (by simpa using hmem)

/-- Where the check stands outside, the mask does so as well: an opening marker there starts a
comment. -/
theorem Divided.exists_part (h : Divided source parts) {surroundings : Surroundings}
    {p : Text.Position} {before rest : List Char}
    (hsource : source = before ++ (commentOpening ++ rest))
    (houtside : surroundings.behind p before = .outside) :
    ∃ front, before = front.flatMap Part.text ∧
      ((∃ body, parts = front ++ [.unended body]) ∨
        ∃ body behind, parts = front ++ .comment body :: behind ∧
          rest = body ++ (commentClosing ++ behind.flatMap Part.text)) := by
  -- For all surroundings, since the check may still stand in a comment where the mask ends one.
  induction h generalizing surroundings p before with
  | plain htext =>
      rw [hsource] at htext
      exact absurd ⟨before, rest, List.append_assoc _ _ _⟩ htext
  | unended hgap hbody =>
      rename_i gap body
      rcases opening_cases hgap hsource with ⟨rfl, rfl⟩ | ⟨inner, rfl, rfl⟩
      · exact ⟨[.plain before], by simp [Part.text], .inl ⟨rest, rfl⟩⟩
      · have hinner : ¬commentClosing <:+: inner := by
          intro hearlier
          exact hbody (hearlier.trans (List.prefix_append _ _).isInfix)
        exact absurd houtside (Surroundings.behind_inside hinner)
  | comment hgap hbody hbehind ih =>
      rename_i gap body behind parts
      rw [List.append_assoc, List.append_assoc] at hsource
      rcases opening_cases hgap hsource with ⟨rfl, rfl⟩ | ⟨inner, rfl, hrest⟩
      · refine ⟨[.plain before], by simp [Part.text], .inr ⟨body, parts, rfl, ?_⟩⟩
        rw [← hbehind.text_eq]
      · rcases comment_cases hrest with hinner | ⟨later, rfl, hlater⟩
        · have hopen : ¬commentClosing <:+: inner := by
            intro hearlier
            exact hbody (hearlier.trans hinner.isInfix)
          exact absurd houtside (Surroundings.behind_inside hopen)
        · have hsplit : gap ++ (commentOpening ++ (body ++ (commentClosing ++ later))) =
              gap ++ commentOpening ++ body ++ commentClosing ++ later := by simp
          rw [hsplit, Surroundings.behind_append (apart_closing _ _)] at houtside
          rcases ih hlater houtside with ⟨front, hfront, hfound⟩
          refine ⟨.plain gap :: .comment body :: front, ?_, ?_⟩
          · simp [Part.text, hfront]
          · rcases hfound with ⟨last, rfl⟩ | ⟨other, more, rfl, hmore⟩
            · exact .inl ⟨last, rfl⟩
            · exact .inr ⟨other, more, rfl, hmore⟩

theorem Divided.eq_of_unended (h : Divided source parts) {before : List Part} {body : List Char}
    (hparts : parts = before ++ [.unended body]) :
    source = before.flatMap Part.text ++ (commentOpening ++ body) := by
  rw [h.text_eq, hparts]
  simp [Part.text]

theorem Divided.eq_of_comment (h : Divided source parts) {before behind : List Part}
    {body : List Char} (hparts : parts = before ++ .comment body :: behind) :
    source = before.flatMap Part.text ++
      (commentOpening ++ (body ++ (commentClosing ++ behind.flatMap Part.text))) := by
  rw [h.text_eq, hparts]
  simp [Part.text]

theorem Divided.readAlike_of_same (h : Divided source parts)
    (hsame : ∀ place, LeftOpenAt parts place ↔ UnendedAt source place) : ReadAlike parts := by
  constructor
  · intro before body hparts
    have htext := h.eq_of_unended hparts
    rcases (hsame _).mp ⟨before, body, hparts, rfl⟩ with ⟨front, rest, hsplit, hplace, hends, _⟩
    rwa [(Text.Position.behind_inj (htext.symm.trans hsplit) hplace).1]
  · intro before body behind hparts hends hnever
    have htext := h.eq_of_comment hparts
    rcases (hsame _).mpr ⟨_, _, htext, rfl, hends, hnever⟩ with ⟨front, last, hlast, hplace⟩
    have hother := h.eq_of_unended hlast
    have hrest := (Text.Position.behind_inj (htext.symm.trans hother) hplace).2
    -- The comment without end would have the end of the other one.
    have hbody : ¬commentClosing <:+: last := h.not_closing_of_unended (by simp [hlast])
    exact hbody ⟨body, behind.flatMap Part.text, by
      rw [← List.append_cancel_left hrest, List.append_assoc]⟩

/-- The check tells of the comment that the mask leaves open exactly if both read alike. -/
theorem Divided.leftOpenAt_iff (h : Divided source parts) :
    (∀ place, LeftOpenAt parts place ↔ UnendedAt source place) ↔ ReadAlike parts := by
  constructor
  · exact h.readAlike_of_same
  · intro halike place
    constructor
    · intro hopen
      rcases hopen with ⟨before, body, hparts, rfl⟩
      have hbody : ¬commentClosing <:+: body := h.not_closing_of_unended (by simp [hparts])
      exact ⟨before.flatMap Part.text, body, h.eq_of_unended hparts, rfl,
        halike.unended before body hparts, not_closing_neverEnds hbody⟩
    · intro hunended
      rcases hunended with ⟨before, rest, hsplit, rfl, hends, hnever⟩
      have houtside := Surroundings.behind_of_endsOutside (p := Text.Position.start) hends
      rcases h.exists_part hsplit houtside with ⟨front, rfl, hopen | ⟨body, behind, hparts, rfl⟩⟩
      · rcases hopen with ⟨body, hparts⟩
        exact ⟨front, body, hparts, rfl⟩
      · exact absurd hnever (halike.ended front body behind hparts hends)

theorem Divided.behind_of_undisturbed (h : Divided source parts) (hclear : Undisturbed parts)
    {front behind : List Part} {part : Part} (hparts : parts = front ++ part :: behind)
    (p : Text.Position) : Surroundings.outside.behind p (front.flatMap Part.text) = .outside := by
  induction h generalizing front p with
  | plain _ =>
      cases front with
      | nil => rfl
      | cons first front => simp at hparts
  | unended hgap _ =>
      have hmarkup := hclear.unmarked _ List.mem_cons_self
      rcases front with _ | ⟨first, _ | ⟨second, front⟩⟩
      · rfl
      · cases hparts
        simpa [Part.text] using Surroundings.behind_of_no_opening hgap hmarkup
      · simp at hparts
  | comment hgap _ _ ih =>
      rename_i gap body rest parts _ _
      have hmarkup := hclear.unmarked _ List.mem_cons_self
      have hbody := hclear.clear body (List.mem_cons_of_mem _ List.mem_cons_self)
      have hgapOutside := fun p => Surroundings.behind_of_no_opening (p := p) hgap hmarkup
      rcases front with _ | ⟨first, _ | ⟨second, front⟩⟩
      · rfl
      · cases hparts
        simpa [Part.text] using hgapOutside p
      · rw [List.cons_append, List.cons_append, List.cons.injEq, List.cons.injEq] at hparts
        rcases hparts with ⟨rfl, rfl, hrest⟩
        have hlater : Undisturbed parts :=
          ⟨fun text hmem => hclear.unmarked text (by simp [hmem]),
            fun body hmem => hclear.clear body (by simp [hmem])⟩
        have hsplit : (Part.plain gap :: .comment body :: front).flatMap Part.text =
            gap ++ (Marker.openTemplate.text ++
              (body ++ (commentClosing ++ front.flatMap Part.text))) := by
          simp [Part.text, Marker.text]
        rw [hsplit, Surroundings.behind_opening (by simp), hgapOutside,
          Surroundings.behind_read_end hbody]
        exact ih hlater hrest _

theorem Undisturbed.readAlike (hclear : Undisturbed parts) (h : Divided source parts) :
    ReadAlike parts := by
  constructor
  · intro before body hparts
    exact Surroundings.behind_eq_outside_iff.mp
      (h.behind_of_undisturbed hclear hparts Text.Position.start)
  · intro before body behind hparts _ hnever
    exact hclear.clear body (by simp [hparts]) (hnever body _ rfl)

end

/-- Holds of findings that tell of a comment without end as the check reads the text, and that agree
with the mask where the check and the mask read alike. -/
structure JudgesEnds (file : String) (source : List Char) (parts : List Part)
    (findings : List Finding) : Prop where
  masked : mask source = parts.flatMap Part.masked
  tells : TellsUnended file (UnendedAt source) findings
  agrees_iff : TellsUnended file (LeftOpenAt parts) findings ↔ ReadAlike parts
  agrees : Undisturbed parts → TellsUnended file (LeftOpenAt parts) findings

/-- The findings of a template judge where its comments end. -/
theorem judgesEnds_lint (expected : List String) (file source : String) :
    (∃ parts, Divided source.toList parts) ∧
      ∀ parts, Divided source.toList parts →
        JudgesEnds file source.toList parts (lintExpecting expected file source) := by
  constructor
  · exact exists_divided source.toList
  · intro parts hparts
    have htells := tellsUnended_unendedAt expected file source
    have hagrees : TellsUnended file (LeftOpenAt parts) (lintExpecting expected file source) ↔
        ReadAlike parts := htells.congr_iff.trans hparts.leftOpenAt_iff
    constructor
    · exact hparts.mask_eq
    · exact htells
    · exact hagrees
    · intro hclear
      exact hagrees.mpr (hclear.readAlike hparts)

def remarksSource : String :=
  "é<#-- <#if -->\n<#-- $\x7b"

def remarksParts : List Part :=
  [.plain ['é'], .comment " <#if ".toList, .plain ['\n'], .unended " $\x7b".toList]

theorem divided_remarks : Divided remarksSource.toList remarksParts := by
  have hsplit : remarksSource.toList = ['é'] ++ (commentOpening ++ " <#if ".toList ++
      commentClosing ++ (['\n'] ++ (commentOpening ++ " $\x7b".toList))) := by
    decide +kernel
  rw [hsplit]
  exact .comment (by decide +kernel) (by decide +kernel)
    (.unended (by decide +kernel) (by decide +kernel))

theorem judgesEnds_lint_remarks :
    Divided remarksSource.toList remarksParts ∧
      JudgesEnds "a.ftl" remarksSource.toList remarksParts
        (lintExpecting [] "a.ftl" remarksSource) ∧
      findingsWith "unterminated-comment" (lintExpecting [] "a.ftl" remarksSource) =
        [unendedFinding "a.ftl" ⟨2, 1⟩] := by
  have hjudges := (judgesEnds_lint [] "a.ftl" remarksSource).2 remarksParts divided_remarks
  have hclear : Undisturbed remarksParts := by
    constructor
    · intro text hmem
      simp only [remarksParts, List.mem_cons, Part.plain.injEq, reduceCtorEq, List.not_mem_nil,
        or_false, false_or] at hmem
      rcases hmem with rfl | rfl <;> decide +kernel
    · intro body hmem
      simp only [remarksParts, List.mem_cons, Part.comment.injEq, reduceCtorEq, List.not_mem_nil,
        or_false, false_or] at hmem
      rw [hmem]
      intro hobscured
      rcases hobscured with ⟨opening, hopening, hsuffix⟩
      revert opening
      decide +kernel
  refine ⟨divided_remarks, hjudges, (hjudges.agrees hclear).told ⟨2, 1⟩ ?_⟩
  refine ⟨[.plain ['é'], .comment " <#if ".toList, .plain ['\n']], " $\x7b".toList, rfl, ?_⟩
  decide +kernel

def sharedSource : String :=
  "<#-- <!-->"

def sharedParts : List Part :=
  [.plain [], .comment " <!".toList, .plain []]

def markupSource : String :=
  "<!-- <#-- $\x7b"

def markupParts : List Part :=
  [.plain "<!-- ".toList, .unended " $\x7b".toList]

/-- The check tells of a comment that ends with shared dashes, and not of one that starts in a
markup comment and does not end. -/
theorem not_tellsUnended_leftOpenAt :
    (Divided sharedSource.toList sharedParts ∧
      ¬TellsUnended "a.ftl" (LeftOpenAt sharedParts) (lint "a.ftl" sharedSource)) ∧
    (Divided markupSource.toList markupParts ∧
      ¬TellsUnended "a.ftl" (LeftOpenAt markupParts) (lint "a.ftl" markupSource)) := by
  have hshared : sharedSource.toList =
      [] ++ (commentOpening ++ " <!".toList ++ commentClosing ++ []) := by decide +kernel
  have hmarkup : markupSource.toList =
      "<!-- ".toList ++ (commentOpening ++ " $\x7b".toList) := by decide +kernel
  refine ⟨⟨?_, ?_⟩, ?_, ?_⟩
  · rw [hshared]
    exact .comment (by decide +kernel) (by decide +kernel) (.plain (by decide +kernel))
  · intro h
    have hfound : unendedFinding "a.ftl" ⟨1, 1⟩ ∈
        findingsWith "unterminated-comment" (lint "a.ftl" sharedSource) := by decide +kernel
    rcases h.meant _ hfound with ⟨place, ⟨before, body, hparts, _⟩, _⟩
    have hlast := congrArg List.getLast? hparts
    rw [List.getLast?_concat] at hlast
    cases hlast
  · rw [hmarkup]
    exact .unended (by decide +kernel) (by decide +kernel)
  · intro h
    have hnone : findingsWith "unterminated-comment" (lint "a.ftl" markupSource) = [] := by
      decide +kernel
    have htold := h.told _ ⟨[.plain "<!-- ".toList], " $\x7b".toList, rfl, rfl⟩
    rw [hnone] at htold
    cases htold

end Template
end StencilDesk
