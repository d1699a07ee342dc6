import StencilDesk.Proofs.Template.Comments
import StencilDesk.Proofs.Text.Occurrences

/-!
# Markers as they are read

The check of comments reads three markers from left to right. An opening marker is always read where
it stands, since no other one reaches into it. A closing marker is not read if the opening marker of
a comment ends with one of its dashes. Behind an opening marker the check stands in a comment, and
behind a closing marker it stands outside.
-/

namespace StencilDesk
namespace Template

def markupOpening : List Char :=
  ['<', '!', '-', '-']

namespace Marker

def text : Marker → List Char
  | openTemplate => commentOpening
  | openMarkup => markupOpening
  | close => commentClosing

def Spells (marker : Marker) (spelled : List Char) : Prop :=
  spelled = marker.text

theorem text_ne_nil (marker : Marker) : marker.text ≠ [] := by
  cases marker <;> exact List.cons_ne_nil _ _

theorem recognises_spells : Text.Recognises marker? Spells where
  eq_some_iff := by
    intro text marker size
    constructor
    · intro h
      rw [marker?.eq_def] at h
      split at h
      · cases h
        exact ⟨commentOpening, _, rfl, rfl, rfl⟩
      · cases h
        exact ⟨markupOpening, _, rfl, rfl, rfl⟩
      · cases h
        exact ⟨commentClosing, _, rfl, rfl, rfl⟩
      · cases h
    · intro h
      rcases h with ⟨spelled, behind, rfl, rfl, rfl⟩
      cases marker <;> rfl
  nonempty := by
    intro marker spelled hspelled
    rcases hspelled with rfl
    exact marker.text_ne_nil

theorem infix_of_mem {p place : Text.Position} {text : List Char} {marker : Marker}
    (h : (place, marker) ∈ Text.occurrencesFrom marker? 0 p text) : marker.text <:+: text := by
  rcases Text.exists_mem_occurrences h with ⟨other, hfound⟩
  rcases (recognises_spells.scanned_iff.mpr rfl).of_mem hfound with
    ⟨front, spelled, behind, hsplit, _, rfl⟩
  rw [List.nil_append] at hsplit
  exact ⟨front, behind, hsplit.symm⟩

end Marker

/-!
## Where markers meet
-/

/-- Holds of a text behind which a closing marker shares its dashes with an opening one. -/
def Obscured (front : List Char) : Prop :=
  ∃ opening ∈ [commentOpening, markupOpening],
    opening <:+ front ++ ['-'] ∨ opening <:+ front ++ ['-', '-']

def NeverEnds (text : List Char) : Prop :=
  ∀ front behind, text = front ++ (commentClosing ++ behind) → Obscured front

/-- Holds of a text at the end of which the check stands outside of comments: there is no opening
marker in it, or none behind a closing marker that is read. -/
def EndsOutside (text : List Char) : Prop :=
  ∃ closed gap, text = closed ++ gap ∧
    (closed = [] ∨ ∃ front, closed = front ++ commentClosing ∧ ¬Obscured front) ∧
    ¬commentOpening <:+: gap ∧ ¬markupOpening <:+: gap

theorem Obscured.prepend {front : List Char} (h : Obscured front) (before : List Char) :
    Obscured (before ++ front) := by
  rcases h with ⟨opening, hmem, hsuffix⟩
  refine ⟨opening, hmem, ?_⟩
  rw [List.append_assoc, List.append_assoc]
  exact hsuffix.imp (·.trans (List.suffix_append _ _)) (·.trans (List.suffix_append _ _))

/-- Only the last three characters of a text matter to a closing marker behind it. -/
theorem obscured_append_iff {before last front : List Char} (hlength : 3 ≤ last.length)
    (hlast : '<' ∉ last) : Obscured (before ++ last ++ front) ↔ Obscured front := by
  constructor
  · intro h
    rcases h with ⟨opening, hopening, hsuffix⟩
    have hinside : ∀ dashes : List Char, dashes ≠ [] →
        opening <:+ before ++ last ++ front ++ dashes → opening <:+ front ++ dashes := by
      intro dashes hdashes h
      rw [List.append_assoc (before ++ last)] at h
      rcases List.suffix_or_suffix_of_suffix h (List.suffix_append _ _) with hinside | hreaches
      · exact hinside
      · rcases hreaches with ⟨reach, hreach⟩
        cases reach with
        | nil => exact hreach ▸ List.suffix_refl _
        | cons c reach =>
            -- What reaches before is so short that it lies in the end, but starts with a bracket.
            rw [← hreach, List.suffix_append_self_iff] at h
            have hfour : opening.length = 4 ∧ opening.head? = some '<' := by
              simp only [List.mem_cons, List.not_mem_nil, or_false] at hopening
              rcases hopening with rfl | rfl <;> exact ⟨rfl, rfl⟩
            rw [← hreach, List.cons_append, List.head?_cons, Option.some.injEq] at hfour
            have hshort : (c :: reach).length ≤ last.length := by
              have := List.length_pos_iff.mpr hdashes
              simp only [List.length_cons, List.length_append] at hfour ⊢
              omega
            have hsuffix : c :: reach <:+ last :=
              List.suffix_of_suffix_length_le h (List.suffix_append _ _) hshort
            exact absurd (hsuffix.subset (hfour.2 ▸ List.mem_cons_self)) hlast
    refine ⟨opening, hopening, ?_⟩
    exact hsuffix.imp (hinside _ (List.cons_ne_nil _ _)) (hinside _ (List.cons_ne_nil _ _))
  · intro h
    exact h.prepend _

theorem apart_opening (front rest : List Char) :
    Text.Apart Marker.Spells front ('<' :: rest) := by
  intro outer inner _ hsome marker spelled hspelled hstarts
  rcases hspelled with rfl
  rcases Text.prefix_append_cases hstarts with hinside | ⟨reach, hreach, hmarker, hbehind⟩
  · exact hinside
  · cases inner with
    | nil => exact absurd rfl hsome
    | cons c inner =>
        cases reach with
        | nil => exact absurd rfl hreach
        | cons d reach =>
            have hd : d = '<' := (List.cons_prefix_cons.mp hbehind).1
            have hmem : '<' ∈ marker.text.tail := by simp [hmarker, hd]
            cases marker <;>
              simp [Marker.text, commentOpening, markupOpening, commentClosing] at hmem

theorem apart_closing (front rest : List Char) :
    Text.Apart Marker.Spells (front ++ commentClosing) rest := by
  intro outer inner hsplit hsome marker spelled hspelled hstarts
  rcases hspelled with rfl
  rcases Text.prefix_append_cases hstarts with hinside | ⟨reach, hreach, hmarker, _⟩
  · exact hinside
  · rcases List.eq_nil_or_concat inner with rfl | ⟨init, c, rfl⟩
    · exact absurd rfl hsome
    · have hc : c = '>' := by
        have hlast := congrArg List.getLast? hsplit
        simpa [commentClosing, eq_comm] using hlast
      have hmem : '>' ∈ marker.text.dropLast := by
        rw [hmarker, List.dropLast_append_of_ne_nil hreach]
        simp [hc]
      cases marker <;> simp [Marker.text, commentOpening, markupOpening, commentClosing] at hmem

theorem apart_of_not_obscured {front : List Char} (h : ¬Obscured front) (rest : List Char) :
    Text.Apart Marker.Spells front (commentClosing ++ rest) := by
  intro outer inner hsplit hsome marker spelled hspelled hstarts
  rcases hspelled with rfl
  rcases Text.prefix_append_cases hstarts with hinside | ⟨reach, hreach, hmarker, hbehind⟩
  · exact hinside
  · have hdashes : marker.text ∈ [commentOpening, markupOpening] ∧
        (reach = ['-'] ∨ reach = ['-', '-']) := by
      rcases inner with _ | ⟨a, _ | ⟨b, _ | ⟨c, _ | ⟨d, inner⟩⟩⟩⟩ <;> cases marker <;>
        simp_all [Marker.text, commentOpening, markupOpening, commentClosing]
    exfalso
    apply h
    have hsuffix : marker.text <:+ front ++ reach := by
      rw [hmarker, hsplit, List.append_assoc]
      exact List.suffix_append _ _
    rcases hdashes.2 with rfl | rfl
    · exact ⟨_, hdashes.1, .inl hsuffix⟩
    · exact ⟨_, hdashes.1, .inr hsuffix⟩

theorem obscured_behind_iff (marker : Marker) {before front : List Char} :
    Obscured (before ++ marker.text ++ front) ↔ Obscured front := by
  have hopening : ∀ mark : Char, mark ≠ '<' →
      (Obscured (before ++ ['<', mark, '-', '-'] ++ front) ↔ Obscured front) := by
    intro mark hmark
    have hsplit : before ++ ['<', mark, '-', '-'] = before ++ ['<'] ++ [mark, '-', '-'] := by simp
    rw [hsplit]
    exact obscured_append_iff (Nat.le_refl 3) (by simp [hmark.symm])
  cases marker with
  | openTemplate => exact hopening '#' (by decide)
  | openMarkup => exact hopening '!' (by decide)
  | close => exact obscured_append_iff (Nat.le_refl 3) (by decide)

theorem NeverEnds.behind {before text : List Char} {marker : Marker}
    (h : NeverEnds (before ++ marker.text ++ text)) : NeverEnds text := by
  intro front behind hsplit
  rw [← obscured_behind_iff marker]
  apply h _ behind
  rw [hsplit, List.append_assoc, List.append_assoc, List.append_assoc]

theorem not_obscured_of_silent {gap behind : List Char}
    (hsilent : Text.Silent Marker.Spells gap (commentClosing ++ behind)) : ¬Obscured gap := by
  intro h
  rcases h with ⟨opening, hopening, hsuffix⟩
  have hmarker : ∃ marker : Marker, opening = marker.text ∧ opening.length = 4 := by
    simp only [List.mem_cons, List.not_mem_nil, or_false] at hopening
    rcases hopening with rfl | rfl
    · exact ⟨.openTemplate, rfl, rfl⟩
    · exact ⟨.openMarkup, rfl, rfl⟩
  rcases hmarker with ⟨marker, hmarker, hlength⟩
  have hstarts : ∀ dashes rest : List Char, dashes.length < 4 → commentClosing = dashes ++ rest →
      ¬opening <:+ gap ++ dashes := by
    intro dashes rest hshort hclosing hends
    rcases hends with ⟨front, hfront⟩
    rcases List.append_eq_append_iff.mp hfront with ⟨reach, hgap, hreach⟩ | ⟨reach, _, hreach⟩
    · have hsome : reach ≠ [] := by
        intro hnil
        rw [hnil, List.nil_append] at hreach
        rw [hreach] at hlength
        omega
      apply hsilent front reach hgap hsome
      refine ⟨marker, opening, rest ++ behind, ?_, hmarker⟩
      rw [hreach, hclosing]
      simp
    · have hlong := congrArg List.length hreach
      rw [List.length_append] at hlong
      omega
  rcases hsuffix with hone | htwo
  · exact hstarts ['-'] ['-', '>'] (by decide) rfl hone
  · exact hstarts ['-', '-'] ['>'] (by decide) rfl htwo

theorem NeverEnds.forall_scanned {before text : List Char}
    {found : List (Text.Position × Marker)} (h : NeverEnds text)
    (hscanned : Text.Scanned Marker.Spells before text found) :
    ∀ item ∈ found, item.2 ≠ .close := by
  induction hscanned with
  | done _ => exact List.forall_mem_nil _
  | found silent hspelled _ ih =>
      rename_i before gap spelled behind marker more _
      rcases hspelled with rfl
      rw [List.forall_mem_cons]
      refine ⟨?_, ih h.behind⟩
      intro hclose
      have hmarker : marker.text = commentClosing := congrArg Marker.text hclose
      rw [hmarker] at silent h
      exact not_obscured_of_silent silent (h gap behind (List.append_assoc _ _ _))

theorem NeverEnds.not_close {text : List Char} (h : NeverEnds text) {p place : Text.Position}
    {marker : Marker} (hmem : (place, marker) ∈ Text.occurrencesFrom marker? 0 p text) :
    marker ≠ .close := by
  rcases Text.exists_mem_occurrences hmem with ⟨other, hfound⟩
  exact h.forall_scanned (Marker.recognises_spells.scanned_iff.mpr rfl) _ hfound

/-- A text falls apart behind the last closing marker that is read. -/
theorem exists_last_end (text : List Char) : ∃ closed behind, text = closed ++ behind ∧
    (closed = [] ∨ ∃ front, closed = front ++ commentClosing ∧ ¬Obscured front) ∧
      NeverEnds behind := by
  induction hlength : text.length using Nat.strongRecOn generalizing text with
  | ind size ih =>
      by_cases hnever : NeverEnds text
      · exact ⟨[], text, rfl, .inl rfl, hnever⟩
      · simp only [NeverEnds, Classical.not_forall, exists_prop] at hnever
        rcases hnever with ⟨front, rest, hsplit, hread⟩
        have hshorter : rest.length < size := by
          rw [← hlength, hsplit]
          simp only [List.length_append, commentClosing, List.length_cons]
          omega
        rcases ih rest.length hshorter rest rfl with ⟨closed, behind, hrest, hclosed, hbehind⟩
        refine ⟨front ++ commentClosing ++ closed, behind, ?_, .inr ?_, hbehind⟩
        · rw [hsplit, hrest]
          simp
        · rcases hclosed with rfl | ⟨last, rfl, hlast⟩
          · exact ⟨front, List.append_nil _, hread⟩
          · refine ⟨front ++ commentClosing ++ last, (List.append_assoc _ _ _).symm, ?_⟩
            exact fun hobscured => hlast ((obscured_behind_iff .close).mp hobscured)

/-!
## Where the check stands
-/

namespace Surroundings

def after : Surroundings → Text.Position × Marker → Surroundings
  | outside, (place, .openTemplate) => template place
  | outside, (_, .openMarkup) => markup
  | _, (_, .close) => outside
  | inside, _ => inside

def behind (surroundings : Surroundings) (p : Text.Position) (text : List Char) : Surroundings :=
  (Text.occurrencesFrom marker? 0 p text).foldl after surroundings

section
variable {surroundings : Surroundings} {p place : Text.Position} {front rest text : List Char}

theorem after_close : surroundings.after (place, .close) = outside := by
  cases surroundings <;> rfl

theorem after_of_inside {found : Text.Position × Marker} (hinside : surroundings ≠ outside)
    (hfound : found.2 ≠ .close) : surroundings.after found = surroundings := by
  rcases found with ⟨place, marker⟩
  cases surroundings with
  | outside => exact absurd rfl hinside
  | template opened => cases marker <;> first | rfl | exact absurd rfl hfound
  | markup => cases marker <;> first | rfl | exact absurd rfl hfound

theorem behind_append (hapart : Text.Apart Marker.Spells front rest) :
    surroundings.behind p (front ++ rest) =
      (surroundings.behind p front).behind (p.behind front) rest := by
  rw [behind, Marker.recognises_spells.occurrencesFrom_append hapart (Nat.zero_le _),
    List.foldl_append]
  rfl

theorem behind_marker (marker : Marker) :
    surroundings.behind p (marker.text ++ rest) =
      (surroundings.after (p, marker)).behind (p.behind marker.text) rest := by
  rw [behind, Marker.recognises_spells.occurrencesFrom_spelled rfl]
  rfl

theorem behind_opening {marker : Marker} (h : marker ≠ .close) :
    surroundings.behind p (front ++ (marker.text ++ rest)) =
      ((surroundings.behind p front).after (p.behind front, marker)).behind
        ((p.behind front).behind marker.text) rest := by
  have hapart : Text.Apart Marker.Spells front (marker.text ++ rest) := by
    cases marker with
    | openTemplate => exact apart_opening front _
    | openMarkup => exact apart_opening front _
    | close => exact absurd rfl h
  rw [behind_append hapart, behind_marker]

theorem foldl_after_of_inside {markers : List (Text.Position × Marker)}
    (hinside : surroundings ≠ outside) (hmarkers : ∀ found ∈ markers, found.2 ≠ .close) :
    markers.foldl after surroundings = surroundings := by
  induction markers with
  | nil => rfl
  | cons found rest ih =>
      rw [List.forall_mem_cons] at hmarkers
      rw [List.foldl_cons, after_of_inside hinside hmarkers.1, ih hmarkers.2]

theorem foldl_after_of_close {markers : List (Text.Position × Marker)}
    (hmarkers : ∀ found ∈ markers, found.2 = .close) : markers.foldl after outside = outside := by
  induction markers with
  | nil => rfl
  | cons found rest ih =>
      rcases found with ⟨place, marker⟩
      rw [List.forall_mem_cons] at hmarkers
      rw [List.foldl_cons, show marker = .close from hmarkers.1, after_close, ih hmarkers.2]

theorem behind_of_neverEnds (hinside : surroundings ≠ outside) (h : NeverEnds text) :
    surroundings.behind p text = surroundings :=
  foldl_after_of_inside hinside fun _ hmem => h.not_close hmem

theorem behind_of_no_opening (htemplate : ¬commentOpening <:+: text)
    (hmarkup : ¬markupOpening <:+: text) : outside.behind p text = outside := by
  apply foldl_after_of_close
  intro found hmem
  rcases found with ⟨place, marker⟩
  have hstands := Marker.infix_of_mem hmem
  cases marker with
  | openTemplate => exact absurd hstands htemplate
  | openMarkup => exact absurd hstands hmarkup
  | close => rfl

theorem behind_read_end (hread : ¬Obscured front) :
    surroundings.behind p (front ++ (commentClosing ++ rest)) =
      outside.behind (p.behind (front ++ commentClosing)) rest := by
  rw [behind_append (apart_of_not_obscured hread rest), Text.Position.behind_append]
  exact (behind_marker .close).trans (by rw [after_close]; rfl)

theorem behind_of_endsOutside (h : EndsOutside text) : outside.behind p text = outside := by
  rcases h with ⟨closed, gap, rfl, hclosed, htemplate, hmarkup⟩
  rcases hclosed with rfl | ⟨front, rfl, hread⟩
  · exact behind_of_no_opening htemplate hmarkup
  · rw [List.append_assoc, behind_read_end hread]
    exact behind_of_no_opening htemplate hmarkup

end

end Surroundings

end Template
end StencilDesk
