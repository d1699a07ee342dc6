import Mathlib.Data.List.Forall2
import StencilDesk.Proofs.Text.Occurrences
import StencilDesk.Text.Blank
import StencilDesk.Text.Split

/-!
# Blanks before line feeds

A text is padded by one blank more at the end of each of its lines. A padded text falls apart where
the text does, and every other character keeps its line and its column. So constructs that may be
padded, too, are found at the same places in both texts.
-/

namespace StencilDesk

theorem filterMap_eq_of_forall₂ {α β γ : Type} {Same : α → β → Prop} {f : α → Option γ}
    {g : β → Option γ} {list : List α} {other : List β} (h : List.Forall₂ Same list other)
    (hsame : ∀ a b, Same a b → g b = f a) : other.filterMap g = list.filterMap f := by
  induction h with
  | nil => rfl
  | cons hfirst _ ih => rw [List.filterMap_cons, List.filterMap_cons, hsame _ _ hfirst, ih]

namespace Text

/-- Holds of a text and the text with one blank more before each of its line feeds. -/
inductive Padded : List Char → List Char → Prop where
  | nil : Padded [] []
  | other {c : Char} {rest padded : List Char} (hc : c ≠ '\n') (hrest : Padded rest padded) :
      Padded (c :: rest) (c :: padded)
  | lineFeed {pad : Char} {rest padded : List Char} (hblank : isBlank pad = true)
      (hpad : pad ≠ '\n') (hrest : Padded rest padded) :
      Padded ('\n' :: rest) (pad :: '\n' :: padded)

section
variable {text padded front behind inner : List Char} {c : Char}

theorem ne_of_isBlank {d : Char} (hc : isBlank c = false) (hd : isBlank d = true) : c ≠ d := by
  intro hsame
  rw [hsame, hd] at hc
  cases hc

theorem ne_lineFeed (hc : isBlank c = false) : c ≠ '\n' :=
  ne_of_isBlank hc isBlank_newline

/-!
## Parts
-/

theorem Padded.append {other rest : List Char} (h : Padded text padded)
    (hother : Padded other rest) : Padded (text ++ other) (padded ++ rest) := by
  induction h with
  | nil => exact hother
  | other hc _ ih => exact .other hc ih
  | lineFeed hblank hpad _ ih => exact .lineFeed hblank hpad ih

theorem Padded.exists_parts (h : Padded (front ++ behind) padded) :
    ∃ left right, padded = left ++ right ∧ Padded front left ∧ Padded behind right := by
  induction front generalizing padded with
  | nil => exact ⟨[], padded, rfl, .nil, h⟩
  | cons c front ih =>
      cases h with
      | other hc hrest =>
          rcases ih hrest with ⟨left, right, rfl, hfront, hbehind⟩
          exact ⟨c :: left, right, rfl, .other hc hfront, hbehind⟩
      | lineFeed hblank hpad hrest =>
          rcases ih hrest with ⟨left, right, rfl, hfront, hbehind⟩
          exact ⟨_ :: '\n' :: left, right, rfl, .lineFeed hblank hpad hfront, hbehind⟩

/-- Where a padded text falls apart, the text does, unless a blank is cut off its line feed. -/
theorem Padded.exists_unpadded (h : Padded text (front ++ behind))
    (hbehind : behind.head? ≠ some '\n') :
    ∃ left right, text = left ++ right ∧ Padded left front ∧ Padded right behind := by
  generalize hwhole : front ++ behind = padded at h
  induction h generalizing front with
  | nil =>
      rcases List.append_eq_nil_iff.mp hwhole with ⟨rfl, rfl⟩
      exact ⟨[], [], rfl, .nil, .nil⟩
  | @other c rest padded hc hrest ih =>
      cases front with
      | nil =>
          rw [List.nil_append] at hwhole
          rw [hwhole]
          exact ⟨[], c :: rest, rfl, .nil, .other hc hrest⟩
      | cons d front =>
          rw [List.cons_append, List.cons.injEq] at hwhole
          rcases hwhole with ⟨rfl, hwhole⟩
          rcases ih hwhole with ⟨left, right, rfl, hfront, hright⟩
          exact ⟨d :: left, right, rfl, .other hc hfront, hright⟩
  | @lineFeed pad rest padded hblank hpad hrest ih =>
      rcases front with _ | ⟨d, _ | ⟨e, front⟩⟩
      · rw [List.nil_append] at hwhole
        rw [hwhole]
        exact ⟨[], '\n' :: rest, rfl, .nil, .lineFeed hblank hpad hrest⟩
      · rw [List.cons_append, List.nil_append, List.cons.injEq] at hwhole
        rw [hwhole.2] at hbehind
        exact absurd rfl hbehind
      · rw [List.cons_append, List.cons_append, List.cons.injEq, List.cons.injEq] at hwhole
        rcases hwhole with ⟨rfl, rfl, hwhole⟩
        rcases ih hwhole with ⟨left, right, rfl, hfront, hright⟩
        exact ⟨'\n' :: left, right, rfl, .lineFeed hblank hpad hfront, hright⟩

theorem Padded.eq_of_not_mem (h : Padded text padded) (hline : '\n' ∉ text) : padded = text := by
  induction h with
  | nil => rfl
  | other _ _ ih =>
      rw [List.mem_cons, not_or] at hline
      rw [ih hline.2]
  | lineFeed _ _ _ _ => exact absurd List.mem_cons_self hline

theorem Padded.mem_lineFeed_iff (h : Padded text padded) : '\n' ∈ padded ↔ '\n' ∈ text := by
  induction h with
  | nil => rfl
  | other _ _ ih => rw [List.mem_cons, List.mem_cons, ih]
  | lineFeed _ _ _ _ => simp

theorem Padded.mem_iff (h : Padded text padded) (hc : isBlank c = false) :
    c ∈ padded ↔ c ∈ text := by
  induction h with
  | nil => rfl
  | other _ _ ih => rw [List.mem_cons, List.mem_cons, ih]
  | @lineFeed pad rest padded hblank _ _ ih =>
      rw [List.mem_cons, List.mem_cons, List.mem_cons, ih,
        or_iff_right (ne_of_isBlank hc hblank)]

theorem Padded.blank_iff (h : Padded text padded) :
    (∀ c ∈ padded, isBlank c = true) ↔ ∀ c ∈ text, isBlank c = true := by
  induction h with
  | nil => rfl
  | other _ _ ih => rw [List.forall_mem_cons, List.forall_mem_cons, ih]
  | lineFeed hblank _ _ ih =>
      rw [List.forall_mem_cons, List.forall_mem_cons, List.forall_mem_cons, ih]
      exact and_iff_right hblank

theorem Padded.head?_eq_some_iff (h : Padded text padded) (hc : isBlank c = false) :
    padded.head? = some c ↔ text.head? = some c := by
  cases h with
  | nil => rfl
  | other _ _ => rfl
  | lineFeed hblank _ _ =>
      rw [List.head?_cons, List.head?_cons, Option.some.injEq, Option.some.injEq]
      exact iff_of_false (ne_of_isBlank hc hblank).symm (ne_lineFeed hc).symm

/-- A line feed stays behind its padding, so a padded text ends as the text does. -/
theorem Padded.getLast?_eq (h : Padded text padded) : padded.getLast? = text.getLast? := by
  induction h with
  | nil => rfl
  | other _ _ ih => rw [List.getLast?_cons, List.getLast?_cons, ih]
  | lineFeed _ _ _ ih => rw [List.getLast?_cons_cons, List.getLast?_cons, List.getLast?_cons, ih]

theorem Padded.exists_unpadded_behind (h : Padded text (inner ++ c :: behind))
    (hc : isBlank c = false) :
    ∃ left right, text = left ++ c :: right ∧ Padded left inner ∧ Padded right behind := by
  rcases h.exists_unpadded (by simpa using ne_lineFeed hc) with ⟨left, right, rfl, hleft, hright⟩
  cases hright with
  | other _ hrest => exact ⟨left, _, rfl, hleft, hrest⟩
  | lineFeed hblank _ _ =>
      rw [hblank] at hc
      cases hc

theorem Padded.prefix_of_padded (h : Padded text padded) (hfront : '\n' ∉ front)
    (hc : isBlank c = false) (hstarts : front ++ [c] <+: padded) : front ++ [c] <+: text := by
  rcases hstarts with ⟨behind, rfl⟩
  rw [List.append_assoc, List.singleton_append] at h
  rcases h.exists_unpadded_behind hc with ⟨left, right, rfl, hleft, _⟩
  have hsame : front = left := hleft.eq_of_not_mem (by rwa [← hleft.mem_lineFeed_iff])
  rw [hsame]
  exact ⟨right, by simp⟩

theorem Padded.exists_inner {opening : List Char} (h : Padded (opening ++ (inner ++ [c])) padded)
    (hopening : '\n' ∉ opening) (hc : isBlank c = false) :
    ∃ other, padded = opening ++ (other ++ [c]) ∧ Padded inner other := by
  rcases h.exists_parts with ⟨left, right, rfl, hleft, hright⟩
  rcases hright.exists_parts with ⟨other, last, rfl, hother, hlast⟩
  have hend : '\n' ∉ [c] := by simpa using (ne_lineFeed hc).symm
  rw [hleft.eq_of_not_mem hopening, hlast.eq_of_not_mem hend]
  exact ⟨other, rfl, hother⟩

theorem Padded.exists_inner_unpadded {front : List Char} {d : Char}
    (h : Padded text (front ++ [d] ++ (inner ++ [c]))) (hfront : '\n' ∉ front)
    (hd : isBlank d = false) (hc : isBlank c = false) :
    ∃ other, text = front ++ [d] ++ (other ++ [c]) ∧ Padded other inner := by
  rw [List.append_assoc, List.singleton_append] at h
  rcases h.exists_unpadded_behind hd with ⟨left, right, rfl, hleft, hright⟩
  rcases hright.exists_unpadded_behind hc with ⟨other, last, rfl, hother, hlast⟩
  have hsame : front = left := hleft.eq_of_not_mem (by rwa [← hleft.mem_lineFeed_iff])
  cases hlast with
  | nil => exact ⟨other, by rw [hsame]; simp, hother⟩

theorem Position.behind_padded (h : Padded text padded) (p : Position) :
    p.behind padded = p.behind text := by
  induction h generalizing p with
  | nil => rfl
  | other _ _ ih => exact ih _
  | @lineFeed pad _ _ _ hpad _ ih =>
      have hafter : (p.after pad).after '\n' = p.after '\n' := by
        rw [Position.after, if_pos rfl, Position.after, if_neg hpad, Position.after, if_pos rfl]
      rw [Position.behind_cons, Position.behind_cons, Position.behind_cons, hafter, ih]

end

/-!
## Blanks in front
-/

section
variable {text padded : List Char} {p : Char → Bool}

theorem Padded.trimStart (h : Padded text padded) :
    Padded (Text.trimStart text) (Text.trimStart padded) := by
  induction h with
  | nil => exact .nil
  | @other c rest padded hc hrest ih =>
      cases hblank : isBlank c with
      | true => rwa [trimStart_cons_blank _ hblank, trimStart_cons_blank _ hblank]
      | false =>
          rw [trimStart_cons_mark _ hblank, trimStart_cons_mark _ hblank]
          exact .other hc hrest
  | lineFeed hblank _ _ ih =>
      rwa [trimStart_cons_blank _ isBlank_newline, trimStart_cons_blank _ hblank,
        trimStart_cons_blank _ isBlank_newline]

theorem Padded.isEmpty_eq (h : Padded text padded) : padded.isEmpty = text.isEmpty := by
  cases h <;> rfl

theorem Padded.takeWhile_eq (h : Padded text padded) (hp : ∀ c, isBlank c = true → p c = false) :
    padded.takeWhile p = text.takeWhile p := by
  induction h with
  | nil => rfl
  | other _ _ ih => rw [List.takeWhile_cons, List.takeWhile_cons, ih]
  | lineFeed hblank _ _ _ =>
      rw [List.takeWhile_cons_of_neg (by simp [hp _ hblank]),
        List.takeWhile_cons_of_neg (by simp [hp _ isBlank_newline])]

/-!
## Lines
-/

/-- Holds of a line that has a blank more at its end, or stays as it is. -/
def EndsPadded (line padded : List Char) : Prop :=
  padded = line ∨ ∃ pad, isBlank pad = true ∧ padded = line ++ [pad]

theorem Padded.lines (h : Padded text padded) :
    List.Forall₂ EndsPadded (Text.lines text) (Text.lines padded) := by
  induction h with
  | nil => exact .cons (.inl rfl) .nil
  | @other c rest padded hc _ ih =>
      have hline : '\n' ∉ [c] := by simpa using Ne.symm hc
      rcases List.exists_cons_of_ne_nil (splitOn_ne_nil '\n' rest) with ⟨line, below, hrest⟩
      rcases List.exists_cons_of_ne_nil (splitOn_ne_nil '\n' padded) with ⟨other, others, hpadded⟩
      rw [Text.lines, Text.lines, hrest, hpadded, List.forall₂_cons] at ih
      have htext := splitOn_append_of_not_mem hline hrest
      have hother := splitOn_append_of_not_mem hline hpadded
      rw [List.singleton_append] at htext hother
      rw [Text.lines, Text.lines, htext, hother]
      refine .cons ?_ ih.2
      rcases ih.1 with hsame | ⟨pad, hblank, hpad⟩
      · exact .inl (hsame ▸ rfl)
      · exact .inr ⟨pad, hblank, hpad ▸ rfl⟩
  | @lineFeed pad rest padded hblank hpad _ ih =>
      have hline : '\n' ∉ [pad] := by simpa using Ne.symm hpad
      have hpadded := splitOn_append_separator '\n' [pad] padded
      rw [splitOn_of_not_mem hline] at hpadded
      rw [Text.lines, Text.lines, splitOn_separator]
      rw [List.singleton_append] at hpadded
      rw [hpadded]
      exact .cons (.inr ⟨pad, hblank, rfl⟩) ih

end

/-!
## Constructs
-/

/-- Holds of constructs that stay what they are when they are padded, and that nothing becomes by
being padded. They have no blanks at their ends. -/
structure Paddable {α : Type} (Spells : α → List Char → Prop) (Same : α → α → Prop) : Prop where
  pad : ∀ {item spelled padded}, Spells item spelled → Padded spelled padded →
    ∃ other, Spells other padded ∧ Same item other
  unpad : ∀ {item spelled padded}, Spells item padded → Padded spelled padded →
    ∃ other, Spells other spelled
  first : ∀ {item spelled}, Spells item spelled →
    ∃ c rest, spelled = c :: rest ∧ isBlank c = false
  last : ∀ {item spelled}, Spells item spelled →
    ∃ inner c, spelled = inner ++ [c] ∧ isBlank c = false

section
variable {α : Type} {Spells : α → List Char → Prop} {Same : α → α → Prop}
  {text padded gap behind other rest before earlier : List Char}

theorem Paddable.not_starts_blank (h : Paddable Spells Same) {c : Char} (hc : isBlank c = true) :
    ¬Starts Spells (c :: rest) := by
  intro hstarts
  rcases hstarts with ⟨item, spelled, behind, hsplit, hspelled⟩
  rcases h.first hspelled with ⟨d, inner, rfl, hd⟩
  rw [List.cons_append, List.cons.injEq] at hsplit
  exact ne_of_isBlank hd hc hsplit.1.symm

theorem Paddable.starts_of_padded (h : Paddable Spells Same) (hpadded : Padded text padded)
    (hstarts : Starts Spells padded) : Starts Spells text := by
  rcases hstarts with ⟨item, spelled, behind, hsplit, hspelled⟩
  rcases h.last hspelled with ⟨inner, c, rfl, hc⟩
  rw [hsplit, List.append_assoc, List.singleton_append] at hpadded
  rcases hpadded.exists_unpadded_behind hc with ⟨left, right, rfl, hleft, _⟩
  have hwhole : Padded (left ++ [c]) (inner ++ [c]) := hleft.append (.other (ne_lineFeed hc) .nil)
  rcases h.unpad hspelled hwhole with ⟨found, hfound⟩
  exact ⟨found, left ++ [c], right, by simp, hfound⟩

theorem Paddable.silent (h : Paddable Spells Same) (hgap : Padded gap other)
    (hbehind : Padded behind rest) (hsilent : Silent Spells gap behind) :
    Silent Spells other rest := by
  induction hgap with
  | nil => exact silent_nil rest
  | other hc hrest ih =>
      rw [silent_cons] at hsilent ⊢
      constructor
      · intro hstarts
        exact hsilent.1 (h.starts_of_padded (.other hc (hrest.append hbehind)) hstarts)
      · exact ih hsilent.2
  | lineFeed hblank _ _ ih =>
      rw [silent_cons] at hsilent
      rw [silent_cons, silent_cons]
      exact ⟨h.not_starts_blank hblank, h.not_starts_blank isBlank_newline, ih hsilent.2⟩

def Together (Same : α → α → Prop) (a b : Position × α) : Prop :=
  a.1 = b.1 ∧ Same a.2 b.2

theorem Paddable.exists_scanned (h : Paddable Spells Same) {found : List (Position × α)}
    (hscanned : Scanned Spells before text found) (hbefore : Padded before earlier)
    (hpadded : Padded text padded) :
    ∃ others, Scanned Spells earlier padded others ∧
      List.Forall₂ (Together Same) found others := by
  induction hscanned generalizing earlier padded with
  | done silent => exact ⟨[], .done (h.silent hpadded .nil silent), .nil⟩
  | found silent hspelled _ ih =>
      rcases hpadded.exists_parts with ⟨_, right, rfl, hfront, hright⟩
      rcases hfront.exists_parts with ⟨left, middle, rfl, hleft, hmiddle⟩
      rcases h.pad hspelled hmiddle with ⟨item, hitem, hsame⟩
      rcases ih ((hbefore.append hleft).append hmiddle) hright with ⟨others, hothers, htogether⟩
      refine ⟨_, .found (h.silent hleft (hmiddle.append hright) silent) hitem hothers, ?_⟩
      exact .cons ⟨(Position.behind_padded (hbefore.append hleft) _).symm, hsame⟩ htogether

/-- In a padded text, the same is found at the same places. -/
theorem Paddable.occurrences (h : Paddable Spells Same) {recognise : List Char → Option (α × Nat)}
    (hrecognises : Recognises recognise Spells) (hpadded : Padded text padded) :
    List.Forall₂ (Together Same) (occurrences recognise text) (occurrences recognise padded) := by
  rcases h.exists_scanned (hrecognises.scanned_iff.mpr rfl) .nil hpadded with
    ⟨others, hothers, htogether⟩
  rw [hrecognises.scanned_iff.mp hothers] at htogether
  exact htogether

end

end Text
end StencilDesk
