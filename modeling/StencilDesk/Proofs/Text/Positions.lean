import StencilDesk.Text.Position
import StencilDesk.Text.Split

/-!
# Places in a text

A place behind more of a text is a later place, so places of different parts of a text differ. The
line and the column of a place tell where to look for what stands there.
-/

namespace StencilDesk
namespace Text

namespace Position

def Before (p q : Position) : Prop :=
  p.line < q.line ∨ p.line = q.line ∧ p.column < q.column

section
variable {p q r : Position}

theorem Before.trans (hpq : p.Before q) (hqr : q.Before r) : p.Before r := by
  unfold Before at *
  omega

theorem Before.ne (h : p.Before q) : p ≠ q := by
  intro hsame
  rw [hsame, Before] at h
  omega

end

theorem before_after (p : Position) (c : Char) : p.Before (p.after c) := by
  rw [after]
  split
  · exact .inl (Nat.lt_succ_self _)
  · exact .inr ⟨rfl, Nat.lt_succ_self _⟩

theorem before_behind (p : Position) {text : List Char} (h : text ≠ []) :
    p.Before (p.behind text) := by
  induction text generalizing p with
  | nil => exact absurd rfl h
  | cons c rest ih =>
      cases rest with
      | nil => exact before_after p c
      | cons d rest => exact (before_after p c).trans (ih (p.after c) (List.cons_ne_nil _ _))

theorem behind_inj {p : Position} {front other behind rest : List Char}
    (htext : front ++ behind = other ++ rest) (hplace : p.behind front = p.behind other) :
    front = other ∧ behind = rest := by
  have hnil : ∀ part text : List Char, p.behind text = p.behind (text ++ part) → part = [] := by
    intro part text hsame
    rw [behind_append] at hsame
    cases part with
    | nil => rfl
    | cons c part => exact absurd hsame (before_behind _ (List.cons_ne_nil c part)).ne
  rcases List.append_eq_append_iff.mp htext with ⟨part, hother, hbehind⟩ | ⟨part, hfront, hrest⟩
  · have hpart := hnil part front (hother ▸ hplace)
    rw [hpart, List.append_nil] at hother
    rw [hpart, List.nil_append] at hbehind
    exact ⟨hother.symm, hbehind⟩
  · have hpart := hnil part other (hfront ▸ hplace.symm)
    rw [hpart, List.append_nil] at hfront
    rw [hpart, List.nil_append] at hrest
    exact ⟨hfront, hrest.symm⟩

theorem behind_of_not_mem (p : Position) {text : List Char} (h : '\n' ∉ text) :
    p.behind text = ⟨p.line, p.column + text.length⟩ := by
  induction text generalizing p with
  | nil => rfl
  | cons c rest ih =>
      rw [List.mem_cons, not_or] at h
      rw [behind_cons, ih _ h.2, after, if_neg (Ne.symm h.1), List.length_cons,
        Nat.add_comm rest.length, ← Nat.add_assoc]

theorem line_behind (p : Position) (text : List Char) :
    (p.behind text).line + 1 = p.line + (lines text).length := by
  induction text generalizing p with
  | nil => rfl
  | cons c rest ih =>
      rw [behind_cons, ih, after]
      show _ = p.line + (splitOn '\n' (c :: rest)).length
      rw [splitOn.eq_2]
      split
      · rw [List.length_cons, lines, Nat.add_right_comm, ← Nat.add_assoc]
      · cases hsplit : splitOn '\n' rest with
        | nil => exact absurd hsplit (splitOn_ne_nil '\n' rest)
        | cons piece pieces => rw [lines, hsplit, List.length_cons, List.length_cons]

end Position

/-!
## What stands at a place
-/

theorem splitOn_append_of_not_mem {separator : Char} {front : List Char} (h : separator ∉ front)
    {behind piece : List Char} {pieces : List (List Char)}
    (hbehind : splitOn separator behind = piece :: pieces) :
    splitOn separator (front ++ behind) = (front ++ piece) :: pieces := by
  induction front with
  | nil => exact hbehind
  | cons c front ih =>
      rw [List.mem_cons, not_or] at h
      rw [List.cons_append, splitOn, if_neg (Ne.symm h.1), ih h.2]
      rfl

theorem exists_last_line (text : List Char) :
    '\n' ∉ text ∨ ∃ front last, text = front ++ '\n' :: last ∧ '\n' ∉ last := by
  induction text with
  | nil => exact .inl (List.not_mem_nil)
  | cons c rest ih =>
      rcases ih with hone | ⟨front, last, hsplit, hlast⟩
      · by_cases hc : c = '\n'
        · exact .inr ⟨[], rest, congrArg (· :: rest) hc, hone⟩
        · left
          rw [List.mem_cons, not_or]
          exact ⟨Ne.symm hc, hone⟩
      · exact .inr ⟨c :: front, last, congrArg _ hsplit, hlast⟩

/-- Holds if a construct stands in a text at a line and a column, both counted from one. -/
def StandsAt (text : List Char) (line column : Nat) (construct : List Char) : Prop :=
  1 ≤ line ∧ 1 ≤ column ∧
    ∃ content, (lines text)[line - 1]? = some content ∧ construct <+: content.drop (column - 1)

/-- What stands behind a part of a text stands at the place to which this part leads. -/
theorem standsAt_behind {front construct : List Char} (behind : List Char)
    (hconstruct : '\n' ∉ construct) :
    StandsAt (front ++ (construct ++ behind)) (Position.start.behind front).line
      (Position.start.behind front).column construct := by
  rcases List.exists_cons_of_ne_nil (splitOn_ne_nil '\n' behind) with ⟨piece, pieces, hpieces⟩
  rcases exists_last_line front with hone | ⟨above, last, hfront, hlast⟩
  · have hline : lines (front ++ (construct ++ behind)) =
        (front ++ (construct ++ piece)) :: pieces :=
      splitOn_append_of_not_mem hone (splitOn_append_of_not_mem hconstruct hpieces)
    rw [Position.behind_of_not_mem _ hone]
    refine ⟨Nat.le_refl 1, Nat.le_add_right 1 _, front ++ (construct ++ piece), ?_, ?_⟩
    · rw [hline]
      rfl
    · show construct <+: List.drop (1 + front.length - 1) _
      rw [Nat.add_sub_cancel_left, List.drop_left]
      exact List.prefix_append _ _
  · have hline : lines (front ++ (construct ++ behind)) =
        lines above ++ (last ++ (construct ++ piece)) :: pieces := by
      rw [hfront, lines, List.append_assoc, List.cons_append, splitOn_append_separator,
        splitOn_append_of_not_mem hlast (splitOn_append_of_not_mem hconstruct hpieces)]
      rfl
    have habove := Position.line_behind Position.start above
    have hstart : Position.start.line = 1 := rfl
    have hplace : Position.start.behind front =
        ⟨(Position.start.behind above).line + 1, 1 + last.length⟩ := by
      rw [hfront, Position.behind_append, Position.behind_cons, Position.after, if_pos rfl,
        Position.behind_of_not_mem _ hlast]
    rw [hplace]
    refine ⟨Nat.le_add_left 1 _, Nat.le_add_right 1 _, last ++ (construct ++ piece), ?_, ?_⟩
    · have hlength : (Position.start.behind above).line + 1 - 1 = (lines above).length := by omega
      rw [hline, hlength, List.getElem?_append_right (Nat.le_refl _), Nat.sub_self]
      rfl
    · show construct <+: List.drop (1 + last.length - 1) _
      rw [Nat.add_sub_cancel_left, List.drop_left]
      exact List.prefix_append _ _

/-!
## Line feeds
-/

/-- Holds of texts of the same length with the same line feeds. -/
structure SameLines (a b : List Char) : Prop where
  length : a.length = b.length
  lineFeed_iff : ∀ i : Nat, a[i]? = some '\n' ↔ b[i]? = some '\n'

theorem sameLines_cons_iff {c d : Char} {a b : List Char} :
    SameLines (c :: a) (d :: b) ↔ (c = '\n' ↔ d = '\n') ∧ SameLines a b := by
  constructor
  · intro h
    have hfirst := h.lineFeed_iff 0
    rw [List.getElem?_cons_zero, List.getElem?_cons_zero, Option.some.injEq,
      Option.some.injEq] at hfirst
    exact ⟨hfirst, Nat.succ.inj h.length, fun i => h.lineFeed_iff (i + 1)⟩
  · rintro ⟨hfirst, hrest⟩
    refine ⟨congrArg Nat.succ hrest.length, ?_⟩
    intro i
    cases i with
    | zero => simpa using hfirst
    | succ i => exact hrest.lineFeed_iff i

theorem SameLines.behind_eq {a b : List Char} (h : SameLines a b) (p : Position) :
    p.behind a = p.behind b := by
  induction a generalizing b p with
  | nil =>
      cases b with
      | nil => rfl
      | cons d b => cases h.length
  | cons c a ih =>
      cases b with
      | nil => cases h.length
      | cons d b =>
          rcases sameLines_cons_iff.mp h with ⟨hfirst, hrest⟩
          have hafter : p.after c = p.after d := by
            simp only [Position.after, hfirst]
          rw [Position.behind_cons, Position.behind_cons, hafter, ih hrest]

end Text
end StencilDesk
