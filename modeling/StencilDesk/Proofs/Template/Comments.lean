import StencilDesk.Template.Comment

/-!
# Plain text and comments

A text falls apart into plain text and comments. Masking leaves the plain text as it is and makes
blanks of the comments, so what stands in a comment is seen by no check but the one of the comments
themselves.
-/

namespace StencilDesk

namespace Text

section
variable {α : Type} {pattern : List α}

theorem prefix_append_cases {front behind : List α} (h : pattern <+: front ++ behind) :
    pattern <+: front ∨ ∃ inner, inner ≠ [] ∧ pattern = front ++ inner ∧ inner <+: behind := by
  rcases h with ⟨rest, hrest⟩
  rcases List.append_eq_append_iff.mp hrest with ⟨inner, hfront, _⟩ | ⟨inner, hpattern, hbehind⟩
  · exact .inl ⟨inner, hfront.symm⟩
  · cases inner with
    | nil =>
        rw [List.append_nil] at hpattern
        exact .inl ⟨[], by rw [List.append_nil, hpattern]⟩
    | cons a inner => exact .inr ⟨a :: inner, List.cons_ne_nil _ _, hpattern, rest, hbehind.symm⟩

theorem absent_or_first (hpattern : pattern ≠ []) (text : List α) :
    ¬pattern <:+: text ∨ ∃ gap behind, text = gap ++ (pattern ++ behind) ∧ ¬pattern <:+: gap := by
  have hnil : ¬pattern <:+: [] := by rwa [List.infix_nil]
  induction text with
  | nil => exact .inl hnil
  | cons a rest ih =>
      by_cases hstarts : pattern <+: a :: rest
      · rcases hstarts with ⟨behind, hbehind⟩
        exact .inr ⟨[], behind, hbehind.symm, hnil⟩
      · rcases ih with habsent | ⟨gap, behind, hsplit, hgap⟩
        · left
          rw [List.infix_cons_iff]
          exact not_or.mpr ⟨hstarts, habsent⟩
        · refine .inr ⟨a :: gap, behind, congrArg _ hsplit, ?_⟩
          rw [List.infix_cons_iff]
          refine not_or.mpr ⟨?_, hgap⟩
          intro hearlier
          apply hstarts
          rw [hsplit, ← List.cons_append]
          exact List.prefix_append_of_prefix hearlier

theorem infix_append_cons_of_not_mem {a : α} (ha : a ∉ pattern) {front behind : List α}
    (h : pattern <:+: front ++ a :: behind) : pattern <:+: front ∨ pattern <:+: behind := by
  induction front with
  | nil =>
      rw [List.nil_append, List.infix_cons_iff] at h
      rcases h with hstarts | hbehind
      · cases pattern with
        | nil => exact .inl (List.nil_infix)
        | cons b pattern =>
            rw [List.cons_prefix_cons] at hstarts
            exact absurd (hstarts.1 ▸ List.mem_cons_self) ha
      · exact .inr hbehind
  | cons b front ih =>
      rw [List.cons_append, List.infix_cons_iff] at h
      rw [List.infix_cons_iff]
      rcases h with hstarts | hlater
      · rw [← List.cons_append] at hstarts
        rcases prefix_append_cases hstarts with hfront | ⟨inner, hsome, hpattern, hinner⟩
        · exact .inl (.inl hfront)
        · cases inner with
          | nil => exact absurd rfl hsome
          | cons c inner =>
              rw [List.cons_prefix_cons] at hinner
              rw [hinner.1] at hpattern
              exact absurd (by simp [hpattern]) ha
      · rcases ih hlater with hfront | hbehind
        · exact .inl (.inr hfront)
        · exact .inr hbehind

end

end Text

namespace Template

def commentOpening : List Char :=
  ['<', '#', '-', '-']

def commentClosing : List Char :=
  ['-', '-', '>']

/-- A part of a text: plain text, a comment, or a comment that does not end. -/
inductive Part where
  | plain (text : List Char)
  | comment (body : List Char)
  | unended (body : List Char)
deriving DecidableEq, Repr

namespace Part

def text : Part → List Char
  | plain text => text
  | comment body => commentOpening ++ body ++ commentClosing
  | unended body => commentOpening ++ body

def masked : Part → List Char
  | plain text => text
  | part => part.text.map maskedChar

end Part

/-- Holds of a text and the parts that it falls apart into: a comment starts at the first opening
marker behind the comment before it, and ends with the first closing marker behind its start. -/
inductive Divided : List Char → List Part → Prop where
  | plain {text : List Char} (htext : ¬commentOpening <:+: text) : Divided text [.plain text]
  | unended {gap body : List Char} (hgap : ¬commentOpening <:+: gap)
      (hbody : ¬commentClosing <:+: body) :
      Divided (gap ++ (commentOpening ++ body)) [.plain gap, .unended body]
  | comment {gap body behind : List Char} {parts : List Part} (hgap : ¬commentOpening <:+: gap)
      (hbody : ¬commentClosing <:+: body) (hbehind : Divided behind parts) :
      Divided (gap ++ (commentOpening ++ body ++ commentClosing ++ behind))
        (.plain gap :: .comment body :: parts)

/-!
## Markers
-/

theorem not_prefix_of_opening {c : Char} {gap behind : List Char}
    (hgap : ¬commentOpening <:+: c :: gap) (hbehind : behind = [] ∨ commentOpening <+: behind) :
    ¬commentOpening <+: c :: (gap ++ behind) := by
  intro hstarts
  rw [← List.cons_append] at hstarts
  rcases Text.prefix_append_cases hstarts with hfront | ⟨inner, hsome, hpattern, hinner⟩
  · exact hgap hfront.isInfix
  · rcases hbehind with rfl | ⟨rest, rfl⟩
    · exact hsome (List.prefix_nil.mp hinner)
    · cases inner with
      | nil => exact hsome rfl
      | cons d inner =>
          have hd : d = '<' := (List.cons_prefix_cons.mp hinner).1
          have hmem : '<' ∈ ['#', '-', '-'] := by
            rw [commentOpening, List.cons_append, List.cons.injEq] at hpattern
            simp [hpattern.2, hd]
          simp at hmem

theorem not_prefix_of_closing {c : Char} {body behind : List Char}
    (hbody : ¬commentClosing <:+: c :: body) (hbehind : behind = [] ∨ commentClosing <+: behind) :
    ¬commentClosing <+: c :: (body ++ behind) := by
  intro hstarts
  rw [← List.cons_append] at hstarts
  rcases Text.prefix_append_cases hstarts with hfront | ⟨inner, hsome, hpattern, hinner⟩
  · exact hbody hfront.isInfix
  · rcases hbehind with rfl | ⟨rest, rfl⟩
    · exact hsome (List.prefix_nil.mp hinner)
    · -- What reaches over is the end of the marker, and starts like the marker.
      rcases body with _ | ⟨d, _ | ⟨e, body⟩⟩ <;>
        simp [commentClosing] at hpattern
      · simp [← hpattern.2, commentClosing] at hinner
      · simp [← hpattern.2.2, commentClosing] at hinner
      · exact hsome hpattern.2.2.2.2

/-!
## Masking
-/

theorem maskedChar_not_mem_opening {c : Char} : maskedChar c ∉ commentOpening := by
  rw [maskedChar]
  split
  · simp [commentOpening]
  · simp [commentOpening]

theorem maskFrom_false_cons {c : Char} {rest : List Char} (h : ¬commentOpening <+: c :: rest) :
    maskFrom false (c :: rest) = c :: maskFrom false rest := by
  apply maskFrom.eq_2
  rintro behind rfl rfl
  exact h ⟨behind, rfl⟩

theorem maskFrom_true_cons {c : Char} {rest : List Char} (h : ¬commentClosing <+: c :: rest) :
    maskFrom true (c :: rest) = maskedChar c :: maskFrom true rest := by
  apply maskFrom.eq_4
  rintro behind rfl rfl
  exact h ⟨behind, rfl⟩

theorem maskFrom_false_append {gap behind : List Char} (hgap : ¬commentOpening <:+: gap)
    (hbehind : behind = [] ∨ commentOpening <+: behind) :
    maskFrom false (gap ++ behind) = gap ++ maskFrom false behind := by
  induction gap with
  | nil => rfl
  | cons c gap ih =>
      rw [List.cons_append, maskFrom_false_cons (not_prefix_of_opening hgap hbehind), ih]
      · rfl
      · intro hlater
        exact hgap (List.infix_cons hlater)

theorem maskFrom_true_append {body behind : List Char} (hbody : ¬commentClosing <:+: body)
    (hbehind : behind = [] ∨ commentClosing <+: behind) :
    maskFrom true (body ++ behind) = body.map maskedChar ++ maskFrom true behind := by
  induction body with
  | nil => rfl
  | cons c body ih =>
      rw [List.cons_append, maskFrom_true_cons (not_prefix_of_closing hbody hbehind), ih]
      · rfl
      · intro hlater
        exact hbody (List.infix_cons hlater)

theorem mask_plain {text : List Char} (htext : ¬commentOpening <:+: text) : mask text = text := by
  have hmask := maskFrom_false_append htext (.inl rfl)
  rw [List.append_nil, maskFrom, List.append_nil] at hmask
  exact hmask

theorem mask_comment {gap body : List Char} (hgap : ¬commentOpening <:+: gap)
    (hbody : ¬commentClosing <:+: body) (behind : List Char) :
    mask (gap ++ (commentOpening ++ body ++ commentClosing ++ behind)) =
      gap ++ ((Part.comment body).masked ++ mask behind) := by
  have hopening : ∀ rest, maskFrom false (commentOpening ++ rest) =
      commentOpening.map maskedChar ++ maskFrom true rest := fun _ => rfl
  have hclosing : maskFrom true (commentClosing ++ behind) =
      commentClosing.map maskedChar ++ mask behind := rfl
  simp only [List.append_assoc]
  rw [mask, maskFrom_false_append hgap (.inr ⟨_, rfl⟩), hopening,
    maskFrom_true_append hbody (.inr ⟨_, rfl⟩), hclosing]
  simp [Part.masked, Part.text]

theorem mask_unended {gap body : List Char} (hgap : ¬commentOpening <:+: gap)
    (hbody : ¬commentClosing <:+: body) :
    mask (gap ++ (commentOpening ++ body)) = gap ++ (Part.unended body).masked := by
  have hopening : maskFrom false (commentOpening ++ body) =
      commentOpening.map maskedChar ++ maskFrom true body := rfl
  have hinside := maskFrom_true_append hbody (.inl rfl)
  rw [List.append_nil, maskFrom, List.append_nil] at hinside
  rw [mask, maskFrom_false_append hgap (.inr ⟨_, rfl⟩), hopening, hinside]
  simp [Part.masked, Part.text]

section
variable {source : List Char} {parts : List Part}

theorem Divided.text_eq (h : Divided source parts) : source = parts.flatMap Part.text := by
  induction h with
  | plain _ => simp [Part.text]
  | unended _ _ => simp [Part.text]
  | comment _ _ _ ih => simp [Part.text, ← ih]

/-- The mask of a text is that of its parts. -/
theorem Divided.mask_eq (h : Divided source parts) : mask source = parts.flatMap Part.masked := by
  induction h with
  | plain htext => simp [mask_plain htext, Part.masked]
  | unended hgap hbody => simp [mask_unended hgap hbody, Part.masked]
  | comment hgap hbody _ ih =>
      rw [mask_comment hgap hbody, ih, List.flatMap_cons, List.flatMap_cons]
      rfl

end

/-- Every text falls apart into plain text and comments. -/
theorem exists_divided (source : List Char) : ∃ parts, Divided source parts := by
  -- On the length, since a comment is left behind as a whole.
  induction hlength : source.length using Nat.strongRecOn generalizing source with
  | ind size ih =>
      rcases Text.absent_or_first (List.cons_ne_nil '<' ['#', '-', '-']) source with
        habsent | ⟨gap, rest, hsource, hgap⟩
      · exact ⟨_, .plain habsent⟩
      · rcases Text.absent_or_first (List.cons_ne_nil '-' ['-', '>']) rest with
          hunended | ⟨body, behind, hrest, hbody⟩
        · rw [hsource]
          exact ⟨_, .unended hgap hunended⟩
        · have hshorter : behind.length < size := by
            rw [← hlength, hsource, hrest]
            simp
            omega
          rcases ih behind.length hshorter behind rfl with ⟨parts, hparts⟩
          have hsplit : source =
              gap ++ (commentOpening ++ body ++ commentClosing ++ behind) := by
            rw [hsource, hrest]
            simp [commentOpening, commentClosing]
          rw [hsplit]
          exact ⟨_, .comment hgap hbody hparts⟩

end Template
end StencilDesk
