import StencilDesk.Proofs.Text.Languages
import StencilDesk.Template.Reference

/-!
# The grammar of references

A reference is an identifier with further identifiers behind marks, at most one group of
parentheses, and groups of brackets. A reading of a reference stands in one of a few states, and
what may still follow in a state is a language, too: its derivative by a character is the language
of the next state. So the expressions that can be read to their end are the words of the grammar.
-/

namespace StencilDesk

open scoped Computability

namespace Template

/-- The identifiers: letters, digits and underscores, and no digit first. -/
def identifiers : Language Char :=
  {text | ∃ c rest, text = c :: rest ∧ (c.isAlpha = true ∨ c = '_') ∧
    ∀ d ∈ rest, d.isAlphanum = true ∨ d = '_'}

def selections : Language Char :=
  {text | ∃ mark name, text = mark :: name ∧ mark ∈ ['.', '?', '!'] ∧ name ∈ identifiers}

/-- The groups of parentheses, without parentheses inside. -/
def argumentGroups : Language Char :=
  {text | ∃ inner, text = '(' :: (inner ++ [')']) ∧ '(' ∉ inner ∧ ')' ∉ inner}

/-- The groups of brackets, not empty and without brackets inside. -/
def indexGroups : Language Char :=
  {text | ∃ inner, text = '[' :: (inner ++ [']']) ∧ inner ≠ [] ∧ '[' ∉ inner ∧ ']' ∉ inner}

def references : Language Char :=
  identifiers * selections∗ * (1 + argumentGroups) * indexGroups∗

def identifierRests : Language Char :=
  {text | ∀ c ∈ text, isIdentifierChar c = true}

def referenceRests : Language Char :=
  selections∗ * ((1 + argumentGroups) * indexGroups∗)

/-- What may follow in a group, which is not ended before it is filled. -/
def groupRests (opening closing : Char) (filled : Bool) : Language Char :=
  {text | ∃ inner, text = inner ++ [closing] ∧ (filled = false → inner ≠ []) ∧
    opening ∉ inner ∧ closing ∉ inner}

open Text (derivative mem_derivative_iff)

theorem isIdentifierStart_iff {c : Char} :
    isIdentifierStart c = true ↔ c.isAlpha = true ∨ c = '_' := by
  rw [isIdentifierStart, Bool.or_eq_true, beq_iff_eq]

theorem isIdentifierChar_iff {c : Char} :
    isIdentifierChar c = true ↔ c.isAlphanum = true ∨ c = '_' := by
  rw [isIdentifierChar, Bool.or_eq_true, beq_iff_eq]

theorem mem_identifierRests_iff {text : List Char} :
    text ∈ identifierRests ↔ ∀ c ∈ text, c.isAlphanum = true ∨ c = '_' := by
  simp only [← isIdentifierChar_iff]
  rfl

theorem derivative_identifiers (c : Char) :
    derivative c identifiers = if isIdentifierStart c then identifierRests else 0 := by
  apply Text.derivative_eq_ite
  intro text
  rw [isIdentifierStart_iff, mem_identifierRests_iff]
  constructor
  · intro h
    rcases h with ⟨_, _, hsplit, hrest⟩
    cases hsplit
    exact hrest
  · intro h
    exact ⟨c, text, rfl, h⟩

theorem derivative_identifierRests (c : Char) :
    derivative c identifierRests = if isIdentifierChar c then identifierRests else 0 :=
  Text.derivative_eq_ite fun _ => List.forall_mem_cons

theorem derivative_selections (c : Char) :
    derivative c selections = if c = '.' ∨ c = '?' ∨ c = '!' then identifiers else 0 := by
  apply Text.derivative_eq_ite
  intro text
  constructor
  · intro h
    rcases h with ⟨_, _, hsplit, hmark, hname⟩
    cases hsplit
    exact ⟨by simpa using hmark, hname⟩
  · intro h
    exact ⟨c, text, rfl, by simpa using h.1, h.2⟩

theorem derivative_argumentGroups (c : Char) :
    derivative c argumentGroups = if c = '(' then groupRests '(' ')' true else 0 := by
  apply Text.derivative_eq_ite
  intro text
  constructor
  · intro h
    rcases h with ⟨inner, hsplit, hopening, hclosing⟩
    rw [List.cons.injEq] at hsplit
    exact ⟨hsplit.1, inner, hsplit.2, by simp, hopening, hclosing⟩
  · intro h
    rcases h with ⟨rfl, inner, rfl, _, hopening, hclosing⟩
    exact ⟨inner, rfl, hopening, hclosing⟩

theorem derivative_indexGroups (c : Char) :
    derivative c indexGroups = if c = '[' then groupRests '[' ']' false else 0 := by
  apply Text.derivative_eq_ite
  intro text
  constructor
  · intro h
    rcases h with ⟨inner, hsplit, hsome, hopening, hclosing⟩
    rw [List.cons.injEq] at hsplit
    exact ⟨hsplit.1, inner, hsplit.2, fun _ => hsome, hopening, hclosing⟩
  · intro h
    rcases h with ⟨rfl, inner, rfl, hsome, hopening, hclosing⟩
    exact ⟨inner, rfl, hsome rfl, hopening, hclosing⟩

theorem derivative_groupRests {opening closing : Char} (filled : Bool) (c : Char) :
    derivative c (groupRests opening closing filled) =
      if c = closing then if filled then 1 else 0
      else if c = opening then 0
      else groupRests opening closing true := by
  have hcons : ∀ text, c :: text ∈ groupRests opening closing filled ↔
      c = closing ∧ filled = true ∧ text = [] ∨
        c ≠ closing ∧ c ≠ opening ∧ text ∈ groupRests opening closing true := by
    intro text
    constructor
    · intro h
      rcases h with ⟨inner, hsplit, hsome, hopening, hclosing⟩
      cases inner with
      | nil =>
          rw [List.nil_append, List.cons.injEq] at hsplit
          refine .inl ⟨hsplit.1, ?_, hsplit.2⟩
          cases filled with
          | true => rfl
          | false => exact absurd rfl (hsome rfl)
      | cons d inner =>
          rw [List.cons_append, List.cons.injEq] at hsplit
          rw [List.mem_cons, not_or] at hopening hclosing
          rw [hsplit.1]
          exact .inr ⟨Ne.symm hclosing.1, Ne.symm hopening.1, inner, hsplit.2, by simp,
            hopening.2, hclosing.2⟩
    · intro h
      rcases h with ⟨rfl, rfl, rfl⟩ | ⟨hclosing, hopening, inner, rfl, _, houtside, hinside⟩
      · exact ⟨[], rfl, by simp, List.not_mem_nil, List.not_mem_nil⟩
      · refine ⟨c :: inner, rfl, fun _ => List.cons_ne_nil c inner, ?_, ?_⟩
        · exact List.not_mem_cons_of_ne_of_not_mem (Ne.symm hopening) houtside
        · exact List.not_mem_cons_of_ne_of_not_mem (Ne.symm hclosing) hinside
  ext text
  rw [mem_derivative_iff, hcons]
  split
  · next hclosing => cases filled <;> simp [hclosing]
  · next hclosing =>
      rw [or_iff_right fun h => hclosing h.1, and_iff_right hclosing]
      split
      · next hopening => exact iff_of_false (fun h => h.1 hopening) (Language.notMem_zero text)
      · next hopening => exact and_iff_right hopening

theorem nil_mem_groups : [] ∈ (1 + argumentGroups) :=
  (Language.mem_add _ _ _).mpr (.inl Language.nil_mem_one)

theorem nil_mem_referenceRests : [] ∈ referenceRests := by
  rw [referenceRests, Text.nil_mem_mul_iff, Text.nil_mem_mul_iff]
  exact ⟨Language.nil_mem_kstar _, nil_mem_groups, Language.nil_mem_kstar _⟩

theorem nil_mem_identifierRests : [] ∈ identifierRests :=
  List.forall_mem_nil _

theorem nil_not_mem_identifiers : [] ∉ identifiers := by
  intro h
  rcases h with ⟨_, _, hsplit, _⟩
  cases hsplit

theorem nil_not_mem_groupRests {opening closing : Char} {filled : Bool} :
    [] ∉ groupRests opening closing filled := by
  intro h
  rcases h with ⟨inner, hsplit, _⟩
  simp at hsplit

theorem derivative_referenceRests (c : Char) :
    derivative c referenceRests = derivative c selections * referenceRests +
      (derivative c argumentGroups * indexGroups∗ + derivative c indexGroups * indexGroups∗) := by
  rw [referenceRests, Text.derivative_mul_of_nil_mem (Language.nil_mem_kstar _),
    Text.derivative_mul_of_nil_mem nil_mem_groups, Text.derivative_kstar, Text.derivative_kstar,
    Text.derivative_add, Text.derivative_one, zero_add, mul_assoc]

theorem derivative_referenceRests_eq_zero {c : Char} (h : isIdentifierChar c = true) :
    derivative c referenceRests = 0 := by
  have hother : ∀ mark : Char, isIdentifierChar mark = false → c ≠ mark := by
    intro mark hfalse hsame
    rw [hsame, hfalse] at h
    cases h
  have hmark : ¬(c = '.' ∨ c = '?' ∨ c = '!') := by
    simp [hother '.' rfl, hother '?' rfl, hother '!' rfl]
  rw [derivative_referenceRests, derivative_selections, derivative_argumentGroups,
    derivative_indexGroups, if_neg hmark, if_neg (hother '(' rfl), if_neg (hother '[' rfl)]
  simp only [zero_mul, add_zero]

namespace ReferenceState

def language : ReferenceState → Language Char
  | start => identifiers * referenceRests
  | identifier => identifierRests * referenceRests
  | parentheses => groupRests '(' ')' true * indexGroups∗
  | brackets filled => groupRests '[' ']' filled * indexGroups∗
  | closed => indexGroups∗

theorem nil_mem_language_iff (state : ReferenceState) :
    [] ∈ state.language ↔ state.accepts = true := by
  have hgroups : [] ∈ indexGroups∗ := Language.nil_mem_kstar _
  cases state <;>
    simp [language, accepts, Text.nil_mem_mul_iff, nil_not_mem_groupRests, nil_not_mem_identifiers,
      nil_mem_identifierRests, nil_mem_referenceRests, hgroups]

theorem derivative_language (state : ReferenceState) (c : Char) :
    derivative c state.language = ((state.step c).map language).getD 0 := by
  cases state with
  | start =>
      rw [language, Text.derivative_mul nil_not_mem_identifiers, derivative_identifiers, step]
      split
      · rfl
      · exact zero_mul _
  | identifier =>
      rw [language, Text.derivative_mul_of_nil_mem nil_mem_identifierRests,
        derivative_identifierRests, step]
      -- At most one of the parts goes on with the character, in whatever order it is tested.
      by_cases hchar : isIdentifierChar c = true
      · simp only [if_pos hchar, derivative_referenceRests_eq_zero hchar, add_zero]
        rfl
      · rw [derivative_referenceRests, derivative_selections, derivative_argumentGroups,
          derivative_indexGroups]
        by_cases hmark : c = '.' ∨ c = '?' ∨ c = '!'
        · have hgroup : c ≠ '(' ∧ c ≠ '[' := by rcases hmark with rfl | rfl | rfl <;> simp
          simp only [if_neg hchar, if_pos hmark, if_neg hgroup.1, if_neg hgroup.2, zero_mul,
            zero_add, add_zero]
          rfl
        · by_cases hopening : c = '('
          · have hbracket : c ≠ '[' := by simp [hopening]
            simp only [if_neg hchar, if_neg hmark, if_pos hopening, if_neg hbracket, zero_mul,
              zero_add, add_zero]
            rfl
          · simp only [if_neg hchar, if_neg hmark, if_neg hopening, zero_mul, zero_add]
            split
            · rfl
            · exact zero_mul _
  | parentheses =>
      rw [language, Text.derivative_mul nil_not_mem_groupRests, derivative_groupRests, step]
      split
      · exact one_mul _
      · split
        · exact zero_mul _
        · rfl
  | brackets filled =>
      rw [language, Text.derivative_mul nil_not_mem_groupRests, derivative_groupRests, step]
      split
      · cases filled
        · exact zero_mul _
        · exact one_mul _
      · split
        · exact zero_mul _
        · rfl
  | closed =>
      rw [language, Text.derivative_kstar, derivative_indexGroups, step]
      split
      · rfl
      · exact zero_mul _

/-- What is read to its end is what may follow. -/
theorem run_iff (state : ReferenceState) (text : List Char) :
    state.run text = true ↔ text ∈ state.language := by
  induction text generalizing state with
  | nil => exact (nil_mem_language_iff state).symm
  | cons c rest ih =>
      rw [← mem_derivative_iff, derivative_language, run]
      cases state.step c with
      | none => exact iff_of_false Bool.false_ne_true (Language.notMem_zero rest)
      | some next => exact ih next

end ReferenceState

/-- A reference is an identifier and what may follow it. -/
theorem references_eq : references = identifiers * referenceRests := by
  rw [references, mul_assoc, mul_assoc]
  rfl

theorem isReference_iff {expression : List Char} :
    isReference expression = true ↔ expression ∈ references := by
  rw [isReference, ReferenceState.run_iff, references_eq]
  rfl

example : "user?name(a, b)[0][key]".toList ∈ references :=
  isReference_iff.mp (by decide)

end Template
end StencilDesk
