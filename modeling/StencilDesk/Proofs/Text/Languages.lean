import Mathlib.Computability.Language

/-!
# Languages by their derivatives

The derivative of a language by a symbol is what follows this symbol in its words. Unions, products
and repetitions are derived part by part, so whether a word belongs to a language can be told symbol
by symbol.
-/

namespace StencilDesk

open scoped Computability

namespace Text

section
variable {α : Type} {l m : Language α}

/-- What follows a symbol in the words of a language. -/
def derivative (a : α) (l : Language α) : Language α :=
  {text | a :: text ∈ l}

theorem mem_derivative_iff {a : α} {text : List α} : text ∈ derivative a l ↔ a :: text ∈ l :=
  Iff.rfl

theorem derivative_add (a : α) : derivative a (l + m) = derivative a l + derivative a m := rfl

theorem derivative_one (a : α) : derivative a (1 : Language α) = 0 := by
  ext text
  rw [mem_derivative_iff, Language.mem_one]
  exact iff_of_false (List.cons_ne_nil a text) (Language.notMem_zero text)

theorem derivative_eq_ite {a : α} {fits : Prop} [Decidable fits]
    (h : ∀ text, a :: text ∈ l ↔ fits ∧ text ∈ m) : derivative a l = if fits then m else 0 := by
  ext text
  rw [mem_derivative_iff, h]
  split
  · next hfits => exact and_iff_right hfits
  · next hfits => exact iff_of_false (fun hboth => hfits hboth.1) (Language.notMem_zero text)

theorem nil_mem_mul_iff : [] ∈ l * m ↔ [] ∈ l ∧ [] ∈ m := by
  rw [Language.mem_mul]
  constructor
  · intro h
    rcases h with ⟨front, hfront, behind, hbehind, hnil⟩
    rcases List.append_eq_nil_iff.mp hnil with ⟨rfl, rfl⟩
    exact ⟨hfront, hbehind⟩
  · intro h
    exact ⟨[], h.1, [], h.2, rfl⟩

theorem cons_mem_mul_iff {a : α} {text : List α} :
    a :: text ∈ l * m ↔ text ∈ derivative a l * m ∨ [] ∈ l ∧ a :: text ∈ m := by
  constructor
  · intro h
    rcases Language.mem_mul.mp h with ⟨front, hfront, behind, hbehind, hsplit⟩
    cases front with
    | nil =>
        rw [List.nil_append] at hsplit
        exact .inr ⟨hfront, hsplit ▸ hbehind⟩
    | cons b front =>
        rw [List.cons_append, List.cons.injEq] at hsplit
        rcases hsplit with ⟨rfl, hrest⟩
        exact .inl (Language.mem_mul.mpr ⟨front, hfront, behind, hbehind, hrest⟩)
  · intro h
    rcases h with hlater | ⟨hnil, hbehind⟩
    · rcases Language.mem_mul.mp hlater with ⟨front, hfront, behind, hbehind, rfl⟩
      exact Language.mem_mul.mpr ⟨a :: front, hfront, behind, hbehind, rfl⟩
    · exact Language.mem_mul.mpr ⟨[], hnil, _, hbehind, rfl⟩

theorem derivative_mul (hnil : [] ∉ l) (a : α) : derivative a (l * m) = derivative a l * m := by
  ext text
  rw [mem_derivative_iff, cons_mem_mul_iff]
  exact or_iff_left fun h => hnil h.1

theorem derivative_mul_of_nil_mem (hnil : [] ∈ l) (a : α) :
    derivative a (l * m) = derivative a l * m + derivative a m := by
  ext text
  rw [mem_derivative_iff, cons_mem_mul_iff, Language.mem_add, mem_derivative_iff]
  exact or_congr_right (and_iff_right hnil)

theorem derivative_kstar (a : α) : derivative a l∗ = derivative a l * l∗ := by
  ext text
  rw [mem_derivative_iff, Language.mem_mul]
  constructor
  · intro h
    rcases Language.mem_kstar_iff_exists_nonempty.mp h with ⟨words, htext, hwords⟩
    cases words with
    | nil => cases htext
    | cons first words =>
        rw [List.forall_mem_cons] at hwords
        cases first with
        | nil => exact absurd rfl hwords.1.2
        | cons b first =>
            rw [List.flatten_cons, List.cons_append, List.cons.injEq] at htext
            rcases htext with ⟨rfl, rfl⟩
            have hrest : words.flatten ∈ l∗ :=
              Language.join_mem_kstar fun word hword => (hwords.2 word hword).1
            exact ⟨first, hwords.1.1, words.flatten, hrest, rfl⟩
  · intro h
    rcases h with ⟨first, hfirst, rest, hrest, rfl⟩
    have hword : a :: first ++ rest ∈ l * l∗ := Language.append_mem_mul hfirst hrest
    rw [← Language.one_add_self_mul_kstar_eq_kstar, Language.mem_add]
    exact .inr hword

end

end Text
end StencilDesk
