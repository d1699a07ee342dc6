/-!
# Numerals of fixed width

Numbers written with a fixed count of decimal digits, padded with zeros on the left, and their
reading, which gives the last digits of the number back.
-/

namespace StencilDesk
namespace Text

def lastDigit (n : Nat) : Char :=
  Char.ofNat (48 + n % 10)

theorem isDigit_lastDigit (n : Nat) : (lastDigit n).isDigit = true := by
  have all : ∀ k : Fin 10, (lastDigit k.val).isDigit = true := by decide
  have := all ⟨n % 10, Nat.mod_lt n (by decide)⟩
  simpa [lastDigit] using this

theorem toNat_lastDigit (n : Nat) : (lastDigit n).toNat = 48 + n % 10 := by
  have all : ∀ k : Fin 10, (lastDigit k.val).toNat = 48 + k.val := by decide
  have := all ⟨n % 10, Nat.mod_lt n (by decide)⟩
  simpa [lastDigit] using this

/-- The last digits of a number, as many as given. -/
def padded : Nat → Nat → List Char
  | 0, _ => []
  | width + 1, n => padded width (n / 10) ++ [lastDigit n]

@[simp] theorem length_padded (width n : Nat) : (padded width n).length = width := by
  induction width generalizing n with
  | zero => rfl
  | succ width ih => simp [padded, ih]

theorem isDigit_of_mem_padded {width n : Nat} {c : Char} (h : c ∈ padded width n) :
    c.isDigit = true := by
  induction width generalizing n with
  | zero => simp [padded] at h
  | succ width ih =>
      rcases List.mem_append.mp h with h | h
      · exact ih h
      · rw [List.mem_singleton.mp h]
        exact isDigit_lastDigit n

def digitsFrom? : Nat → Nat → List Char → Option (Nat × List Char)
  | value, 0, text => some (value, text)
  | _, _ + 1, [] => none
  | value, width + 1, c :: rest =>
      if c.isDigit then digitsFrom? (value * 10 + (c.toNat - 48)) width rest else none

/-- Reads exactly that many digits, and gives the text behind them. -/
def digits? (width : Nat) (text : List Char) : Option (Nat × List Char) :=
  digitsFrom? 0 width text

theorem digitsFrom?_append (value width : Nat) (digits text : List Char)
    (length : digits.length = width) :
    digitsFrom? value width (digits ++ text) =
      (digitsFrom? value width digits).map fun read => (read.1, text) := by
  induction digits generalizing value width with
  | nil =>
      subst length
      rfl
  | cons c rest ih =>
      subst length
      simp only [List.length_cons, List.cons_append, digitsFrom?]
      split
      · exact ih _ _ rfl
      · rfl

theorem digitsFrom?_snoc (value width : Nat) (digits : List Char) (c : Char)
    (length : digits.length = width) :
    digitsFrom? value (width + 1) (digits ++ [c]) =
      (digitsFrom? value width digits).bind fun read =>
        if c.isDigit then some (read.1 * 10 + (c.toNat - 48), []) else none := by
  induction digits generalizing value width with
  | nil =>
      subst length
      simp [digitsFrom?]
  | cons d rest ih =>
      subst length
      simp only [List.length_cons, List.cons_append, digitsFrom?]
      split
      · exact ih _ _ rfl
      · rfl

theorem digitsFrom?_padded (width n : Nat) :
    digitsFrom? 0 width (padded width n) = some (n % Nat.pow 10 width, []) := by
  induction width generalizing n with
  | zero => simp [digitsFrom?, padded, Nat.mod_one]
  | succ width ih =>
      have last : (lastDigit n).toNat - 48 = n % 10 := by
        rw [toNat_lastDigit]
        omega
      have number : n % Nat.pow 10 (width + 1) = n / 10 % Nat.pow 10 width * 10 + n % 10 := by
        have power : Nat.pow 10 (width + 1) = 10 * Nat.pow 10 width := Nat.mul_comm _ _
        rw [power, Nat.mod_mul]
        omega
      rw [padded, digitsFrom?_snoc 0 width _ _ (length_padded _ _), ih, number]
      simp [isDigit_lastDigit, last]

theorem digits?_padded (width n : Nat) (text : List Char) :
    digits? width (padded width n ++ text) = some (n % Nat.pow 10 width, text) := by
  rw [digits?, digitsFrom?_append _ _ _ _ (length_padded _ _), digitsFrom?_padded]
  rfl

def exactly? (c : Char) : List Char → Option (List Char)
  | [] => none
  | d :: rest => if d = c then some rest else none

end Text
end StencilDesk
