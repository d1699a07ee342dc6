import Mathlib.Data.Option.Basic
import StencilDesk.Time

/-!
# Written times are read back

A reading of a clock that has a written form is read back from it, to the nanosecond and with its
distance from universal time.
-/

namespace StencilDesk
namespace Timestamp

structure Expressible (time : Timestamp) : Prop where
  date_valid : time.date.isValid = true
  hour_le : time.hour ≤ 23
  minute_le : time.minute ≤ 59
  second_le : time.second ≤ 59
  nanosecond_lt : time.nanosecond < 1000000000
  writable : time.isWritable = true

theorem exactly?_self (c : Char) (rest : List Char) :
    Text.exactly? c (c :: rest) = some rest := by
  simp [Text.exactly?]

theorem digits?_padded_of_lt (width : Nat) {n : Nat} (h : n < Nat.pow 10 width) (rest : List Char) :
    Text.digits? width (Text.padded width n ++ rest) = some (n, rest) := by
  rw [Text.digits?_padded, Nat.mod_eq_of_lt h]

/-!
## Dates
-/

theorem month_lt_of_isValid {date : Date} (h : date.isValid = true) :
    date.month < 100 ∧ date.day < 100 := by
  simp only [Date.isValid, Bool.and_eq_true, decide_eq_true_eq] at h
  rcases h with ⟨⟨⟨_, hmonth⟩, _⟩, hday⟩
  have hdays : Date.daysInMonth date.year date.month ≤ 31 := by
    unfold Date.daysInMonth
    repeat' split
    all_goals decide
  omega

theorem readDate?_text {date : Date} (hvalid : date.isValid = true) (hlow : 0 ≤ date.year)
    (hhigh : date.year < 10000) (rest : List Char) :
    readDate? (date.text ++ rest) = some (date, rest) := by
  rcases month_lt_of_isValid hvalid with ⟨hmonth, hday⟩
  have hyear : date.year.natAbs < Nat.pow 10 4 := by
    show date.year.natAbs < 10000
    omega
  have htext : date.text ++ rest =
      Text.padded 4 date.year.natAbs ++ ('-' :: (Text.padded 2 date.month ++
        ('-' :: (Text.padded 2 date.day ++ rest)))) := by
    unfold Date.text
    rw [if_neg (by omega)]
    simp
  unfold readDate?
  rw [htext]
  simp only [digits?_padded_of_lt 4 hyear, exactly?_self, bind, Option.bind,
    digits?_padded_of_lt 2 (n := date.month) hmonth,
    digits?_padded_of_lt 2 (n := date.day) hday]
  rw [Int.natAbs_of_nonneg hlow]
  rfl

/-!
## Fractions of a second
-/

theorem append_replicate_dropWhile (digits : List Char) :
    (digits.reverse.dropWhile (· == '0')).reverse ++
      List.replicate (digits.length - (digits.reverse.dropWhile (· == '0')).reverse.length) '0' =
      digits := by
  have hall := List.all_takeWhile (l := digits.reverse) (p := (· == '0'))
  have hzeros : digits.reverse.takeWhile (· == '0') =
      List.replicate (digits.reverse.takeWhile (· == '0')).length '0' := by
    rw [List.eq_replicate_iff]
    refine ⟨rfl, ?_⟩
    intro c hmem
    simpa using List.all_eq_true.mp hall c hmem
  have hsplit := List.takeWhile_append_dropWhile (l := digits.reverse) (p := (· == '0'))
  have hcount := congrArg List.length hsplit
  rw [List.length_append, List.length_reverse] at hcount
  have hmissing : digits.length - (digits.reverse.dropWhile (· == '0')).reverse.length =
      (digits.reverse.takeWhile (· == '0')).length := by
    rw [List.length_reverse]
    omega
  have hreversed := congrArg List.reverse hsplit
  rw [List.reverse_append, List.reverse_reverse, hzeros, List.reverse_replicate] at hreversed
  rw [hmissing]
  exact hreversed

theorem fractionDigits_append {nanosecond : Nat} (h : nanosecond < 1000000000)
    (hsome : nanosecond ≠ 0) :
    fractionDigits nanosecond ++
      List.replicate (9 - (fractionDigits nanosecond).length) '0' = Text.padded 9 nanosecond := by
  have hkept := append_replicate_dropWhile (Text.padded 9 nanosecond)
  rw [Text.length_padded] at hkept
  unfold fractionDigits
  by_cases hempty :
      ((Text.padded 9 nanosecond).reverse.dropWhile (· == '0')).reverse.isEmpty = true
  · exfalso
    apply hsome
    rw [List.isEmpty_iff] at hempty
    rw [hempty, List.nil_append] at hkept
    have hread := digits?_padded_of_lt 9 (n := nanosecond) h []
    rw [← hkept] at hread
    cases hread
    rfl
  · simp only [if_neg hempty]
    exact hkept

theorem isDigit_of_mem_fractionDigits {nanosecond : Nat} {c : Char}
    (h : c ∈ fractionDigits nanosecond) : c.isDigit = true := by
  unfold fractionDigits at h
  simp only at h
  split at h
  · rw [List.mem_singleton.mp h]
    rfl
  · rw [List.mem_reverse] at h
    have hmem := (List.dropWhile_sublist _).subset h
    rw [List.mem_reverse] at hmem
    exact Text.isDigit_of_mem_padded hmem

theorem fractionDigits_ne_nil (nanosecond : Nat) : fractionDigits nanosecond ≠ [] := by
  unfold fractionDigits
  simp only
  split
  · simp
  · rename_i hsome
    intro hempty
    rw [hempty] at hsome
    exact hsome rfl

/-- What follows a time of day begins with a character that continues no number. -/
def EndsNumber (rest : List Char) : Prop :=
  ∃ c tail, rest = c :: tail ∧ c.isDigit = false ∧ c ≠ '.'

theorem readFraction?_none {rest : List Char} (h : EndsNumber rest) :
    readFraction? rest = some (0, rest) := by
  rcases h with ⟨c, tail, hrest, _, hpoint⟩
  rw [hrest]
  unfold readFraction?
  split
  · rename_i hsame
    cases hsame
    exact absurd rfl hpoint
  · rfl

theorem readFraction?_digits {nanosecond : Nat} (h : nanosecond < 1000000000)
    (hsome : nanosecond ≠ 0) {rest : List Char} (hrest : EndsNumber rest) :
    readFraction? ('.' :: (fractionDigits nanosecond ++ rest)) = some (nanosecond, rest) := by
  rcases hrest with ⟨c, tail, hbehind, hdigit, _⟩
  have hall : ∀ d ∈ fractionDigits nanosecond, d.isDigit = true :=
    fun d => isDigit_of_mem_fractionDigits
  have hstop : List.takeWhile Char.isDigit rest = [] := by
    rw [hbehind, List.takeWhile_cons_of_neg (by simp [hdigit])]
  have hkeep : List.dropWhile Char.isDigit rest = rest := by
    rw [hbehind, List.dropWhile_cons_of_neg (by simp [hdigit])]
  have htake : (fractionDigits nanosecond ++ rest).takeWhile Char.isDigit =
      fractionDigits nanosecond := by
    rw [List.takeWhile_append_of_pos hall, hstop, List.append_nil]
  have hdrop : (fractionDigits nanosecond ++ rest).dropWhile Char.isDigit = rest := by
    rw [List.dropWhile_append_of_pos hall, hkeep]
  have hdigits := fractionDigits_append h hsome
  have hlength := congrArg List.length hdigits
  rw [List.length_append, List.length_replicate, Text.length_padded] at hlength
  have hread := digits?_padded_of_lt 9 (n := nanosecond) h []
  rw [List.append_nil] at hread
  have hnine : (fractionDigits nanosecond).take 9 = fractionDigits nanosecond :=
    List.take_of_length_le (by omega)
  have hnonempty : (fractionDigits nanosecond).isEmpty = false := by
    rw [List.isEmpty_eq_false_iff]
    exact fractionDigits_ne_nil nanosecond
  unfold readFraction?
  simp only [htake, hdrop, hnonempty, hnine, hdigits, hread]
  rfl

/-!
## Distances from universal time
-/

theorem endsNumber_offsetText (offset : Int) : EndsNumber (offsetText offset) := by
  unfold offsetText
  split
  · exact ⟨'Z', [], rfl, rfl, by decide⟩
  · refine ⟨offsetSign offset, _, rfl, ?_, ?_⟩
    · unfold offsetSign
      split <;> rfl
    · unfold offsetSign
      split <;> decide

theorem readOffset?_of_sign {sign : Char} {hours minutes : Nat} (hsign : sign = '+' ∨ sign = '-')
    (hhours : hours ≤ 23) (hminutes : minutes ≤ 59) :
    readOffset? (sign :: Text.padded 2 hours ++ ':' :: Text.padded 2 minutes) =
      some (if sign = '-' then -((hours : Int) * 3600 + minutes * 60)
        else hours * 3600 + minutes * 60) := by
  have hfirst : hours < Nat.pow 10 2 := Nat.lt_of_le_of_lt hhours (by decide)
  have hsecond : minutes < Nat.pow 10 2 := Nat.lt_of_le_of_lt hminutes (by decide)
  have hlast := digits?_padded_of_lt 2 hsecond []
  rw [List.append_nil] at hlast
  rcases hsign with rfl | rfl
  · simp [readOffset?, guard, digits?_padded_of_lt 2 hfirst, hlast, exactly?_self, hhours,
      hminutes]
  · simp [readOffset?, guard, digits?_padded_of_lt 2 hfirst, hlast, exactly?_self, hhours,
      hminutes]

theorem readOffset?_offsetText {offset : Int} (hlow : offset.natAbs < 86400)
    (hminutes : offset.natAbs % 60 = 0) : readOffset? (offsetText offset) = some offset := by
  by_cases hzero : offset = 0
  · rw [hzero]
    rfl
  · have hhour : offset.natAbs / 60 / 60 ≤ 23 := by omega
    have hminute : offset.natAbs / 60 % 60 ≤ 59 := by omega
    unfold offsetText offsetSign
    rw [if_neg hzero]
    by_cases hnegative : offset < 0
    · rw [if_pos hnegative, readOffset?_of_sign (.inr rfl) hhour hminute, if_pos rfl]
      congr 1
      omega
    · rw [if_neg hnegative, readOffset?_of_sign (.inl rfl) hhour hminute, if_neg (by decide)]
      congr 1
      omega

/-!
## Times
-/

theorem isWritable_iff {time : Timestamp} : time.isWritable = true ↔
    0 ≤ time.date.year ∧ time.date.year < 10000 ∧ time.offset.natAbs < 86400 ∧
      time.offset.natAbs % 60 = 0 := by
  simp [isWritable, and_assoc]

theorem exists_text {time : Timestamp} (h : time.isWritable = true) :
    ∃ text, time.text? = some text := by
  unfold text?
  rw [h]
  exact ⟨_, rfl⟩

/-- An expressible time is read back from its written form. -/
theorem ofText?_of_text? {time : Timestamp} (h : time.Expressible) {text : String}
    (htext : time.text? = some text) : ofText? text = some time := by
  rcases isWritable_iff.mp h.writable with ⟨hlow, hhigh, hoffset, hminutes⟩
  have hhour : time.hour < Nat.pow 10 2 := Nat.lt_of_le_of_lt h.hour_le (by decide)
  have hminute : time.minute < Nat.pow 10 2 := Nat.lt_of_le_of_lt h.minute_le (by decide)
  have hsecond : time.second < Nat.pow 10 2 := Nat.lt_of_le_of_lt h.second_le (by decide)
  have hbelow : time.second ≤ 60 := Nat.le_succ_of_le h.second_le
  have hnotLeap : ¬time.second = 60 := by
    have hle := h.second_le
    omega
  have hends := endsNumber_offsetText time.offset
  have hfraction : readFraction?
      ((if time.nanosecond = 0 then [] else '.' :: fractionDigits time.nanosecond) ++
        offsetText time.offset) = some (time.nanosecond, offsetText time.offset) := by
    by_cases hzero : time.nanosecond = 0
    · rw [if_pos hzero, List.nil_append, hzero]
      exact readFraction?_none hends
    · rw [if_neg hzero, List.cons_append]
      exact readFraction?_digits h.nanosecond_lt hzero hends
  have hseparator : ('T' : Char).utf8Size = 1 := rfl
  unfold text? at htext
  rw [h.writable, Bool.not_true, if_neg (by decide), Option.some.injEq] at htext
  unfold ofText?
  rw [← htext, String.toList_ofList]
  simp only [List.append_assoc, List.cons_append, bind, Option.bind, hseparator, if_true,
    readDate?_text h.date_valid hlow hhigh, digits?_padded_of_lt 2 hhour,
    digits?_padded_of_lt 2 hminute, digits?_padded_of_lt 2 hsecond, exactly?_self, hfraction,
    readOffset?_offsetText hoffset hminutes, h.date_valid, h.hour_le, h.minute_le, hbelow,
    if_neg hnotLeap, true_and, guard, pure]

end Timestamp
end StencilDesk
