import StencilDesk.Time

/-!
# Serials

The names of saved versions: the date as two digits each for year, month and day, and a letter
that counts the saves of that day. The order of serials is that of their texts.
-/

namespace StencilDesk

inductive SerialFault where
  | invalidFormat (text : String)
  | exhausted (date : String)
deriving DecidableEq, Repr

namespace SerialFault

def message : SerialFault → String
  | invalidFormat text =>
      s!"Invalid serial '{text}': expected 6 digits followed by one uppercase letter"
  | exhausted date => s!"No serial letters left for date prefix {date}"

end SerialFault

def isSerialText (text : List Char) : Bool :=
  text.length == 7 && (text.take 6).all Char.isDigit && (text.drop 6).all Char.isUpper

/-- The name of a saved version. -/
structure Serial where
  text : String
  wellFormed : isSerialText text.toList = true
deriving DecidableEq, Repr

namespace Serial

def ofText (text : String) : Except SerialFault Serial :=
  if h : isSerialText text.toList = true then .ok ⟨text, h⟩ else .error (.invalidFormat text)

def date (serial : Serial) : List Char :=
  serial.text.toList.take 6

def letter (serial : Serial) : Char :=
  (serial.text.toList.drop 6).headD 'A'

def datePrefix (date : Date) : List Char :=
  Text.padded 2 (date.year % 100).toNat ++ Text.padded 2 date.month ++ Text.padded 2 date.day

def letterAfter (c : Char) : Char :=
  Char.ofNat (c.toNat + 1)

theorem isUpper_letterAfter {c : Char} (upper : c.isUpper = true) (notLast : c ≠ 'Z') :
    (letterAfter c).isUpper = true := by
  have all : ∀ k : Fin 25, (letterAfter (Char.ofNat (65 + k.val))).isUpper = true := by decide
  have bounds : 65 ≤ c.toNat ∧ c.toNat ≤ 90 := by
    have ⟨low, high⟩ : 'A'.val ≤ c.val ∧ c.val ≤ 'Z'.val := of_decide_eq_true upper
    exact ⟨UInt32.le_iff_toNat_le.mp low, UInt32.le_iff_toNat_le.mp high⟩
  have below : c.toNat ≠ 90 := by
    intro same
    apply notLast
    rw [← Char.ofNat_toNat c, same]
  have := all ⟨c.toNat - 65, by omega⟩
  have number : 65 + (c.toNat - 65) = c.toNat := by omega
  simpa [number] using this

theorem isSerialText_append {date : List Char} {c : Char} (length : date.length = 6)
    (digits : ∀ d ∈ date, d.isDigit = true) (upper : c.isUpper = true) :
    isSerialText (date ++ [c]) = true := by
  simp [isSerialText, length, upper]
  exact digits

@[simp] theorem length_datePrefix (date : Date) : (datePrefix date).length = 6 := by
  simp [datePrefix]

theorem isDigit_of_mem_datePrefix {date : Date} {c : Char} (h : c ∈ datePrefix date) :
    c.isDigit = true := by
  simp only [datePrefix, List.mem_append] at h
  rcases h with (h | h) | h <;> exact Text.isDigit_of_mem_padded h

def ofDate (date : Date) (letter : Char) (upper : letter.isUpper = true) : Serial where
  text := String.ofList (datePrefix date ++ [letter])
  wellFormed := by
    rw [String.toList_ofList]
    exact isSerialText_append (length_datePrefix date)
      (fun _ h => isDigit_of_mem_datePrefix h) upper

theorem isUpper_letter (serial : Serial) : serial.letter.isUpper = true := by
  have wellFormed := serial.wellFormed
  simp only [isSerialText, Bool.and_eq_true, beq_iff_eq, List.all_eq_true] at wellFormed
  unfold letter
  match h : serial.text.toList.drop 6 with
  | [] => rfl
  | c :: rest => exact wellFormed.2 c (h ▸ List.mem_cons_self)

def latestLetter? (serials : List Serial) : Option Serial :=
  serials.foldl
    (fun latest serial =>
      match latest with
      | none => some serial
      | some other => if other.letter < serial.letter then some serial else some other)
    none

/-- The serial for a save on a date: the letter after the latest one of that date, or the first. -/
def next (date : Date) (existing : List Serial) : Except SerialFault Serial :=
  match latestLetter? (existing.filter fun serial => serial.date == datePrefix date) with
  | none => .ok (ofDate date 'A' rfl)
  | some latest =>
      if notLast : latest.letter = 'Z' then .error (.exhausted (String.ofList (datePrefix date)))
      else
        .ok (ofDate date (letterAfter latest.letter)
          (isUpper_letterAfter latest.isUpper_letter notLast))

def le (a b : Serial) : Bool :=
  a.text ≤ b.text

def sorted (serials : List Serial) : List Serial :=
  serials.mergeSort le

end Serial

end StencilDesk
