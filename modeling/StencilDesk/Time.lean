import StencilDesk.Text.Numeral

/-!
# Times

Calendar dates, and times of day with their distance from universal time. Times are written as
`2025-09-13T10:00:00.25+02:00`, or with `Z` where there is no distance, and read back; years
outside four digits and distances that are not whole minutes have no such form.
-/

namespace StencilDesk

structure Date where
  year : Int
  month : Nat
  day : Nat
deriving DecidableEq, Repr, Inhabited

namespace Date

def isLeapYear (year : Int) : Bool :=
  year % 4 == 0 && (year % 100 != 0 || year % 400 == 0)

def daysInMonth (year : Int) (month : Nat) : Nat :=
  match month with
  | 2 => if isLeapYear year then 29 else 28
  | 4 | 6 | 9 | 11 => 30
  | _ => 31

def isValid (date : Date) : Bool :=
  1 ≤ date.month && date.month ≤ 12 && 1 ≤ date.day &&
    date.day ≤ daysInMonth date.year date.month

def isMonthEnd (date : Date) : Bool :=
  date.day == daysInMonth date.year date.month

def previous (date : Date) : Date :=
  if 1 < date.day then { date with day := date.day - 1 }
  else if 1 < date.month then
    ⟨date.year, date.month - 1, daysInMonth date.year (date.month - 1)⟩
  else ⟨date.year - 1, 12, 31⟩

def next (date : Date) : Date :=
  if !date.isMonthEnd then { date with day := date.day + 1 }
  else if date.month < 12 then ⟨date.year, date.month + 1, 1⟩
  else ⟨date.year + 1, 1, 1⟩

/-- The date a number of days after the start of the year 1970. -/
def ofDays (days : Nat) : Date :=
  Nat.repeat next days ⟨1970, 1, 1⟩

def text (date : Date) : List Char :=
  let sign := if date.year < 0 then ['-'] else []
  sign ++ Text.padded 4 date.year.natAbs ++ '-' :: Text.padded 2 date.month ++
    '-' :: Text.padded 2 date.day

end Date

/-- A time of a day, with its distance from universal time in seconds. -/
structure Timestamp where
  date : Date
  hour : Nat
  minute : Nat
  second : Nat
  nanosecond : Nat
  offset : Int
deriving DecidableEq, Repr, Inhabited

namespace Timestamp

def ofUnixSeconds (seconds : Nat) : Timestamp :=
  let inDay := seconds % 86400
  { date := Date.ofDays (seconds / 86400), hour := inDay / 3600, minute := inDay / 60 % 60
    second := inDay % 60, nanosecond := 0, offset := 0 }

/-- The digits of a fraction of a second, without needless zeros but at least one. -/
def fractionDigits (nanosecond : Nat) : List Char :=
  let digits := Text.padded 9 nanosecond
  let kept := (digits.reverse.dropWhile (· == '0')).reverse
  if kept.isEmpty then ['0'] else kept

def offsetSign (offset : Int) : Char :=
  if offset < 0 then '-' else '+'

def offsetText (offset : Int) : List Char :=
  if offset = 0 then ['Z']
  else
    let minutes := offset.natAbs / 60
    offsetSign offset :: Text.padded 2 (minutes / 60) ++ ':' :: Text.padded 2 (minutes % 60)

def isWritable (time : Timestamp) : Bool :=
  0 ≤ time.date.year && time.date.year < 10000 && time.offset.natAbs < 86400 &&
    time.offset.natAbs % 60 == 0

def text? (time : Timestamp) : Option String :=
  if !time.isWritable then none
  else
    let fraction := if time.nanosecond = 0 then [] else '.' :: fractionDigits time.nanosecond
    some (String.ofList
      (time.date.text ++ 'T' :: Text.padded 2 time.hour ++ ':' :: Text.padded 2 time.minute ++
        ':' :: Text.padded 2 time.second ++ fraction ++ offsetText time.offset))

def display (time : Timestamp) : String :=
  let offset := time.offset.natAbs
  String.ofList
    (time.date.text ++ ' ' :: Nat.toDigits 10 time.hour ++ ':' :: Text.padded 2 time.minute ++
      ':' :: Text.padded 2 time.second ++ '.' :: fractionDigits time.nanosecond ++
      ' ' :: offsetSign time.offset :: Text.padded 2 (offset / 3600) ++
      ':' :: Text.padded 2 (offset / 60 % 60) ++ ':' :: Text.padded 2 (offset % 60))

def readDate? (text : List Char) : Option (Date × List Char) := do
  let (year, text) ← Text.digits? 4 text
  let text ← Text.exactly? '-' text
  let (month, text) ← Text.digits? 2 text
  let text ← Text.exactly? '-' text
  let (day, text) ← Text.digits? 2 text
  return (⟨year, month, day⟩, text)

/-- Reads the fraction of a second in nanoseconds; absent, it is zero. Digits beyond nine do not
count. -/
def readFraction? : List Char → Option (Nat × List Char)
  | '.' :: rest =>
      let digits := rest.takeWhile Char.isDigit
      if digits.isEmpty then none
      else do
        let (value, _) ← Text.digits? 9 (digits.take 9 ++ List.replicate (9 - digits.length) '0')
        return (value, rest.dropWhile Char.isDigit)
  | rest => some (0, rest)

def readOffset? : List Char → Option Int
  | ['Z'] => some 0
  | ['z'] => some 0
  | sign :: rest => do
      guard (sign = '+' ∨ sign = '-')
      let (hours, rest) ← Text.digits? 2 rest
      let rest ← Text.exactly? ':' rest
      let (minutes, rest) ← Text.digits? 2 rest
      guard (rest.isEmpty ∧ hours ≤ 23 ∧ minutes ≤ 59)
      let seconds : Int := hours * 3600 + minutes * 60
      return if sign = '-' then -seconds else seconds
  | [] => none

/-- Holds of the last second of a month in universal time. -/
def isMonthEndInUtc (time : Timestamp) : Bool :=
  let second : Int := time.hour * 3600 + time.minute * 60 + time.second - time.offset
  let date :=
    if second < 0 then time.date.previous
    else if second < 86400 then time.date else time.date.next
  second % 86400 == 86399 && date.isMonthEnd

/--
Reads a written time; any one byte may stand between date and time of day. A leap second is only
read at the end of a month in universal time, as the last nanosecond before it.
-/
def ofText? (text : String) : Option Timestamp := do
  let (date, rest) ← readDate? text.toList
  let rest ← match rest with
    | separator :: rest => if separator.utf8Size = 1 then some rest else none
    | [] => none
  let (hour, rest) ← Text.digits? 2 rest
  let rest ← Text.exactly? ':' rest
  let (minute, rest) ← Text.digits? 2 rest
  let rest ← Text.exactly? ':' rest
  let (second, rest) ← Text.digits? 2 rest
  let (nanosecond, rest) ← readFraction? rest
  let offset ← readOffset? rest
  guard (date.isValid ∧ hour ≤ 23 ∧ minute ≤ 59 ∧ second ≤ 60)
  if second = 60 then
    let last : Timestamp := ⟨date, hour, minute, 59, 999999999, offset⟩
    guard last.isMonthEndInUtc
    return last
  else return ⟨date, hour, minute, second, nanosecond, offset⟩

end Timestamp

end StencilDesk
