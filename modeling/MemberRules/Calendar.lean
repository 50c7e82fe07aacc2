/-
# Dates and times of day

Calendar values without a time zone, their order and their international written form
(`2024-01-05 15:04:09.500000`, with the fraction only when there is one).
-/
import MemberRules.Number.Rounding

namespace MemberRules

open Number (paddedText natText)

/-- A day of the calendar. -/
structure Date where
  year : Nat
  month : Nat
  day : Nat
  deriving DecidableEq, Repr

/-- A time of day, to the microsecond. -/
structure TimeOfDay where
  hour : Nat
  minute : Nat
  second : Nat
  micro : Nat
  deriving DecidableEq, Repr

/-- A day and a time of day. -/
structure DateTime where
  date : Date
  time : TimeOfDay
  deriving DecidableEq, Repr

namespace Date

/-- The key whose order is the order of days. -/
def orderKey (d : Date) : Nat := (d.year * 13 + d.month) * 32 + d.day

/-- Year, month and day with dashes. -/
def text (d : Date) : String :=
  paddedText 4 d.year ++ "-" ++ paddedText 2 d.month ++ "-" ++ paddedText 2 d.day

end Date

namespace TimeOfDay

/-- The key whose order is the order of times within a day. -/
def orderKey (t : TimeOfDay) : Nat :=
  ((t.hour * 60 + t.minute) * 60 + t.second) * 1000000 + t.micro

/-- Hour, minute and second with colons, and the microseconds if there are any. -/
def text (t : TimeOfDay) : String :=
  paddedText 2 t.hour ++ ":" ++ paddedText 2 t.minute ++ ":" ++ paddedText 2 t.second ++
    (if t.micro == 0 then "" else "." ++ paddedText 6 t.micro)

end TimeOfDay

namespace DateTime

/-- The key whose order is the order of moments. -/
def orderKey (t : DateTime) : Nat := t.date.orderKey * 86400000000 + t.time.orderKey

/-- The day and the time with a separator between them. -/
def textWith (separator : String) (t : DateTime) : String :=
  t.date.text ++ separator ++ t.time.text

end DateTime

/-! ## Reading the written form -/

/-- The numbers between marks, which have the given numbers of digits. -/
def readParts? (mark : Char) (widths : List Nat) (s : String) : Option (List Nat) :=
  let parts := s.splitOn (String.singleton mark)
  if parts.map String.length == widths && parts.all (fun p => p.toList.all Char.isDigit) then
    parts.mapM String.toNat?
  else none

/-- Whether a year has a day more than others. -/
def isLeapYear (y : Nat) : Bool := y % 4 == 0 && (y % 100 != 0 || y % 400 == 0)

/-- The number of days of a month. -/
def monthLength (y m : Nat) : Nat :=
  if m == 2 then (if isLeapYear y then 29 else 28)
  else if [4, 6, 9, 11].contains m then 30
  else 31

/-- Whether the calendar has a day; it begins with the year 1. -/
def Date.isReal (d : Date) : Bool :=
  d.year != 0 && 1 ≤ d.month && d.month ≤ 12 && 1 ≤ d.day && d.day ≤ monthLength d.year d.month

/-- Reads a day. -/
def Date.ofText? (s : String) : Option Date :=
  match readParts? '-' [4, 2, 2] s with
  | some [y, m, d] => if Date.isReal ⟨y, m, d⟩ then some ⟨y, m, d⟩ else none
  | _ => none

/-- Whether a day has a time. -/
def TimeOfDay.isReal (t : TimeOfDay) : Bool := t.hour < 24 && t.minute < 60 && t.second < 60

/-- Reads hours, minutes and seconds, of which the last ones may be missing. -/
def TimeOfDay.ofWhole? (s : String) : Option TimeOfDay :=
  match (readParts? ':' [2, 2, 2] s).or <| (readParts? ':' [2, 2] s).or (readParts? ':' [2] s) with
  | some (h :: rest) => some ⟨h, rest.headD 0, rest.tail.headD 0, 0⟩
  | _ => none

/-- Reads the digits of a fraction of a second, of which six count. -/
def readMicro? (s : String) : Option Nat :=
  if s.toList.all Char.isDigit then
    (s.take 6).toNat?.map fun n => n * Number.tenTo (6 - s.length)
  else none

/-- Reads a time of day; a fraction may follow the seconds. -/
def TimeOfDay.ofText? (s : String) : Option TimeOfDay := do
  let t ← match s.splitOn "." with
    | [whole] => TimeOfDay.ofWhole? whole
    | [whole, fraction] =>
      if whole.length == 8 then
        let t ← TimeOfDay.ofWhole? whole
        some { t with micro := ← readMicro? fraction }
      else none
    | _ => none
  if t.isReal then some t else none

/-- Reads a day and a time with one character between them; the time may be missing. -/
def DateTime.ofText? (s : String) : Option DateTime := do
  let d ← Date.ofText? (s.take 10).toString
  let t ← if s.length == 10 then some ⟨0, 0, 0, 0⟩ else TimeOfDay.ofText? (s.drop 11).toString
  return ⟨d, t⟩

end MemberRules
