/-
# Numbers and dates under a culture

`formatValue` gives the text of a message argument. Numbers keep their precision and are not
grouped: positional digits without trailing zeros in the fraction, with the decimal mark of the
culture. They are rounded to 28 digits first and then taken to at least three places; a number that
would need more than 28 digits for that has no text. Dates and times follow the short pattern of the culture.
Without a culture, and for all other values, the text is the plain one.
-/
import MemberRules.Culture.Basic
import MemberRules.Value.Arithmetic
import MemberRules.Value.Printed

namespace MemberRules
namespace Culture

open Number (natText paddedText Decimal)

/-! ## 1. Conventions -/

/-- A piece of a date or time pattern. -/
inductive Piece
  | day (padded : Bool)
  | month (padded : Bool)
  | year
  /-- The last two digits of the year. -/
  | shortYear
  | hour (padded : Bool)
  /-- The hour of a clock with twelve hours. -/
  | clockHour
  | minute
  /-- Before or after noon. -/
  | half
  | mark (s : String)
  deriving DecidableEq, Repr

/-- How a culture writes numbers and moments. -/
structure Conventions where
  decimalMark : String
  date : List Piece
  time : List Piece
  /-- What stands between a date and a time. -/
  joint : String
  deriving DecidableEq, Repr

/-- Hour and minute with a colon. -/
def clock (padded : Bool) : List Piece := [.hour padded, .mark ":", .minute]

/-- Hour and minute of a clock with twelve hours. -/
def halfClock : List Piece := [.clockHour, .mark ":", .minute, .mark "\u202f", .half]

/-- Day, month and year with slashes. -/
def slashedDay : List Piece := [.day true, .mark "/", .month true, .mark "/", .year]

/-- Year, month and day with dashes. -/
def dashedDay : List Piece := [.year, .mark "-", .month true, .mark "-", .day true]

/-- Day, month and short year with points. -/
def pointedDay : List Piece := [.day true, .mark ".", .month true, .mark ".", .shortYear]

/-- The conventions of a culture, by its name. -/
def conventionsOf (name : String) : Conventions :=
  match name with
  | "en_GB" | "en_001" => ⟨".", slashedDay, clock true, ", "⟩
  | "es" | "es_ES" =>
    ⟨",", [.day false, .mark "/", .month false, .mark "/", .shortYear], clock false, ", "⟩
  | "es_419" =>
    ⟨".", [.day false, .mark "/", .month false, .mark "/", .shortYear], clock true, ", "⟩
  | "fr" | "fr_FR" => ⟨",", slashedDay, clock true, " "⟩
  | "fr_CA" => ⟨",", dashedDay, [.hour true, .mark " h ", .minute], " "⟩
  | "de" | "de_DE" => ⟨",", pointedDay, clock true, ", "⟩
  | "de_CH" => ⟨".", pointedDay, clock true, ", "⟩
  | "sv" | "sv_SE" => ⟨",", dashedDay, clock true, " "⟩
  | "ja" | "ja_JP" =>
    ⟨".", [.year, .mark "/", .month true, .mark "/", .day true], clock false, " "⟩
  | "pt" | "pt_BR" => ⟨",", slashedDay, clock true, " "⟩
  | "zh" | "zh_Hans" | "zh_Hans_CN" | "zh_Hant" | "zh_Hant_TW" =>
    ⟨".", [.year, .mark "/", .month false, .mark "/", .day false], clock true, " "⟩
  | _ =>
    ⟨".", [.month false, .mark "/", .day false, .mark "/", .shortYear], halfClock, ", "⟩

/-- The conventions of a culture. -/
def conventions (c : Culture) : Conventions := conventionsOf c.baseName

/-! ## 2. Moments -/

/-- A number of at least two digits if `padded`. -/
def fieldText (padded : Bool) (n : Nat) : String := if padded then paddedText 2 n else natText n

/-- The text of a piece for a day and a time. -/
def Piece.text (d : Date) (t : TimeOfDay) : Piece → String
  | day padded => fieldText padded d.day
  | month padded => fieldText padded d.month
  | year => natText d.year
  | shortYear => paddedText 2 (d.year % 100)
  | hour padded => fieldText padded t.hour
  | clockHour => natText (if t.hour % 12 == 0 then 12 else t.hour % 12)
  | minute => paddedText 2 t.minute
  | half => if t.hour < 12 then "AM" else "PM"
  | mark s => s

/-- A pattern filled in with a day and a time. -/
def patternText (pieces : List Piece) (d : Date) (t : TimeOfDay) : String :=
  String.join (pieces.map (Piece.text d t))

/-- The day that stands for a time without one. -/
def noDate : Date := ⟨1970, 1, 1⟩

/-- The time that stands for a day without one. -/
def noTime : TimeOfDay := ⟨0, 0, 0, 0⟩

/-! ## 3. Numbers -/

/-- The least number of decimal places that a number is taken to. -/
def leastPlaces : Nat := 3

/-- The greatest number of decimal places that can be written. -/
def writablePlaces : Nat := Number.digitLimit

/-- The decimal places that a number is taken to: its own, but at least three. -/
def placesOf (exp : Int) : Nat := max leastPlaces (-exp).toNat

/-- The digits that a coefficient has at its decimal places. -/
def digitsNeeded (coeff : Nat) (exp : Int) : Int := Number.digitCount coeff + exp + placesOf exp

/-- The coefficient of a number at its decimal places. -/
def scaledCoeff (coeff : Nat) (exp : Int) : Nat := coeff * Number.tenTo (exp + placesOf exp).toNat

/-- A fraction of digits after the mark, without trailing zeros; nothing for an empty one. -/
def fractionText (mark : String) (digits : List Char) : String :=
  let kept := (digits.reverse.dropWhile (· == '0')).reverse
  if kept.isEmpty then "" else mark ++ String.ofList kept

/-- The digits of a coefficient with the decimal mark before the last `places` of them. -/
def positional (mark : String) (coeff places : Nat) : String :=
  natText (coeff / Number.tenTo places) ++
    fractionText mark (paddedText places (coeff % Number.tenTo places)).toList

/-- The text of a coefficient without trailing zeros and its exponent. -/
def plainText (mark : String) (coeff : Nat) (exp : Int) : Except Fault String :=
  if coeff != 0 && digitsNeeded coeff exp > Decimal.precision then .error .invalidOperation
  else if placesOf exp > writablePlaces then .error .badValue
  else .ok (positional mark (scaledCoeff coeff exp) (placesOf exp))

/-- The text of a decimal under the conventions of a culture. -/
def decimalText (k : Conventions) (d : Decimal) : Except Fault String :=
  match d with
  | .nan .. => .ok d.text
  | .infinite negative => .ok (Decimal.signText negative ++ "∞")
  | .finite negative coeff exp =>
    match Decimal.round negative coeff exp with
    | .error e => .error (Value.decimalFault e)
    | .ok (.finite _ c e) =>
      let (c, e) := Decimal.stripZeros (Number.digitCount c) c e
      (plainText k.decimalMark c e).map (Decimal.signText negative ++ ·)
    | .ok d => .ok d.text

/-- A number as a decimal: the one that its plain text denotes. -/
def asDecimal? : Value → Option Decimal
  | .int i => some (Decimal.ofInt i)
  | .decimal d => some d
  | .float (.nan mark) => some (.nan false 0 mark)
  | .float (.infinite negative) => some (.infinite negative)
  | .float (.finite negative mant exp) =>
    let (digits, e) := Number.Binary64.shortest mant exp
    some (.finite negative (Number.Literal.digitsValue digits) e)
  | _ => none

/-! ## 4. Values -/

/-- The text of a message argument under a culture. -/
def formatUnder (c : Culture) (v : Value) : Except Fault String :=
  let k := c.conventions
  match asDecimal? v with
  | some d => if v.isPrintable then decimalText k d else .error .badValue
  | none =>
    match v with
    | .dateTime t =>
      .ok (patternText k.date t.date t.time ++ k.joint ++ patternText k.time t.date t.time)
    | .date d => .ok (patternText k.date d noTime)
    | .time t => .ok (patternText k.time noDate t)
    | v => v.printed?

/-- The text of a message argument: the member of an enumeration stands for its value and a type
for its name, truth values and texts do not depend on the culture. -/
def formatValue (culture : Option Culture) (v : Value) : Except Fault String :=
  match v with
  | .enumMember _ _ inner => inner.printed?
  | .type t => .ok t.name
  | v =>
    match culture with
    | none => v.printed?
    | some c => formatUnder c v

end Culture
end MemberRules
