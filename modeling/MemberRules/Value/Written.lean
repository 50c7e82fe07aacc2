/-
# Written forms of values

Numbers beyond the whole ones, moments of the calendar and bytes have a written form each, which is
read back to the same value. The kind of a value says how its written form is to be read. Sets and
dictionaries are made of written elements, of which equal ones count once.
-/
import MemberRules.Value.Order
import MemberRules.Value.Printed

namespace MemberRules
namespace Value

/-- The value of a hexadecimal digit. -/
def hexValue (c : Char) : Nat := if c.isDigit then c.toNat - 48 else c.toLower.toNat - 87

/-- Whether a character is a hexadecimal digit. -/
def isHexDigit (c : Char) : Bool := c.isDigit || ('a' ≤ c.toLower && c.toLower ≤ 'f')

/-- Whether a character is a blank among the first 128. -/
def isBlankAscii (c : Char) : Bool := c == ' ' || ('\t' ≤ c && c ≤ '\r')

/-- The hexadecimal digit of a small number. -/
def hexDigit (n : Nat) : Char := Char.ofNat (if n < 10 then 48 + n else 87 + n)

/-- The bytes that pairs of hexadecimal digits stand for; blanks may stand between the pairs. -/
def readHex? : List Char → Option (List UInt8)
  | [] => some []
  | [c] => if isBlankAscii c then some [] else Option.none
  | a :: b :: cs =>
    if isBlankAscii a then readHex? (b :: cs)
    else if isHexDigit a && isHexDigit b then
      (readHex? cs).map ((hexValue a * 16 + hexValue b).toUInt8 :: ·)
    else Option.none

/-- Bytes as pairs of hexadecimal digits. -/
def hexText (bs : List UInt8) : String :=
  String.ofList (bs.flatMap fun b => [hexDigit (b.toNat / 16), hexDigit (b.toNat % 16)])

/-- Reads a whole number with an optional sign, unless it has too many digits. -/
def readInt? (s : String) : Option Int := do
  let cs := (← Number.Literal.ungrouped? (Number.Literal.normal s)).toList
  if (Number.Literal.splitSign cs).2.length > Number.digitLimit then Option.none
  Number.Literal.integer? cs

/-- A reading that failed for a reason. -/
def orFault (f : Fault) : Option Value → Except Fault Value
  | some v => .ok v
  | Option.none => .error f

/-- Reads the written form of a value of a kind, `none` if there is no such kind. -/
def ofWritten? (kind text : String) : Option (Except Fault Value) :=
  match kind with
  | "int" => some (orFault .badValue ((readInt? text).map int))
  | "float" => some (orFault .badValue ((Number.Binary64.ofText? text).map float))
  | "decimal" => some (orFault .invalidOperation ((Number.Decimal.ofText? text).map decimal))
  | "date" => some (orFault .badValue ((Date.ofText? text).map date))
  | "datetime" => some (orFault .badValue ((DateTime.ofText? text).map dateTime))
  | "time" => some (orFault .badValue ((TimeOfDay.ofText? text).map time))
  | "bytes" => some (orFault .badValue ((readHex? text.toList).map bytes))
  | "op" => some (orFault .badValue ((Comparator.ofName? text).map comparator))
  | _ => Option.none

/-- The largest number below which all whole numbers are exact everywhere. -/
def safeLimit : Nat := Number.twoTo 53

/-- The kind and the written form of a value that needs one. -/
def written? : Value → Option (String × String)
  | int i => if i.natAbs > safeLimit then some ("int", Number.intText i) else Option.none
  | float x => some ("float", x.text)
  | decimal x => some ("decimal", x.text)
  | date d => some ("date", d.text)
  | dateTime t => some ("datetime", t.textWith "T")
  | time t => some ("time", t.text)
  | bytes bs => some ("bytes", hexText bs)
  | type t => some ("type", t.name)
  | _ => Option.none

/-- The set of some values. -/
def setOf (sameObject : ObjectId → ObjectId → Bool) (xs : List Value) : Value :=
  set (setOrder (distinct sameObject xs))

/-- Entries with one more; a key that is present keeps its place and takes the new value. -/
def putEntry (sameObject : ObjectId → ObjectId → Bool) (es : List (Value × Value))
    (e : Value × Value) : List (Value × Value) :=
  if es.any fun f => samePart sameObject f.1 e.1 then
    es.map fun f => if samePart sameObject f.1 e.1 then (f.1, e.2) else f
  else es ++ [e]

/-- The dictionary of some entries. -/
def dictOf (sameObject : ObjectId → ObjectId → Bool) (es : List (Value × Value)) : Value :=
  dict (es.foldl (putEntry sameObject) [])

end Value
end MemberRules
