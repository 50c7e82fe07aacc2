/-
# Decimal literals

The written form of a number: a sign, digits with at most one point, and an exponent. `scan?`
takes such a text apart without deciding which kind of number it becomes.

A number may stand between blanks and have the digits of any script; `normal` takes the blanks away
and makes all digits plain ones. Low lines may group digits.
-/
import MemberRules.Text.Blank
import MemberRules.Text.Digit

namespace MemberRules
namespace Number

/-- A decimal literal `± coeff · 10 ^ exp`. -/
structure Literal where
  negative : Bool
  coeff : Nat
  exp : Int
  deriving DecidableEq, Repr

namespace Literal

/-- A text without blanks around it and with plain digits in the place of those of all scripts. -/
def normal (s : String) : String := String.ofList ((Text.strip s).toList.map Text.plainDigit)

/-- A text without the low lines between its digits, `none` if a low line stands elsewhere. -/
def ungrouped? (s : String) : Option String :=
  let parts := s.splitOn "_"
  let closed := parts.dropLast.all fun p => p.toList.getLast?.any Char.isDigit
  let opened := parts.tail.all fun p => p.toList.head?.any Char.isDigit
  if closed && opened then some (String.join parts) else none

/-- A text without the sign at its head, and whether that is a minus sign. -/
def splitSign (cs : List Char) : Bool × List Char :=
  match cs with
  | '-' :: r => (true, r)
  | '+' :: r => (false, r)
  | r => (false, r)

/-- The number that ASCII digits denote. -/
def digitsValue (cs : List Char) : Nat :=
  cs.foldl (fun n c => n * 10 + (c.toNat - '0'.toNat)) 0

/-- An integer with an optional sign; the digits may not be missing. -/
def integer? (cs : List Char) : Option Int :=
  let (negative, ds) := splitSign cs
  if ds.isEmpty || !ds.all Char.isDigit then none
  else some (if negative then -(digitsValue ds : Int) else digitsValue ds)

/-- Digits, a point, digits and an exponent, after the sign has been read. -/
def unsigned? (negative : Bool) (cs : List Char) : Option Literal := do
  let whole := cs.takeWhile Char.isDigit
  let rest := cs.dropWhile Char.isDigit
  let (fraction, rest) := match rest with
    | '.' :: r => (r.takeWhile Char.isDigit, r.dropWhile Char.isDigit)
    | _ => ([], rest)
  if whole.isEmpty && fraction.isEmpty then none
  let exp ← match rest with
    | [] => some 0
    | e :: r => if e == 'e' || e == 'E' then integer? r else none
  return ⟨negative, digitsValue (whole ++ fraction), exp - fraction.length⟩

/-- The parts of a decimal literal, `none` if the text is not one. -/
def scan? (cs : List Char) : Option Literal :=
  let (negative, r) := splitSign cs
  unsigned? negative r

end Literal
end Number
end MemberRules
