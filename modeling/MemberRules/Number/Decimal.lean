/-
# Decimal numbers

A decimal keeps its coefficient and exponent as written: `1.50` and `1.5` are equal numbers with
different texts. Sums and products are exact up to 28 significant digits and rounded half to even
beyond. They have exponents from -999999 to 999999: a greater result is an overflow, and a smaller
one keeps only the digits down to the least place there is.

The written form (`Decimal.text`) is positional while the exponent is not positive and fewer than
six zeros follow the point before the first digit; otherwise it has one digit before the point and
an exponent with its sign.
-/
import MemberRules.Number.Rounding
import MemberRules.Number.Literal

namespace MemberRules
namespace Number

/-- A decimal number: `± coeff · 10 ^ exp`, an infinity, or not a number. What is not a number may
carry a sign and digits; `mark` tells apart those that were made at different times. -/
inductive Decimal
  | finite (negative : Bool) (coeff : Nat) (exp : Int)
  | infinite (negative : Bool)
  | nan (negative : Bool) (payload mark : Nat)
  deriving DecidableEq, Repr

namespace Decimal

/-- The significant digits that arithmetic keeps. -/
def precision : Nat := 28

/-- The greatest exponent of the leading digit of a result. -/
def maxLead : Int := 999999

/-- The least exponent of the leading digit of a result with all its digits. -/
def minLead : Int := -999999

/-- The exponent of the least place of a result. -/
def leastPlace : Int := minLead - (precision - 1 : Nat)

/-- An integer as a decimal. -/
def ofInt (i : Int) : Decimal := finite (decide (i < 0)) i.natAbs 0

/-- The greatest exponent of the leading digit of a written decimal. -/
def writtenBound : Int := 999999999999999999

/-- The exponent of the least place of a written decimal. -/
def writtenPlace : Int := -1999999999999999997

/-- Whether a decimal has a written form: its exponents stay within their bounds. -/
def isWritable (coeff : Nat) (exp : Int) : Bool :=
  exp ≥ writtenPlace && exp + digitCount coeff - 1 ≤ writtenBound

/-- Reads the name of a special value in small letters; digits may follow that of what is not a
number. -/
def ofName? (negative : Bool) (cs : List Char) : Option Decimal :=
  match cs with
  | ['i', 'n', 'f'] | ['i', 'n', 'f', 'i', 'n', 'i', 't', 'y'] => some (infinite negative)
  | 'n' :: 'a' :: 'n' :: ds =>
    if ds.all Char.isDigit then some (nan negative (Literal.digitsValue ds) 0) else none
  | _ => none

/-- Reads a decimal literal or the name of a special value. Low lines count for nothing. -/
def ofText? (s : String) : Option Decimal :=
  let cs := (Literal.normal s).toList.filter (· != '_')
  match Literal.scan? cs with
  | some l => if isWritable l.coeff l.exp then some (finite l.negative l.coeff l.exp) else none
  | none =>
    let (negative, name) := Literal.splitSign (cs.map Char.toLower)
    ofName? negative name

/-- A sign as text: nothing for a number that is not negative. -/
def signText (negative : Bool) : String := if negative then "-" else ""

/-- Digits with a point after the first `point` of them; zeros fill up on either side. -/
def placePoint (digits : List Char) (point : Int) : String :=
  if point ≤ 0 then
    String.ofList ('0' :: '.' :: (List.replicate (-point).toNat '0' ++ digits))
  else if point.toNat ≥ digits.length then
    String.ofList (digits ++ List.replicate (point.toNat - digits.length) '0')
  else
    String.ofList (digits.take point.toNat ++ '.' :: digits.drop point.toNat)

/-- The written form of a decimal. -/
def text : Decimal → String
  | nan negative payload _ =>
    signText negative ++ "NaN" ++ (if payload == 0 then "" else natText payload)
  | infinite negative => signText negative ++ "Infinity"
  | finite negative coeff exp =>
    let digits := Nat.toDigits 10 coeff
    let left : Int := exp + digits.length
    if exp ≤ 0 && left > -6 then signText negative ++ placePoint digits left
    else
      let e := left - 1
      let mark := if e < 0 then "E-" else "E+"
      signText negative ++ placePoint digits 1 ++ mark ++ natText e.natAbs

/-! ## Arithmetic -/

/-- Why arithmetic has no result. -/
inductive Failure
  /-- No number is the result. -/
  | undefined
  /-- The result is greater than every number. -/
  | overflow
  deriving DecidableEq, Repr

/-- Keeps at most `precision` digits of a coefficient. -/
def keepDigits (coeff : Nat) (exp : Int) : Nat × Int :=
  let excess := digitCount coeff - precision
  if excess == 0 then (coeff, exp)
  else
    let c := roundHalfEven coeff (tenTo excess)
    if digitCount c > precision then (c / 10, exp + excess + 1) else (c, exp + excess)

/-- Keeps the digits of a coefficient down to the least place. -/
def keepPlaces (coeff : Nat) (exp : Int) : Nat × Int :=
  let below := (leastPlace - exp).toNat
  if below == 0 then (coeff, exp)
  else if below > digitCount coeff then (0, leastPlace)
  else (roundHalfEven coeff (tenTo below), leastPlace)

/-- An exact result as a decimal: rounded to the precision and to the places that there are. -/
def round (negative : Bool) (coeff : Nat) (exp : Int) : Except Failure Decimal :=
  if coeff == 0 then .ok (finite negative 0 (max leastPlace (min maxLead exp)))
  else
    let (c, e) :=
      if exp + digitCount coeff - 1 < minLead then keepPlaces coeff exp else keepDigits coeff exp
    if e + digitCount c - 1 > maxLead then .error .overflow else .ok (finite negative c e)

/-- A signed coefficient at a lower exponent. -/
def signedAt (place : Int) (negative : Bool) (coeff : Nat) (exp : Int) : Int :=
  let m : Int := (coeff * tenTo (exp - place).toNat : Nat)
  if negative then -m else m

/-- The exponent below which digits no longer count beside a coefficient that is not zero. -/
def cutOff (coeff : Nat) (exp : Int) : Int :=
  exp - 1 + min 0 ((digitCount coeff : Int) - precision - 1)

/-- Stands for a number that is too small to count beside another one: any number of its sign
below the cut-off is rounded away in the same manner. -/
def trace (place : Int) (coeff : Nat) (exp : Int) : Nat × Int :=
  if exp + digitCount coeff - 1 < place then (min 1 coeff, place) else (coeff, exp)

/-- The sum of two finite decimals, the second one with the smaller exponent. -/
def addFinite (sa : Bool) (ca : Nat) (ea : Int) (sb : Bool) (cb : Nat) (eb : Int) :
    Except Failure Decimal :=
  if ca == 0 then
    if cb == 0 then round (sa && sb) 0 eb else round sb cb eb
  else
    let (cb, eb) := if ea == eb then (cb, eb) else trace (cutOff ca ea) cb eb
    let sum := signedAt eb sa ca ea + signedAt eb sb cb eb
    let negative := if sum == 0 then sa && sb else decide (sum < 0)
    round negative sum.natAbs eb

/-- The sum; none for infinities of opposite sign. -/
def add : Decimal → Decimal → Except Failure Decimal
  | nan s p m, _ | _, nan s p m => .ok (nan s p m)
  | infinite a, infinite b => if a == b then .ok (infinite a) else .error .undefined
  | infinite a, _ => .ok (infinite a)
  | _, infinite b => .ok (infinite b)
  | finite sa ca ea, finite sb cb eb =>
    if eb ≤ ea then addFinite sa ca ea sb cb eb else addFinite sb cb eb sa ca ea

/-- The product; none for an infinity times zero. -/
def mul : Decimal → Decimal → Except Failure Decimal
  | nan s p m, _ | _, nan s p m => .ok (nan s p m)
  | infinite a, infinite b => .ok (infinite (a != b))
  | infinite a, finite b c _ => if c == 0 then .error .undefined else .ok (infinite (a != b))
  | finite a c _, infinite b => if c == 0 then .error .undefined else .ok (infinite (a != b))
  | finite a ca ea, finite b cb eb => round (a != b) (ca * cb) (ea + eb)

/-- A coefficient without trailing zeros, and its exponent; `fuel` bounds the zeros. -/
def stripZeros : Nat → Nat → Int → Nat × Int
  | 0, coeff, exp => (coeff, exp)
  | fuel + 1, coeff, exp =>
    if coeff == 0 then (0, 0)
    else if coeff % 10 == 0 then stripZeros fuel (coeff / 10) (exp + 1) else (coeff, exp)

/-- Whether a decimal is zero. -/
def isZero : Decimal → Bool
  | finite _ 0 _ => true
  | _ => false

end Decimal
end Number
end MemberRules
