/-
# Binary floating point numbers

A number with 53 significant bits, an exponent from -1074 and two signed zeros, beside the
infinities and "not a number". `round` takes a quotient to the nearest such number, ties to the
even mantissa; reading, sums and products all go through it.

The written form (`Binary64.text`) has the fewest digits that read back as the same number, and of
those the nearest to it. It is positional from 10^-4 up to 10^16, with `.0` after a whole number,
and otherwise has one digit before the point and an exponent of at least two digits.
-/
import MemberRules.Number.Rounding
import MemberRules.Number.Literal

namespace MemberRules
namespace Number

/-- A binary floating point number: `± mant · 2 ^ exp`, an infinity, or not a number. Finite values
are in lowest form: `mant < 2 ^ 53`, and below `2 ^ 52` only at the least exponent. Of what is not
a number, `mark` tells apart those that were made at different times. -/
inductive Binary64
  | finite (negative : Bool) (mant : Nat) (exp : Int)
  | infinite (negative : Bool)
  | nan (mark : Nat)
  deriving DecidableEq, Repr

namespace Binary64

/-- The exponent of the least positive number. -/
def minExp : Int := -1074

/-- The greatest exponent of a finite number. -/
def maxExp : Int := 971

/-- `num / den` measured in units of `2 ^ exp`, as a quotient. -/
def scaled (num den : Nat) (exp : Int) : Nat × Nat :=
  if exp ≥ 0 then (num, den * twoTo exp.toNat) else (num * twoTo (-exp).toNat, den)

/-- The number nearest to `± num / den`, ties to the even mantissa. -/
def round (negative : Bool) (num den : Nat) : Binary64 :=
  if num == 0 then finite negative 0 minExp
  else
    let e : Int := (Nat.log2 num : Int) - (Nat.log2 den : Int) - 52
    let (n, d) := scaled num den e
    let e := max minExp (if n < twoTo 52 * d then e - 1 else e)
    let (n, d) := scaled num den e
    let m := roundHalfEven n d
    let (m, e) := if m == twoTo 53 then (twoTo 52, e + 1) else (m, e)
    if e > maxExp then infinite negative else finite negative m e

/-- The number nearest to `± coeff · 10 ^ exp`. -/
def ofDecimal (negative : Bool) (coeff : Nat) (exp : Int) : Binary64 :=
  if exp ≥ 0 then round negative (coeff * tenTo exp.toNat) 1
  else round negative coeff (tenTo (-exp).toNat)

/-- The number nearest to an integer, infinite beyond the range. -/
def ofInt (i : Int) : Binary64 := round (decide (i < 0)) i.natAbs 1

/-- Reads a decimal literal or the name of a special value. -/
def ofText? (s : String) : Option Binary64 := do
  let cs := (← Literal.ungrouped? (Literal.normal s)).toList
  let (negative, name) := Literal.splitSign (cs.map Char.toLower)
  match String.ofList name with
  | "nan" => some (nan 0)
  | "inf" | "infinity" => some (infinite negative)
  | _ => (Literal.scan? cs).map fun l => ofDecimal l.negative l.coeff l.exp

/-- A finite number as a quotient of its absolute value. -/
def magnitude (mant : Nat) (exp : Int) : Nat × Nat :=
  if exp ≥ 0 then (mant * twoTo exp.toNat, 1) else (mant, twoTo (-exp).toNat)

/-- The sum. -/
def add : Binary64 → Binary64 → Binary64
  | nan m, _ | _, nan m => nan m
  | infinite a, infinite b => if a == b then infinite a else nan 0
  | infinite a, _ => infinite a
  | _, infinite b => infinite b
  | finite sa ma ea, finite sb mb eb =>
    let e := min ea eb
    let signed (s : Bool) (m : Nat) (x : Int) : Int :=
      let v : Int := (m * twoTo (x - e).toNat : Nat)
      if s then -v else v
    let sum := signed sa ma ea + signed sb mb eb
    let negative := if sum == 0 then sa && sb else decide (sum < 0)
    let (n, d) := magnitude sum.natAbs e
    round negative n d

/-- The product. -/
def mul : Binary64 → Binary64 → Binary64
  | nan m, _ | _, nan m => nan m
  | infinite a, infinite b => infinite (a != b)
  | infinite a, finite b m _ => if m == 0 then nan 0 else infinite (a != b)
  | finite a m _, infinite b => if m == 0 then nan 0 else infinite (a != b)
  | finite sa ma ea, finite sb mb eb =>
    let (n, d) := magnitude (ma * mb) (ea + eb)
    round (sa != sb) n d

/-- Whether a number is a zero of either sign. -/
def isZero : Binary64 → Bool
  | finite _ 0 _ => true
  | _ => false

/-! ## The shortest text -/

/-- Whether `coeff · 10 ^ exp` reads back as `mant · 2 ^ e`. -/
def readsBack (mant : Nat) (e : Int) (coeff : Nat) (exp : Int) : Bool :=
  ofDecimal false coeff exp == finite false mant e

/-- The distance of `coeff · 10 ^ exp` from `num / den`, times `den` and the grid's denominator. -/
def distance (num den coeff : Nat) (exp : Int) : Nat :=
  let (c, k) := if exp ≥ 0 then (coeff * tenTo exp.toNat, 1) else (coeff, tenTo (-exp).toNat)
  ((c * den : Nat) - (num * k : Nat) : Int).natAbs

/-- Of the two neighbours of `num / den` among the multiples of `10 ^ exp`, the nearest one that
reads back. -/
def onGrid? (mant : Nat) (e : Int) (exp : Int) : Option Nat :=
  let (num, den) := magnitude mant e
  let below :=
    if exp ≥ 0 then num / (den * tenTo exp.toNat) else num * tenTo (-exp).toNat / den
  let above := below + 1
  match readsBack mant e below exp, readsBack mant e above exp with
  | true, true =>
    let near := distance num den below exp
    let far := distance num den above exp
    if near < far then some below
    else if far < near then some above
    else some (if below % 2 == 0 then below else above)
  | true, false => some below
  | false, true => some above
  | false, false => none

/-- The shortest digits, tried from one digit on; `top` is the decimal exponent of the leading
digit. Seventeen digits always read back. -/
def shortestFrom (mant : Nat) (e top : Int) : Nat → Nat × Int
  | 0 => (0, 0)
  | tries + 1 =>
    let exp := top - (17 - tries - 1 : Int)
    match onGrid? mant e exp with
    | some c => (c, exp)
    | none => shortestFrom mant e top tries

/-- The decimal exponent of the leading digit of `num / den`. -/
def leadingExponent (num den : Nat) : Int :=
  if num ≥ den then (digitCount (num / den) : Int) - 1
  else -(digitCount (den / num) : Int)

/-- Digits without trailing zeros and the exponent of their last place. -/
def trimZeros (digits : List Char) (exp : Int) : List Char × Int :=
  let zeros := (digits.reverse.takeWhile (· == '0')).length
  (digits.take (digits.length - zeros), exp + zeros)

/-- The fewest digits that read back as `mant · 2 ^ e`, and the exponent of their last place. -/
def shortest (mant : Nat) (e : Int) : List Char × Int :=
  if mant == 0 then (['0'], 0)
  else
    let (num, den) := magnitude mant e
    let (c, exp) := shortestFrom mant e (leadingExponent num den) 17
    trimZeros (Nat.toDigits 10 c) exp

/-- The exponent of a written number: a sign and at least two digits. -/
def exponentText (e : Int) : String :=
  (if e < 0 then "e-" else "e+") ++ paddedText 2 e.natAbs

/-- The written form of a number. -/
def text : Binary64 → String
  | nan _ => "nan"
  | infinite negative => if negative then "-inf" else "inf"
  | finite negative mant e =>
    let (digits, exp) := shortest mant e
    let sign := if negative then "-" else ""
    let lead : Int := exp + digits.length - 1
    if mant == 0 then sign ++ "0.0"
    else if lead ≥ 16 || lead < -4 then
      let tail := digits.drop 1
      sign ++ String.ofList (digits.take 1 ++ (if tail.isEmpty then [] else '.' :: tail))
        ++ exponentText lead
    else if exp ≥ 0 then
      sign ++ String.ofList (digits ++ List.replicate exp.toNat '0') ++ ".0"
    else if lead < 0 then
      sign ++ "0." ++ String.ofList (List.replicate (-lead - 1).toNat '0' ++ digits)
    else
      let n := (lead + 1).toNat
      sign ++ String.ofList (digits.take n ++ '.' :: digits.drop n)

end Binary64
end Number
end MemberRules
