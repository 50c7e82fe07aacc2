/-
# Comparing numbers of different kinds

Integers, decimals and binary floating point numbers are compared by their exact values, whatever
their size: nothing is rounded on the way. "Not a number" is unordered.

An exact value keeps its powers of two and ten apart from its significand, so a number with a large
exponent is never written out. Two magnitudes are told apart by the range of their sizes wherever
the ranges do not meet; only magnitudes of about the same size are brought to a common scale.
-/
import MemberRules.Number.Decimal
import MemberRules.Number.Binary64

namespace MemberRules
namespace Number

/-- A magnitude `num · 2 ^ two · 10 ^ ten`. -/
structure Magnitude where
  num : Nat
  two : Int := 0
  ten : Int := 0
  deriving DecidableEq, Repr

namespace Magnitude

/-- A power of two that a positive magnitude reaches. -/
def leastSize (m : Magnitude) : Int :=
  Nat.log2 m.num + m.two + (if m.ten ≥ 0 then 3 * m.ten else 4 * m.ten)

/-- A power of two that a magnitude stays below. -/
def sizeBound (m : Magnitude) : Int :=
  Nat.log2 m.num + 1 + m.two + (if m.ten ≥ 0 then 4 * m.ten else 3 * m.ten)

/-- A magnitude with exponents that are not negative, written out. -/
def expanded (m : Magnitude) : Nat := m.num * twoTo m.two.toNat * tenTo m.ten.toNat

/-- A magnitude divided by powers of two and ten. -/
def lowered (m : Magnitude) (two ten : Int) : Magnitude :=
  { m with two := m.two - two, ten := m.ten - ten }

/-- The order of two positive magnitudes. -/
def comparePositive (a b : Magnitude) : Ordering :=
  let two := min a.two b.two
  let ten := min a.ten b.ten
  let a := a.lowered two ten
  let b := b.lowered two ten
  if a.leastSize ≥ b.sizeBound then .gt
  else if b.leastSize ≥ a.sizeBound then .lt
  else compare a.expanded b.expanded

/-- The order of two magnitudes. -/
protected def compare (a b : Magnitude) : Ordering :=
  match a.num == 0, b.num == 0 with
  | true, true => .eq
  | true, false => .lt
  | false, true => .gt
  | false, false => comparePositive a b

end Magnitude

/-- An exact value: a magnitude with a sign, an infinity, or none at all. -/
inductive Exact
  | finite (negative : Bool) (m : Magnitude)
  | infinite (negative : Bool)
  | undefined
  deriving DecidableEq, Repr

namespace Exact

def ofInt (i : Int) : Exact := finite (decide (i < 0)) ⟨i.natAbs, 0, 0⟩

def ofDecimal : Decimal → Exact
  | .nan .. => undefined
  | .infinite negative => infinite negative
  | .finite negative coeff exp => finite negative ⟨coeff, 0, exp⟩

def ofBinary64 : Binary64 → Exact
  | .nan _ => undefined
  | .infinite negative => infinite negative
  | .finite negative mant exp => finite negative ⟨mant, exp, 0⟩

/-- The order of two finite values; a zero has no sign. -/
def compareFinite (negative : Bool) (m : Magnitude) (negative' : Bool) (m' : Magnitude) :
    Ordering :=
  match negative && m.num != 0, negative' && m'.num != 0 with
  | true, true => m'.compare m
  | true, false => .lt
  | false, true => .gt
  | false, false => m.compare m'

/-- The order of two values, `none` if one of them is undefined. -/
def compare? : Exact → Exact → Option Ordering
  | undefined, _ | _, undefined => none
  | infinite a, infinite b =>
    some (if a == b then .eq else if a then .lt else .gt)
  | infinite a, finite _ _ => some (if a then .lt else .gt)
  | finite _ _, infinite b => some (if b then .gt else .lt)
  | finite s m, finite s' m' => some (compareFinite s m s' m')

end Exact
end Number
end MemberRules
