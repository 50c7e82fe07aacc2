/-
# Sums and products of values

Integers, binary numbers and decimals add up to the wider kind; decimals and binary numbers do not
mix. Texts, bytes, lists and tuples are joined by a sum and repeated by a product with an integer.
-/
import MemberRules.Fault

namespace MemberRules
namespace Value

open Number (Binary64 Decimal)

/-- An integer as a binary number; one beyond the range has none. -/
def toBinary64 (i : Int) : Except Fault Binary64 :=
  match Binary64.ofInt i with
  | .infinite _ => .error .overflow
  | x => .ok x

/-- The fault of decimal arithmetic without a result. -/
def decimalFault : Decimal.Failure → Fault
  | .undefined => .invalidOperation
  | .overflow => .decimalOverflow

/-- The result of decimal arithmetic. -/
def decimalResult (r : Except Decimal.Failure Decimal) : Except Fault Value :=
  (r.map decimal).mapError decimalFault

/-- The sum of two numbers. -/
def addNumbers (a b : Value) : Except Fault Value :=
  match a, b with
  | float x, float y => .ok (float (x.add y))
  | float x, b =>
    match b.int? with
    | some j => do return float (x.add (← toBinary64 j))
    | Option.none => .error .wrongType
  | decimal x, decimal y => decimalResult (x.add y)
  | decimal x, b =>
    match b.int? with
    | some j => decimalResult (x.add (.ofInt j))
    | Option.none => .error .wrongType
  | a, b =>
    match a.int? with
    | Option.none => .error .wrongType
    | some i =>
      match b with
      | float y => do return float ((← toBinary64 i).add y)
      | decimal y => decimalResult ((Decimal.ofInt i).add y)
      | b =>
        match b.int? with
        | some j => .ok (int (i + j))
        | Option.none => .error .wrongType

/-- The product of two numbers. -/
def mulNumbers (a b : Value) : Except Fault Value :=
  match a, b with
  | float x, float y => .ok (float (x.mul y))
  | float x, b =>
    match b.int? with
    | some j => do return float (x.mul (← toBinary64 j))
    | Option.none => .error .wrongType
  | decimal x, decimal y => decimalResult (x.mul y)
  | decimal x, b =>
    match b.int? with
    | some j => decimalResult (x.mul (.ofInt j))
    | Option.none => .error .wrongType
  | a, b =>
    match a.int? with
    | Option.none => .error .wrongType
    | some i =>
      match b with
      | float y => do return float ((← toBinary64 i).mul y)
      | decimal y => decimalResult ((Decimal.ofInt i).mul y)
      | b =>
        match b.int? with
        | some j => .ok (int (i * j))
        | Option.none => .error .wrongType

/-- The sum of two values. -/
def add (a b : Value) : Except Fault Value :=
  match a, b with
  | list xs, list ys => .ok (list (xs ++ ys))
  | tuple xs, tuple ys => .ok (tuple (xs ++ ys))
  | bytes xs, bytes ys => .ok (bytes (xs ++ ys))
  | _, _ =>
    match a.text?, b.text? with
    | some s, some t => .ok (text (s ++ t))
    | _, _ => addNumbers a b

/-- The greatest number that a sequence can be repeated by, which is also the greatest length of a
text or of bytes. -/
def mostTimes : Int := 9223372036854775807

/-- A list repeated as often as an integer says; not at all if it is negative. -/
def repeatList (n : Int) (xs : List α) : Except Fault (List α) := do
  Fault.checkLength (n.toNat * xs.length)
  return if xs.isEmpty then [] else (List.replicate n.toNat xs).flatten

/-- Characters or bytes repeated as often as an integer says; their length has an end of its own. -/
def repeatUnits (n : Int) (xs : List α) : Except Fault (List α) :=
  if n * xs.length > mostTimes then .error .overflow else repeatList n xs

/-- A sequence repeated as often as an integer says, `none` if the value is no sequence. -/
def repeated? (v : Value) (n : Int) : Option (Except Fault Value) :=
  let times (r : Except Fault Value) : Except Fault Value :=
    if n.natAbs > mostTimes.natAbs && n != -mostTimes - 1 then .error .overflow else r
  match v with
  | list xs => some (times ((repeatList n xs).map list))
  | tuple xs => some (times ((repeatList n xs).map tuple))
  | bytes xs => some (times ((repeatUnits n xs).map bytes))
  | v => v.text?.map fun s =>
    times ((repeatUnits n s.toList).map fun cs => text (String.ofList cs))

/-- The product of two values. -/
def mul (a b : Value) : Except Fault Value :=
  match b.int?.bind a.repeated?, a.int?.bind b.repeated? with
  | some r, _ => r
  | Option.none, some r => r
  | Option.none, Option.none => mulNumbers a b

end Value
end MemberRules
