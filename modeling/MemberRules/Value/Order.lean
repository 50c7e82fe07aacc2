/-
# Equality and order of values

Equality never fails: values of kinds that have nothing in common are different. Numbers of all
kinds are equal when their exact values are; lists and tuples when their elements are, in order;
sets and dictionaries whatever the order of their elements.

Not a number differs from every value, itself included; but as a part of a collection a value that
is the very same one counts as equal, and so does what is not a number there.

The order comparisons fail with `wrongType` between kinds that have no order in common. Lists and
tuples are ordered by the first place where they differ, sets by inclusion.
-/
import MemberRules.Fault

namespace MemberRules
namespace Value

/-! ## 1. Equality -/

/-- Whether two values without parts are equal. -/
def sameAtom (sameObject : ObjectId → ObjectId → Bool) (a b : Value) : Bool :=
  match a, b with
  | none, none => true
  | bytes x, bytes y => x == y
  | date x, date y => x == y
  | dateTime x, dateTime y => x == y
  | time x, time y => x == y
  | type x, type y => x == y
  | object x, object y => sameObject x y
  | method (object x) n, method (object y) m => x == y && n == m
  | _, _ =>
    match a.text?, b.text? with
    | some x, some y => x == y
    | _, _ =>
      match a.number?, b.number? with
      | some x, some y => x.compare? y == some .eq
      | _, _ => false

/-- Whether two values are not a number and were made as one. -/
def sameUndefined : Value → Value → Bool
  | float (.nan m), float (.nan n) => m == n
  | decimal (.nan _ _ m), decimal (.nan _ _ n) => m == n
  | _, _ => false

mutual

/-- Whether two values are equal; `sameObject` compares objects. -/
def same (sameObject : ObjectId → ObjectId → Bool) (a b : Value) : Bool :=
  match a with
  | list xs => match b with
    | list ys => sameAll sameObject xs ys
    | _ => false
  | tuple xs => match b with
    | tuple ys => sameAll sameObject xs ys
    | _ => false
  | set xs => match b with
    | set ys => xs.length == ys.length && within sameObject xs ys
    | _ => false
  | dict es => match b with
    | dict fs => es.length == fs.length && entriesWithin sameObject es fs
    | _ => false
  | enumMember t n v => match b with
    | enumMember t' n' v' => t == t' && n == n' && same sameObject v v'
    | _ => false
  | a => sameAtom sameObject a b
termination_by structural a

/-- Whether two sequences are equal element by element. -/
def sameAll (sameObject : ObjectId → ObjectId → Bool) (xs ys : List Value) : Bool :=
  match xs with
  | [] => ys.isEmpty
  | x :: xs => match ys with
    | [] => false
    | y :: ys => (sameUndefined x y || same sameObject x y) && sameAll sameObject xs ys
termination_by structural xs

/-- Whether every value of the first list equals one of the second. -/
def within (sameObject : ObjectId → ObjectId → Bool) (xs ys : List Value) : Bool :=
  match xs with
  | [] => true
  | x :: xs =>
    ys.any (fun y => sameUndefined x y || same sameObject x y) && within sameObject xs ys
termination_by structural xs

/-- Whether every entry of the first list has an equal one in the second. -/
def entriesWithin (sameObject : ObjectId → ObjectId → Bool) (es fs : List (Value × Value)) : Bool :=
  match es with
  | [] => true
  | (k, v) :: es =>
    fs.any (fun f =>
        (sameUndefined k f.1 || same sameObject k f.1) &&
          (sameUndefined v f.2 || same sameObject v f.2)) &&
      entriesWithin sameObject es fs
termination_by structural es

end

/-- Whether two parts of collections are equal. -/
def samePart (sameObject : ObjectId → ObjectId → Bool) (a b : Value) : Bool :=
  sameUndefined a b || same sameObject a b

/-- The values without repetitions, the first of equal ones kept. -/
def distinct (sameObject : ObjectId → ObjectId → Bool) (xs : List Value) : List Value :=
  xs.foldl (fun seen x => if seen.any (fun y => samePart sameObject y x) then seen else seen ++ [x]) []

/-! ## 2. Order -/

end Value

/-- Whether a comparison holds for two values in the given order. -/
def Comparator.accepts : Comparator → Ordering → Bool
  | equal, o => o == .eq
  | notEqual, o => o != .eq
  | greater, o => o == .gt
  | greaterOrEqual, o => o != .lt
  | less, o => o == .lt
  | lessOrEqual, o => o != .gt

/-- Whether a comparison holds for two sets, by inclusion in the one and the other direction. -/
def Comparator.acceptsInclusion (c : Comparator) (within contains : Bool) : Bool :=
  match c with
  | equal => within && contains
  | notEqual => !(within && contains)
  | greater => contains && !within
  | greaterOrEqual => contains
  | less => within && !contains
  | lessOrEqual => within

namespace Value

/-- Whether a value is a decimal. -/
def isDecimal : Value → Bool
  | decimal _ => true
  | _ => false

/-- An order comparison of two numbers. Two binary numbers of which one is undefined have no order;
with a decimal among them the comparison is an invalid operation. -/
def orderedNumbers (c : Comparator) (a b : Value) (x y : Number.Exact) : Except Fault Bool :=
  match x.compare? y with
  | some o => .ok (c.accepts o)
  | Option.none => if a.isDecimal || b.isDecimal then .error .invalidOperation else .ok false

/-- An order comparison of two values without parts. -/
def orderedAtoms (c : Comparator) (a b : Value) : Except Fault Bool :=
  match a, b with
  | bytes x, bytes y => .ok (c.accepts (compare (x.map UInt8.toNat) (y.map UInt8.toNat)))
  | date x, date y => .ok (c.accepts (compare x.orderKey y.orderKey))
  | dateTime x, dateTime y => .ok (c.accepts (compare x.orderKey y.orderKey))
  | time x, time y => .ok (c.accepts (compare x.orderKey y.orderKey))
  | _, _ =>
    match a.text?, b.text? with
    | some x, some y => .ok (c.accepts (compare x y))
    | _, _ =>
      match a.number?, b.number? with
      | some x, some y => orderedNumbers c a b x y
      | _, _ => .error .wrongType

mutual

/-- An order comparison of two values. -/
def ordered (sameObject : ObjectId → ObjectId → Bool) (c : Comparator) (a b : Value) :
    Except Fault Bool :=
  match a with
  | list xs => match b with
    | list ys => orderedAll sameObject c xs ys
    | _ => .error .wrongType
  | tuple xs => match b with
    | tuple ys => orderedAll sameObject c xs ys
    | _ => .error .wrongType
  | set xs => match b with
    | set ys => .ok (c.acceptsInclusion (within sameObject xs ys) (within sameObject ys xs))
    | _ => .error .wrongType
  | a => orderedAtoms c a b
termination_by structural a

/-- An order comparison of two sequences, by the first place where they differ. -/
def orderedAll (sameObject : ObjectId → ObjectId → Bool) (c : Comparator) (xs ys : List Value) :
    Except Fault Bool :=
  match xs with
  | [] => .ok (c.accepts (if ys.isEmpty then .eq else .lt))
  | x :: xs => match ys with
    | [] => .ok (c.accepts .gt)
    | y :: ys =>
      if samePart sameObject x y then orderedAll sameObject c xs ys else ordered sameObject c x y
termination_by structural xs

end

/-- Compares two values: equality is always decided, the order comparisons may fail. -/
def compareBy (sameObject : ObjectId → ObjectId → Bool) (c : Comparator) (a b : Value) :
    Except Fault Bool :=
  match c with
  | .equal => .ok (same sameObject a b)
  | .notEqual => .ok (!same sameObject a b)
  | c => ordered sameObject c a b

end Value
end MemberRules
