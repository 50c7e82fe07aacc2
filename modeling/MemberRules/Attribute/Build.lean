/-
# Declaring attributes

Checks are declared by the name of their kind and named arguments. Lengths have to be numbers that
are not negative and in order, the bounds of a range comparable and not inverted, patterns well
formed: a declaration that is not is refused at once, before anything is validated. An argument
that is missing or unknown is `wrongType`.
-/
import MemberRules.Attribute.Basic
import MemberRules.Pattern.Reader

namespace MemberRules
namespace Check

/-- Compares values that hold no objects, or objects by identity. -/
def compareValues (c : Comparator) (a b : Value) : Except Fault Bool :=
  Value.compareBy (· == ·) c a b

/-- Refuses a rule. -/
def refuse (message : String) (details : Details) : Except Fault α :=
  .error (.configuration (AppError.invalidRule message details))

/-- Refuses a bound that is missing or negative. -/
def requireNonNegative (kind name : String) (bound : Value) : Except Fault Unit := do
  let negative ← match bound with
    | .none => pure true
    | v => compareValues .less v (.int 0)
  if negative then refuse (kind ++ ": " ++ name ++ " must be a non-negative integer") [(name, bound)]

/-- A length between two bounds of a text. -/
def textLength (max min : Value) : Except Fault Check := do
  requireNonNegative "StringLength" "maximum_length" max
  requireNonNegative "StringLength" "minimum_length" min
  if ← compareValues .greater min max then
    refuse "StringLength: minimum_length cannot exceed maximum_length"
      [("minimum_length", min), ("maximum_length", max)]
  return stringLength max min

/-- A length between two bounds of anything that has one. -/
def lengthBetween (min max : Value) : Except Fault Check := do
  requireNonNegative "Length" "minimum_length" min
  requireNonNegative "Length" "maximum_length" max
  if ← compareValues .less max min then
    refuse "Length: maximum_length must be greater than or equal to minimum_length"
      [("minimum_length", min), ("maximum_length", max)]
  return length min max

/-- A single length. -/
def singleLength (make : Value → Check) (n : Value) : Except Fault Check := do
  requireNonNegative (make n).kind "length" n
  return make n

/-- A range. Its bounds must be comparable and not inverted. -/
def between (min max : Value) : Except Fault Check :=
  match compareValues .greater min max with
  | .ok false => .ok (range min max)
  | .ok true =>
    refuse "Range: minimum cannot exceed maximum" [("minimum", min), ("maximum", max)]
  | .error .wrongType =>
    refuse "Range: bounds are not comparable" [("minimum", min), ("maximum", max)]
  | .error e => .error e

/-- A pattern in its written form. -/
def matching (source : String) : Except Fault Check :=
  match Pattern.ofText source with
  | .ok p => .ok (pattern source p)
  | .error (.malformed reason position) =>
    refuse ("RegularExpression: invalid pattern: " ++
      Pattern.malformedText reason position source.toList) [("pattern", .text source)]
  | .error .tooManyTurns => .error .overflow
  | .error .badValue => .error .badValue
  | .error .tooDeep => .error .tooDeep

/-- A comparison with another member. -/
def comparing (other : String) (c : Comparator) : Except Fault Check :=
  if other.isEmpty then refuse "Compare: other_property is required" []
  else .ok (compare other c)

/-! ## Declarations by name -/

/-- The arguments of each kind, with their defaults. -/
def parameters : String → Option (List (String × Option Value))
  | "Required" => some [("allow_empty_strings", some (.bool false))]
  | "NotEmpty" | "Empty" | "EmailAddress" | "Phone" => some []
  | "StringLength" => some [("maximum_length", none), ("minimum_length", some (.int 0))]
  | "MinLength" | "MaxLength" | "ExactLength" => some [("length", none)]
  | "Length" => some [("minimum_length", none), ("maximum_length", none)]
  | "Range" => some [("minimum", none), ("maximum", none)]
  | "Minimum" | "Maximum" => some [("value", none)]
  | "RegularExpression" => some [("pattern", none)]
  | "Url" => some [("schemes", some (.list [.text "http", .text "https", .text "ftp"]))]
  | "Compare" => some [("other_property", none), ("operator", some (.text "Equal"))]
  | "Equal" => some [("expected", none)]
  | "NotEqual" => some [("disallowed", none)]
  | _ => none

/-- The values of the parameters, in order. -/
def arguments (ps : List (String × Option Value)) (named : Details) : Except Fault (List Value) := do
  if named.any fun e => !ps.any fun p => p.1 == e.1 then throw .wrongType
  ps.mapM fun p =>
    match (named.lookup p.1).or p.2 with
    | some v => .ok v
    | none => .error .wrongType

/-- A check from the name of its kind and its arguments, without predicates and types. -/
def ofArguments (kind : String) (values : List Value) : Except Fault Check :=
  match kind, values with
  | "Required", [v] => .ok (required v.truthy)
  | "NotEmpty", _ => .ok notEmpty
  | "Empty", _ => .ok empty
  | "EmailAddress", _ => .ok email
  | "Phone", _ => .ok phone
  | "StringLength", [max, min] => textLength max min
  | "MinLength", [n] => singleLength minLength n
  | "MaxLength", [n] => singleLength maxLength n
  | "ExactLength", [n] => singleLength exactLength n
  | "Length", [min, max] => lengthBetween min max
  | "Range", [min, max] => between min max
  | "Minimum", [v] => .ok (minimum v)
  | "Maximum", [v] => .ok (maximum v)
  | "RegularExpression", [v] =>
    match v.text? with
    | some s => matching s
    | none => .error .wrongType
  | "Url", [v] => .ok (url (v.elements.filterMap Value.text?))
  | "Compare", [other, c] =>
    match c.text?.bind Comparator.ofName? with
    | none => .error .badValue
    | some c => comparing (other.text?.getD "") c
  | "Equal", [v] => .ok (equal v)
  | "NotEqual", [v] => .ok (notEqual v)
  | _, _ => .error .wrongType

/-- A check from the name of its kind and named arguments. A predicate and a type stand for the
kinds that have one. -/
def declare (kind : String) (named : Details) (predicate : Option AsyncPredicate)
    (model : Option TypeId) : Except Fault Check :=
  match kind, predicate, model with
  | "Must", some p, none => if named.isEmpty then .ok (must p.body) else .error .wrongType
  | "MustAsync", some p, none => if named.isEmpty then .ok (mustAsync p) else .error .wrongType
  | "ValidateWith", none, some t => if named.isEmpty then .ok (validateWith t) else .error .wrongType
  | "ValidateEach", none, some t => if named.isEmpty then .ok (validateEach t) else .error .wrongType
  | _, none, none =>
    match parameters kind with
    | none => .error .wrongType
    | some ps => do ofArguments kind (← arguments ps named)
  | _, _, _ => .error .wrongType

end Check
end MemberRules
