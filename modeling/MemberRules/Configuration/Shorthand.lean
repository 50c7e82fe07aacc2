/-
# Names of steps and operators

Steps that attach a check are named after the check, in small letters, and take its arguments in a
fixed order; other steps have names of their own. Expressions, declared types, members and selectors
are written with the names of their operators and kinds.
-/
import MemberRules.Configuration.Basic

namespace MemberRules

/-- The kind of check that a step attaches, and the names of its arguments in order. -/
def CheckStep.shorthand? : String → Option (String × List String)
  | "required" => some ("Required", ["allow_empty_strings"])
  | "not_empty" => some ("NotEmpty", [])
  | "empty" => some ("Empty", [])
  | "email_address" => some ("EmailAddress", [])
  | "url" => some ("Url", [])
  | "phone" => some ("Phone", [])
  | "length" => some ("Length", ["minimum_length", "maximum_length"])
  | "exact_length" => some ("ExactLength", ["length"])
  | "minimum_length" => some ("MinLength", ["length"])
  | "maximum_length" => some ("MaxLength", ["length"])
  | "string_length" => some ("StringLength", ["maximum_length", "minimum_length"])
  | "range" => some ("Range", ["minimum", "maximum"])
  | "minimum" => some ("Minimum", ["value"])
  | "maximum" => some ("Maximum", ["value"])
  | "matches" => some ("RegularExpression", ["pattern"])
  | "equal" => some ("Equal", ["expected"])
  | "not_equal" => some ("NotEqual", ["disallowed"])
  | "compare" => some ("Compare", ["other_property", "operator"])
  | "must" => some ("Must", ["predicate"])
  | "must_async" => some ("MustAsync", ["predicate"])
  | _ => none

/-- The step of a name that needs nothing else. -/
def TypeStep.ofName? : String → Option TypeStep
  | "clear_rules" => some .clear
  | "disable_conventional_keys" => some .withoutConventionalKeys
  | "disable_configuration_enforcement" => some (.enforce false)
  | "build" => some .build
  | "repr" => some .describe
  | _ => none

/-- The selector of a kind that reads members of some names. -/
def Selector.ofNames? (kind : String) (names : List String) : Option Selector :=
  match kind, names with
  | "path", ns => some (path ns)
  | "many", ns => some (together ns)
  | "last", ns => some (lastOf ns)
  | _, _ => none

/-- The kind of a member, by its word. -/
def MemberKind.ofName : String → MemberKind
  | "property" => property
  | "method" => method
  | _ => field

/-- The source of a rule, by its word. -/
def RuleSource.ofName : String → RuleSource
  | "annotation" => declared
  | "carrier" => carrier
  | _ => built

/-- The body of a computed member of a kind. -/
def MemberBody.computed? (kind : String) (e : Expr) (returns : Option Hint) (setter : Option String) :
    Option MemberBody :=
  match kind with
  | "property" => some (property e returns setter)
  | "cached" => some (cached e)
  | "method" => some (method e)
  | "static" => some (static e)
  | _ => none

/-- The comparison of an operator. -/
def Comparator.ofOperator? : String → Option Comparator
  | "eq" => some .equal
  | "ne" => some .notEqual
  | "lt" => some .less
  | "le" => some .lessOrEqual
  | "gt" => some .greater
  | "ge" => some .greaterOrEqual
  | _ => none

/-- The expression of an operator and its operands. -/
def Expr.ofOperator? (name : String) (es : List Expr) : Option Expr :=
  match name, es with
  | "arg", [] => some subject
  | "inst", [] => some owner
  | "member", [] => some memberName
  | "and", es => some (es.foldr both (const (.plain (.bool true))))
  | "or", es => some (es.foldr oneOf (const (.plain (.bool false))))
  | "not", [e] => some (negate e)
  | "isnone", [e] => some (isNone e)
  | "len", [e] => some (size e)
  | "add", [a, b] => some (add a b)
  | "mul", [a, b] => some (mul a b)
  | "strip", [e] => some (strip e)
  | "upper", [e] => some (upper e)
  | "if", [c, a, b] => some (choose c a b)
  | name, [a, b] => (Comparator.ofOperator? name).map fun c => compare c a b
  | _, _ => none

/-- The declared type of a name. -/
def Hint.ofName (s : Schema) (name : String) : Hint :=
  match name with
  | "barelist" => type (.builtin .list)
  | "baredict" => type (.builtin .dict)
  | "none" => nothing
  | name => type (s.typeNamed name)

/-- Refuses operands that are members of the type itself, which no choice and no sequence takes. -/
def Hint.operands (hs : List Hint) : Except Fault (List Hint) :=
  if hs.any fun h => h matches .classLevel _ then .error .wrongType else .ok hs

/-- The declared type of an operator and its operands. -/
def Hint.ofOperator (name : String) (hs : List Hint) : Except Fault Hint :=
  match name, hs with
  | "opt", [t] | "optbar", [t] => (operands [t]).map fun _ => t.optional
  | "union", [] => .error .wrongType
  | "union", ts => (operands ts).map unionOf
  | "list", [t] => .ok (list t)
  | "set", [t] => .ok (set t)
  | "seq", [t] => (operands [t]).map fun _ => sequence t
  | "dict", [k, v] => .ok (dict k v)
  | "vartuple", [t] => .ok (variadic t)
  | "tuple", ts => .ok (tuple ts)
  | "type", [t] => .ok (typeOf t)
  | "classvar", [t] => (operands [t]).map fun _ => classLevel t
  | _, _ => .error .badValue

end MemberRules
