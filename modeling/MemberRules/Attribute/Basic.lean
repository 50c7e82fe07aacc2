/-
# Validation attributes

An attribute is a check with an optional message of its own and an optional resource string for
it. Every kind of check has a name, a message template, a code that its failures carry, and the
arguments that its message may mention after the name of the member.
-/
import MemberRules.Expression
import MemberRules.Pattern.Basic

namespace MemberRules

/-- What an attribute checks. -/
inductive Check
  /-- The value is present: not nothing, not blank, not an empty collection. -/
  | required (allowEmpty : Bool)
  /-- Like `required`, and a number is not zero. -/
  | notEmpty
  /-- The value is missing, blank, empty or zero. -/
  | empty
  | stringLength (max min : Value)
  | minLength (n : Value)
  | maxLength (n : Value)
  | length (min max : Value)
  | exactLength (n : Value)
  | range (min max : Value)
  | minimum (v : Value)
  | maximum (v : Value)
  /-- The whole text matches a pattern; the empty text passes. -/
  | pattern (source : String) (p : Pattern)
  | email
  | url (schemes : List String)
  | phone
  /-- The value compares as asked with another member of the same object. -/
  | compare (other : String) (c : Comparator)
  | equal (v : Value)
  | notEqual (v : Value)
  | must (e : Expr)
  | mustAsync (p : AsyncPredicate)
  /-- The value, or each element, is validated by the rules of a type. -/
  | childRules (element : TypeId)
  /-- The value is validated by the declared rules of a type. -/
  | validateWith (model : TypeId)
  /-- Each element of the value is validated by the declared rules of a type. -/
  | validateEach (model : TypeId)
  /-- A check of a kind of its own. -/
  | custom (kind : String) (template : Option String) (code : ErrorCode) (isAsync : Bool) (e : Expr)
  deriving Inhabited

/-- A check and the message settings of its declaration. -/
structure Attribute where
  check : Check
  message : Option String := none
  resourceKey : Option String := none
  /-- The name of the resource that holds the message. -/
  resource : Option String := none
  deriving Inhabited

/-! ## 1. Kinds -/

namespace Check

/-- The name of the kind of a check. -/
def kind : Check → String
  | required _ => "Required"
  | notEmpty => "NotEmpty"
  | empty => "Empty"
  | stringLength .. => "StringLength"
  | minLength _ => "MinLength"
  | maxLength _ => "MaxLength"
  | length .. => "Length"
  | exactLength _ => "ExactLength"
  | range .. => "Range"
  | minimum _ => "Minimum"
  | maximum _ => "Maximum"
  | pattern .. => "RegularExpression"
  | email => "EmailAddress"
  | url _ => "Url"
  | phone => "Phone"
  | compare .. => "Compare"
  | equal _ => "Equal"
  | notEqual _ => "NotEqual"
  | must _ => "Must"
  | mustAsync _ => "MustAsync"
  | childRules _ => "ChildRules"
  | validateWith _ => "ValidateWith"
  | validateEach _ => "ValidateEach"
  | custom kind .. => kind

/-- The name under which messages look a kind up: without the word "Attribute" at its end. -/
def shortName (c : Check) : String :=
  let name := c.kind.toList
  let ending := "Attribute".toList
  if ending.isSuffixOf name then String.ofList (name.take (name.length - ending.length))
  else c.kind

/-- Whether a check is of a kind: its own, the kind of all checks, or, for the validation of
elements, the one of single objects. -/
def isOfKind (c : Check) (name : String) : Bool :=
  name == "ValidationAttribute" || c.kind == name ||
    match c with
    | validateEach _ => name == "ValidateWith"
    | _ => false

/-- The code that failures of a check carry. -/
def code : Check → ErrorCode
  | required _ | notEmpty => .requiredFieldMissing
  | empty | must _ | mustAsync _ => .constraintViolation
  | stringLength .. | minLength _ | maxLength _ | length .. | exactLength _ | range .. | minimum _
  | maximum _ => .outOfRange
  | pattern .. => .invalidFormat
  | email => .invalidEmail
  | url _ => .invalidUrl
  | phone => .invalidPhone
  | compare .. | equal _ | notEqual _ => .comparisonFailed
  | childRules _ | validateWith _ | validateEach _ => .validationGeneric
  | custom _ _ code .. => code

/-- The arguments of the message of a check. -/
def args : Check → List Value
  | stringLength max min => [max, min]
  | minLength n | maxLength n | exactLength n => [n]
  | length min max | range min max => [min, max]
  | minimum v | maximum v | equal v | notEqual v => [v]
  | pattern source _ => [.text source]
  | compare other c => [.text other, .text c.name]
  | _ => []

/-- The check with its arguments changed. -/
def mapArgs (f : Value → Value) : Check → Check
  | stringLength max min => stringLength (f max) (f min)
  | minLength n => minLength (f n)
  | maxLength n => maxLength (f n)
  | length min max => length (f min) (f max)
  | exactLength n => exactLength (f n)
  | range min max => range (f min) (f max)
  | minimum v => minimum (f v)
  | maximum v => maximum (f v)
  | equal v => equal (f v)
  | notEqual v => notEqual (f v)
  | c => c

/-- The message template of a check. -/
def template : Check → String
  | required _ => "The \x7b0\x7d field is required."
  | notEmpty => "The field '\x7b0\x7d' must not be empty."
  | empty => "The field '\x7b0\x7d' must be empty."
  | stringLength _ min =>
    if min.truthy then
      "The field \x7b0\x7d must be a string with a minimum length of \x7b2\x7d and a maximum length of \x7b1\x7d."
    else "The field \x7b0\x7d must be a string with a maximum length of \x7b1\x7d."
  | minLength _ =>
    "The field \x7b0\x7d must be a string or array type with a minimum length of '\x7b1\x7d'."
  | maxLength _ => "The field '\x7b0\x7d' must not be longer than \x7b1\x7d characters."
  | length .. =>
    "The field \x7b0\x7d must be a string or collection type with a minimum length of '\x7b1\x7d' and maximum length of '\x7b2\x7d'."
  | exactLength _ => "The field '\x7b0\x7d' must be exactly \x7b1\x7d characters long."
  | range .. => "The field \x7b0\x7d must be between \x7b1\x7d and \x7b2\x7d."
  | minimum _ => "The field '\x7b0\x7d' must be at least \x7b1\x7d."
  | maximum _ => "The field '\x7b0\x7d' must be at most \x7b1\x7d."
  | pattern .. => "The field \x7b0\x7d must match the regular expression '\x7b1\x7d'."
  | email => "The \x7b0\x7d field is not a valid e-mail address."
  | url _ => "The \x7b0\x7d field is not a valid fully-qualified http, https, or ftp URL."
  | phone => "The \x7b0\x7d field is not a valid phone number."
  | compare _ c =>
    if c == .equal then "'\x7b0\x7d' and '\x7b1\x7d' do not match."
    else "The field '\x7b0\x7d' must satisfy the \x7b2\x7d comparison with '\x7b1\x7d'."
  | equal _ => "The field '\x7b0\x7d' must be equal to '\x7b1\x7d'."
  | notEqual _ => "The field '\x7b0\x7d' must not be equal to '\x7b1\x7d'."
  | must _ | mustAsync _ => "The field '\x7b0\x7d' is invalid."
  | childRules _ | validateWith _ | validateEach _ => "The field \x7b0\x7d is invalid."
  | custom _ template .. => template.getD "The field \x7b0\x7d is invalid."

/-- The type whose declared rules a check applies to a nested value. -/
def nestedModel? : Check → Option TypeId
  | validateWith t | validateEach t => some t
  | _ => none

/-- Whether a check applies to the elements of a value when it is declared on a member. -/
def appliesToEach : Check → Bool
  | validateEach _ => true
  | _ => false

end Check

namespace Attribute

/-- The message template of an attribute: its own one unless that is missing or empty. -/
def template (a : Attribute) : String :=
  match a.message with
  | some m => if m.isEmpty then a.check.template else m
  | none => a.check.template

end Attribute
end MemberRules
