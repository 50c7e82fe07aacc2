/-
# Errors by kind

The errors of the library have kinds with names. An error of a kind is made from arguments, which
are given in order or by name; one that is missing, unknown or given twice is `wrongType`. The two
kinds of configuration errors take details of all names beside their message.

Some errors are about a type. The types of whole numbers and of texts may be given by their names;
any other value stands for its own type, unless the error needs a type.
-/
import MemberRules.Value.Builtin
import MemberRules.Value.Printed

namespace MemberRules
namespace AppError

/-- The parameters of an error, with the values of those that may be left out. -/
abbrev Parameters := List (String × Option Value)

/-- The values of parameters from arguments in order and by name. -/
def bind (ps : Parameters) (given : List Value) (named : Details) : Except Fault (List Value) := do
  let rest := ps.drop given.length
  if given.length > ps.length || named.any fun e => !rest.any fun p => p.1 == e.1 then
    throw .wrongType
  let values ← rest.mapM fun p =>
    match (named.lookup p.1).or p.2 with
    | some v => Except.ok v
    | none => .error .wrongType
  return given ++ values

/-- The type that an error is about, given by a value. -/
def owner : Value → Value
  | .text "int" => .type (.builtin .int)
  | .text "str" => .type (.builtin .text)
  | v => v

/-- The name of the type that an error is about. -/
def ownerName (v : Value) : String :=
  match owner v with
  | .type t => t.name
  | v => v.kind.name

/-- A configuration error with a message and details. -/
def withMessage (code : ErrorCode) (given : List Value) (named : Details) :
    Except Fault AppError := do
  let (own, details) := named.partition fun e => e.1 == "message"
  let message ← bind [("message", none)] given own
  let origin := (details.lookup "origin").bind Value.text?
  return configuration (", ".intercalate (message.map Value.printed)) code (origin.getD "")
    (details.filter fun e => e.1 != "origin" && e.1 != "cause")

/-- The error of a kind; a kind that is unknown is `wrongType`. -/
def ofKind (kind : String) (given : List Value) (named : Details) : Except Fault AppError := do
  let hasCode := named.any fun e => e.1 == "code"
  match kind with
  | "configuration_error" =>
    if hasCode then throw .noAttribute
    withMessage .configurationGeneric given named
  | "invalid_rule" =>
    if hasCode then throw .wrongType
    withMessage .invalidRuleDefinition given named
  | "unknown_member" =>
    match ← bind [("declaring_type", none), ("name", none)] given named with
    | [t, name] =>
      match owner t with
      | .type t => return unknownMember t name.printed
      | _ => throw .noAttribute
    | _ => throw .wrongType
  | "missing_rule" =>
    match ← bind [("declaring_type", none), ("name", none)] given named with
    | [t, name] =>
      return configuration ("There is no rule for the " ++ name.printed ++ " property.") .missingRule ""
        [("type", .text (ownerName t)), ("member", name)]
    | _ => throw .wrongType
  | "unsupported_member" =>
    match ← bind [("name", none), ("kind", none), ("operation", none)] given named with
    | [name, kind, operation] =>
      return unsupportedMember name.printed kind.printed operation.printed
    | _ => throw .wrongType
  | "resource_not_found" =>
    let blank := some (Value.text "")
    match ← bind [("resource_type", none), ("key", none), ("culture", blank), ("origin", blank)]
        given named with
    | [t, key, culture, origin] =>
      return resourceNotFound (ownerName t) key.printed culture.printed origin.printed
    | _ => throw .wrongType
  | _ => throw .wrongType

end AppError
end MemberRules
