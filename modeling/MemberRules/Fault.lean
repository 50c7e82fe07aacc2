/-
# Errors and faults

`AppError` is the error value of the library: a code, a message, named details and an origin.
`Fault` lists every reason for which an operation can end without an answer: configuration errors,
an invalid result turned into an error, and the failures of the values themselves (a missing
member, two values that cannot be compared, a text that is no template).
-/
import MemberRules.ErrorCode
import MemberRules.Value.Basic

namespace MemberRules

/-- Named values in insertion order. -/
abbrev Details := List (String × Value)

/-- Puts a value under a name: in place if the name is present, else at the end. -/
def Details.set (d : Details) (name : String) (v : Value) : Details :=
  if d.any fun e => e.1 == name then d.map fun e => if e.1 == name then (name, v) else e
  else d ++ [(name, v)]

/-- The error value of the library. -/
structure AppError where
  code : ErrorCode
  message : String
  details : Details := []
  origin : String := ""
  deriving Inhabited

namespace AppError

/-- The same error with more details; a name that is present takes the new value. -/
def withDetails (e : AppError) (more : Details) : AppError :=
  { e with details := more.foldl (fun d m => d.set m.1 m.2) e.details }

/-- The error in one line. -/
def text (e : AppError) : String := "[" ++ e.code.name ++ "] " ++ e.message

/-- Details that are nothing are left out. -/
def presentDetails (d : Details) : Details :=
  d.filter fun e => match e.2 with
    | .none => false
    | _ => true

/-! ## Configuration errors -/

/-- A configuration error. -/
def configuration (message : String) (code : ErrorCode) (origin : String) (details : Details) :
    AppError :=
  ⟨code, message, presentDetails details, origin⟩

/-- An attribute or rule that makes no sense. -/
def invalidRule (message : String) (details : Details) : AppError :=
  configuration message .invalidRuleDefinition "" details

/-- A name that is no member of the type. -/
def unknownMember (type : TypeId) (name : String) : AppError :=
  configuration ("Property '" ++ name ++ "' not found on type '" ++ type.name ++ "'.")
    .unknownMember "" [("type", .text type.name), ("member", .text name)]

/-- A member that was selected and has no rule. -/
def missingRule (type : TypeId) (name : String) : AppError :=
  configuration ("There is no rule for the " ++ name ++ " property.")
    .missingRule "" [("type", .text type.name), ("member", .text name)]

/-- A member that cannot be used in this way. -/
def unsupportedMember (name kind operation : String) : AppError :=
  configuration ("Cannot " ++ operation ++ " " ++ kind ++ " member '" ++ name ++ "'.")
    .unsupportedMember "" [("member", .text name), ("kind", .text kind)]

/-- A mistake in the use of a rule builder. -/
def builder (message : String) (code : ErrorCode := .configurationGeneric) : AppError :=
  configuration message code "builder" []

/-- A key that a resource does not have. -/
def resourceNotFound (owner key culture origin : String) : AppError :=
  ⟨.resourceNotFound, "Resource '" ++ key ++ "' not found on '" ++ owner ++ "'",
    [("key", .text key), ("culture", .text culture)], origin⟩

end AppError

/-- Why an operation ended without an answer. -/
inductive Fault
  /-- A rule definition is malformed or names something that does not exist. -/
  | configuration (e : AppError)
  /-- A member was used in a way its shape does not allow. -/
  | unsupported (e : AppError)
  /-- An invalid result was asked to be an error. -/
  | invalidResult (e : AppError)
  /-- Any other error value. -/
  | app (e : AppError)
  /-- An expression failed with a text of its own. -/
  | raised (text : String)
  /-- Work that has to wait was asked for at once. -/
  | suspended
  /-- Nothing was given to be validated as the type. -/
  | nothingToValidate (type : String)
  /-- The value of a miss was asked for. -/
  | unwrappedMiss (e : AppError)
  /-- Values of kinds that do not go together. -/
  | wrongType
  /-- A malformed value, such as a template that cannot be read. -/
  | badValue
  /-- A value without the attribute. -/
  | noAttribute
  /-- A name that is not among the arguments. -/
  | noKey
  /-- A position beyond the end. -/
  | noIndex
  /-- A type name that the model does not have. -/
  | noName
  /-- Decimal arithmetic without a result. -/
  | invalidOperation
  /-- A number beyond the range of its kind. -/
  | overflow
  /-- A decimal beyond the range of decimal arithmetic. -/
  | decimalOverflow
  /-- A well-formed culture name without data. -/
  | unknownLocale
  /-- Settings of the wrong kind. -/
  | badSettings
  /-- The time allowed ran out. -/
  | timedOut
  /-- The nesting of calls has no end. -/
  | tooDeep
  /-- A text or list that no store can hold. -/
  | outOfMemory

namespace Fault

/-- The text of the faults that have one of their own. -/
def message? : Fault → Option String
  | configuration e | unsupported e | invalidResult e | app e => some e.message
  | raised text => some text
  | suspended => some "coroutine suspended; use run_blocking() for async rule sets"
  | nothingToValidate type => some ("Cannot validate None as " ++ type)
  | unwrappedMiss e => some ("Called unwrap on Err: " ++ e.text)
  | _ => none

/-- The error value inside a fault. -/
def appError? : Fault → Option AppError
  | configuration e | unsupported e | invalidResult e | app e => some e
  | _ => none

/-- The greatest length that a text or list can be made with. -/
def largestLength : Nat := 1000000000

/-- Refuses a length that nothing can have. -/
def checkLength (n : Nat) : Except Fault Unit :=
  if n > largestLength then .error .outOfMemory else .ok ()

end Fault
end MemberRules
