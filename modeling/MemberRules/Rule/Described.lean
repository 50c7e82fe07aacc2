/-
# Descriptions

Members, rules and errors as named values. A description of a rule says only what is set.
-/
import MemberRules.Rule.Search
import MemberRules.Validation.Failure

namespace MemberRules

/-- A member as named values. -/
def MemberRef.toDetails (m : MemberRef) : Details :=
  [("type", .text m.declaring.name), ("name", .text m.name), ("kind", .text m.kind.name),
    ("key", .list [.text m.declaring.qualifiedName, .text m.name]), ("str", .text m.text)]

/-- Named values as a dictionary. -/
def Details.toValue (d : Details) : Value := .dict (d.map fun e => (.text e.1, e.2))

/-- An error as named values. -/
def AppError.toDetails (e : AppError) : Details :=
  [("category", .text e.code.category), ("code", .text e.code.name),
    ("code_num", .int e.code.number), ("message", .text e.message),
    ("metadata", e.details.toValue), ("origin", .text e.origin)]

/-- A failure in words: the member, the message, two descriptions and the kind of the check. -/
def Failure.inWords (f : Failure) : Value :=
  .list [.text f.memberName, .text f.message, .text f.describe, .text (f.describe " = "),
    .ofText? f.kind]

/-- The failures of a result in words, and how many there are at each path. -/
def ValidationResult.overview (r : ValidationResult) : Details :=
  [("detail", .list (r.failures.map Failure.inWords)),
    ("fields", .list (r.countByPath.map fun e => .list [.text e.1, .int e.2]))]

/-- What the registry holds for a type, as named values. -/
def Registry.status (reg : Registry) (t : TypeId) : Except Fault Details := do
  let waits ← reg.waits t
  return [("built", .bool (reg.isBuilt t)), ("known", .bool (reg.knows t)), ("async", .bool waits),
    ("len", .int reg.size), ("types", .list (reg.types.map fun t => .text t.name))]

namespace RuleView

/-- A detail that is there only if it is so. -/
def flag (name : String) (b : Bool) : Details := if b then [(name, .bool true)] else []

/-- A text that is there only if it is set. -/
def setting (name : String) (s : Option String) : Details :=
  Failure.optionalDetail name (s.map .text)

/-- The template of a message, or a mark for a computed one. -/
def messageText : MessageSource → String
  | .template t => t
  | .computed _ => "<callable>"

/-- A rule as named values. -/
def toDetails (v : RuleView) : Details :=
  let r := v.rule
  let args := (r.check?.map Check.args).getD []
  [("member", .text r.member.text), ("check", .ofText? (r.check?.map Check.shortName)),
    ("source", .text r.source.name), ("key", .text r.uniqueKey.text)] ++
  (if args.isEmpty then [] else [("args", .list args)]) ++
  flag "condition" r.gate.condition.isSome ++
  flag "async_condition" r.gate.asyncCondition.isSome ++
  flag "async" v.waits ++
  setting "message" (r.message.map messageText) ++
  setting "error_key" r.errorKey ++
  setting "resource_key" r.resourceKey ++
  setting "resource_type" r.resource ++
  setting "fallback" r.fallback ++
  setting "culture" (r.culture.map Culture.name) ++
  (if r.conventionalKeys then [] else [("conventional", .bool false)]) ++
  (if r.displayName == r.member.name then [] else [("display", .text r.displayName)]) ++
  flag "for_each" r.forEach ++ flag "provider" r.provider.isSome ++
  flag "child" (r.checkIsOfKind "ChildRules")

end RuleView
end MemberRules
