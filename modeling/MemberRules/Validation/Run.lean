/-
# Validating objects

An object is validated by the rules of a type, member by member in the order of the registry, and
within a member rule by rule; every rule whose gate is open is applied, whatever the others said. A
rule for each element is applied to the elements in order. A check that carries rules, or names a
type with declared rules, validates a nested value in the same way, at the path of that value, and
says nothing of a missing one.

A value provider replaces the value of its member before the rules of the member are applied, if
there is a check among them.

The types of nested values are registered on the way. A type whose rules are not complete is not
validated. `nestingLimit` bounds how deep nested values are followed.
-/
import MemberRules.Engine.Basic
import MemberRules.Validation.Failure
import MemberRules.Validation.Path

namespace MemberRules

/-- The failures that a step of a validation finds. -/
abbrev Finding := Action (List Failure)

/-- What a rule is applied for: the object that owns the member, and the type whose rule it is. -/
structure Position where
  owner : Value
  type : TypeId
  /-- Where the value stands. -/
  path : String
  deriving Inhabited

namespace Validation

/-! ## 1. One value -/

/-- What a failure says of the place where it was found. -/
def stateOf (r : Rule) (c : Check) (path : String) : Details :=
  ("origin", .text c.shortName) ::
    if path == r.member.name then [] else [("item_path", .text path)]

/-- The code of a failure: the one of the rule, or of the check. -/
def codeOf (r : Rule) (c : Check) : String :=
  match Message.present r.errorKey with
  | some key => key
  | none => c.code.name

/-- The failure of a check of a value. -/
def failure (r : Rule) (c : Check) (path message : String) (v : Value) : Except Fault Failure := do
  let (index, parent) ← Path.indices path
  return {
    path, message
    attempted := v
    index := index.map Int.ofNat
    parentIndex := parent.map Int.ofNat
    state := some (stateOf r c path)
    code := some (codeOf r c)
    member := some r.member
    kind := some c.kind }

/-- The message of a failed check: its own, or the one that the rule leads to. -/
def messageOf (r : Rule) (a : Attribute) (pos : Position) (own : Option String) : Action String :=
  match Message.present own with
  | some m => return m
  | none =>
    Action.message
      { type := pos.type, member := r.member.name, validator := some a, rule := some r } pos.owner

/-- Applies a check to a value. -/
def applyCheck (d : Drive) (r : Rule) (a : Attribute) (pos : Position) (v : Value) : Finding := do
  let outcome ← Action.eval (a.check.runWith d v pos.owner)
  if outcome.passed then return []
  let message ← messageOf r a pos outcome.message
  return [← Action.lift (failure r a.check pos.path message v)]

/-- Applies a rule to a value; `nested` validates a nested value by the rules of a type. -/
def applyRule (nested : Value → TypeId → String → Finding) (d : Drive) (r : Rule) (a : Attribute)
    (pos : Position) (v : Value) : Finding :=
  match a.check, v with
  | .childRules _, .none | .validateWith _, .none | .validateEach _, .none => return []
  | .childRules t, v => nested v t pos.path
  | .validateWith t, v | .validateEach t, v => do
    Action.ensure t
    nested v t pos.path
  | _, v => applyCheck d r a pos v

/-! ## 2. Members and objects -/

/-- The failures that a step finds for each of several things, in order. -/
def collect (f : α → Finding) : List α → Finding
  | [] => return []
  | x :: xs => do
    let first ← f x
    let others ← collect f xs
    return first ++ others

/-- Applies a rule to the value of its member, or to each element of it, if the gate of the rule is
open. -/
def visitRule (nested : Value → TypeId → String → Finding) (d : Drive) (pos : Position) (v : Value)
    (r : Rule) : Finding := do
  match r.validator with
  | none => return []
  | some a =>
    if !(← Action.eval (r.gate.isOpen d pos.owner)) then return []
    if r.forEach then
      collect (fun (e, i) => applyRule nested d r a { pos with path := Path.element pos.path i } e)
        ((← get).world.elements v).zipIdx
    else applyRule nested d r a pos v

/-- The value of a member, after its value provider has replaced it. -/
def provided (g : RuleGroup) (owner : Value) : Action Value := do
  let v ← Action.eval (g.member.read owner)
  match g.rules.findSome? Rule.provider with
  | none => return v
  | some e =>
    let v ← Action.eval (e.eval ⟨v, owner, .text g.member.name⟩)
    Action.eval (g.member.write owner v)
    return v

/-- Applies the rules of a member; a member without checks is not even read. -/
def visitMember (nested : Value → TypeId → String → Finding) (d : Drive) (owner : Value) (t : TypeId)
    (path : String) (g : RuleGroup) : Finding := do
  if !g.rules.any Rule.hasCheck then return []
  let v ← provided g owner
  collect (visitRule nested d ⟨owner, t, Path.member path g.member.name⟩ v) g.rules

/-- Refuses a type whose rules are not complete. -/
def requireBuilt (t : TypeId) : Action Unit := do
  let reg := (← get).registry
  if reg.knows t && !reg.isBuilt t then throw (.configuration (AppError.notBuilt t))

/-- Validates an object by the rules of a type; `depth` bounds the nesting. -/
def visitObject (d : Drive) : Nat → Value → TypeId → String → Finding
  | 0, _, _, _ => throw .tooDeep
  | depth + 1, owner, t, path => do
    requireBuilt t
    collect (visitMember (visitObject d depth) d owner t path) ((← get).registry.groupsOf t)

/-- The result of validating an object by the rules of a type. -/
def run (d : Drive) (owner : Value) (t : TypeId) : Action ValidationResult := do
  let result : ValidationResult := ⟨← visitObject d nestingLimit owner t ""⟩
  Action.note "executor" "validation_completed"
    [("model_type", .text t.name), ("valid", .bool result.isValid),
      ("errors", .int result.failures.length)]
  return result

/-! ## 3. Validators -/

/-- The type whose rules a value is validated by: its own if that is known, and otherwise the one
that was asked for. -/
def rulesType (t : TypeId) (v : Value) : Action TypeId := do
  match v with
  | .none => throw (.nothingToValidate t.name)
  | v =>
    let e ← get
    let own := e.world.typeOf v
    return if e.registry.knows own then own else t

/-- Prepares the validation by the rules of a type, once for each type. -/
def prepare (t : TypeId) : Action Unit := do
  if !(← get).validated.contains t then
    Action.ensure t
    modify fun e => { e with validated := e.validated ++ [t] }

/-- Validates a value at once, waiting only if a rule may have to wait. -/
def validate (t : TypeId) (v : Value) : Action ValidationResult := do
  let own ← rulesType t v
  if ← Action.lift ((← get).registry.waits own) then
    Action.note "executor" "blocking_on_async_rules" [("model_type", .text own.name)]
    run .patient v own
  else run .immediate v own

/-- Validates a value with time to wait, or with a limit that may have run out from the start. -/
def validatePatiently (t : TypeId) (v : Value) (limit : Option Bool) : Action ValidationResult := do
  let own ← rulesType t v
  match limit with
  | none => run .patient v own
  | some exhausted => run (.limited exhausted) v own

/-- Whether the rules of a type, which is prepared for this, may be applied to values of another
one. -/
def canValidate (t other : TypeId) : Action Bool := do
  prepare t
  return (← Action.schema).isSubtype other t

/-- An engine of its own for the same model, with the default settings and no rules. -/
def separate (e : Engine) : Except Fault Engine := do
  return { world := e.world, resources := e.resources, ambient := e.ambient,
           lookups := { log := e.log }, options := ← Settings.options {} }

/-- Runs a step on an engine of its own; what it does to objects and what it logs remains. -/
def alone (x : Action α) : Action α := fun e =>
  match separate e with
  | .error f => (.error f, e)
  | .ok other =>
    let (r, other) := x other
    (r, { e with world := other.world, lookups := { e.lookups with log := other.log } })

end Validation
end MemberRules
