/-
# The engine

An engine is what the rules of a model live in: the schema and its objects, the resources and
options, the registry, the configurations and builders, what has been reflected and looked up, and
the log. Everything it does is a step from one engine to the next, and a fault keeps the engine as
it was when the fault came up.

A rule is shared between the registry and the places that gathered it: changing a rule of a builder
also changes it where it is registered. `Engine.amend` changes a rule in all these places.
-/
import MemberRules.Configuration.Basic
import MemberRules.Message.Origin
import MemberRules.Rule.Declared
import MemberRules.Rule.Waiting

namespace MemberRules

/-- A rule as it was when it was looked at, and whether it might wait. -/
structure RuleView where
  rule : Rule
  waits : Bool
  deriving Inhabited

/-- What a configuration step reports. -/
inductive Report
  | rules (rs : List RuleView)
  | line (s : String)
  deriving Inhabited

/-- The state of an engine. -/
structure Engine where
  world : World := { schema := {} }
  resources : Resources := []
  options : Options := {}
  /-- The culture of the surroundings. -/
  ambient : Option Culture := none
  registry : Registry := {}
  reflected : Reflected := []
  lookups : Lookups := {}
  configurations : List Configuration := []
  /-- The configuration of each type that has one. -/
  configured : List (TypeId × Nat) := []
  builders : List Builder := []
  /-- Builders by name, the latest first. -/
  named : List (String × Nat) := []
  /-- The types that validation has been asked for. -/
  validated : List TypeId := []
  reports : List Report := []
  /-- The identity of the next rule. -/
  nextId : Nat := 0
  deriving Inhabited

/-- A step of an engine. -/
abbrev Action (α : Type) := ExceptT Fault (StateM Engine) α

namespace Engine

/-! ## 1. Changes -/

/-- Writes an event to the log. -/
def note (event : Log.Event) (e : Engine) : Engine :=
  { e with lookups := { e.lookups with log := e.lookups.log ++ [event] } }

/-- The events so far. -/
def log (e : Engine) : List Log.Event := e.lookups.log

/-- Changes a rule wherever it is held. -/
def amend (id : Nat) (f : Rule → Rule) (e : Engine) : Engine :=
  let change (r : Rule) : Rule := if r.id == id then f r else r
  { e with
    registry := e.registry.amend id f
    builders := e.builders.map fun b => { b with rules := b.rules.map change }
    configurations := e.configurations.map fun c =>
      { c with lastBuild := c.lastBuild.map change } }

/-- Changes a configuration. -/
def updateConfiguration (c : Nat) (f : Configuration → Configuration) (e : Engine) : Engine :=
  { e with configurations := e.configurations.modify c f }

/-- Changes a builder. -/
def updateBuilder (b : Nat) (f : Builder → Builder) (e : Engine) : Engine :=
  { e with builders := e.builders.modify b f }

/-- A configuration. -/
def configuration (e : Engine) (c : Nat) : Configuration := (e.configurations[c]?).getD default

/-- A builder. -/
def builder (e : Engine) (b : Nat) : Builder := (e.builders[b]?).getD default

/-- The rules of the builders that belong to a configuration. -/
def buildersOf (e : Engine) (c : Configuration) : List (Nat × Builder) :=
  c.builders.filterMap fun b => (e.builders[b]?).map fun builder => (b, builder)

/-- What messages are looked up in. -/
def sources (e : Engine) : Message.Sources := ⟨e.world.schema, e.resources, e.options, e.ambient⟩

end Engine

namespace Action

/-! ## 2. Parts of the engine -/

/-- The result of a computation that changes nothing. -/
def lift (r : Except Fault α) : Action α := fun e => (r, e)

/-- An evaluation in the world of the engine. -/
def eval (x : Eval α) : Action α := fun e =>
  let (r, world) := x.run e.world
  (r, { e with world })

/-- A reflection. -/
def reflecting (x : Reflecting α) : Action α := fun e =>
  let (r, reflected) := x.run e.reflected
  (r, { e with reflected })

/-- A look-up. -/
def lookup (x : Lookup α) : Action α := fun e =>
  let (r, lookups) := x.run e.lookups
  (r, { e with lookups })

/-- The schema. -/
def schema : Action Schema := return (← get).world.schema

/-- Writes an event of a part of the engine to the log. -/
def note (logger name : String) (fields : Details) : Action Unit :=
  modify (Engine.note { logger, name, fields })

/-- An identity for a rule. -/
def freshId : Action Nat := do
  let id := (← get).nextId
  modify fun e => { e with nextId := id + 1 }
  return id

/-- Rules with identities of their own. -/
def numbered (rs : List Rule) : Action (List Rule) := do
  let first := (← get).nextId
  modify fun e => { e with nextId := first + rs.length }
  return Rule.numbered first rs

/-- Adds a report. -/
def report (r : Report) : Action Unit := modify fun e => { e with reports := e.reports ++ [r] }

/-- Takes what has been reported. -/
def takeReports : Action (List Report) := do
  let reports := (← get).reports
  modify fun e => { e with reports := [] }
  return reports

/-- Takes the marks that evaluations have left. -/
def takeTrace : Action (List String) := do
  let trace := (← get).world.trace
  modify fun e => { e with world := { e.world with trace := [] } }
  return trace

/-- Forgets what has been reflected. -/
def forgetReflected : Action Unit := modify fun e => { e with reflected := [] }

/-- Forgets what has been looked up. -/
def forgetLookups : Action Unit :=
  modify fun e => { e with lookups := { e.lookups with known := [] } }

/-- Rules as they are now. -/
def view (rs : List Rule) : Action (List RuleView) := do
  let reg := (← get).registry
  rs.mapM fun r => do return ⟨r, ← lift (reg.ruleWaits r)⟩

/-- The members of a type with their attributes. -/
def members (t : TypeId) : Action (List MemberInfo) := do
  let s ← schema
  reflecting (s.reflect t)

/-- The member that a selector selects. -/
def select (t : TypeId) (sel : Selector) : Action MemberRef := do
  let w := (← get).world
  lift (w.schema.select t (sel.captured w))

/-! ## 3. The registry -/

/-- Changes the registry. -/
def updateRegistry (f : Registry → Registry) : Action Unit :=
  modify fun e => { e with registry := f e.registry }

/-- Marks a type as complete if `built`, and tells the log about rules that were added to it. -/
def noteAdded (t : TypeId) (count : Nat) (built : Bool) : Action Unit := do
  if built then updateRegistry fun reg => reg.mark t
  note "registry" "rules_added"
    [("model_type", .text t.name), ("count", .int count), ("built", .bool built)]

/-- Adds rules to a type and marks it as complete. -/
def addRules (t : TypeId) (rs : List Rule) (built : Bool := true) : Action Unit := do
  updateRegistry fun reg => reg.addAll t rs
  noteAdded t rs.length built

/-- Tells the log about removed rules, if there are any. -/
def noteRemoved (t : TypeId) (member : Option MemberRef) (count : Nat) : Action Unit :=
  if count == 0 then return
  else
    note "registry" "rules_removed"
      [("model_type", .text t.name),
        ("member", match member with
          | some m => .text m.name
          | none => .none),
        ("count", .int count)]

/-- Removes the rules of a type, or of one of its members, that are `doomed`. -/
def removeRules (t : TypeId) (member : Option MemberRef) (doomed : Rule → Bool := fun _ => true) :
    Action Nat := do
  let count := (← get).registry.countWhere t (member.map MemberRef.key) doomed
  updateRegistry fun reg => reg.removeWhere t (member.map MemberRef.key) doomed
  noteRemoved t member count
  return count

/-! ## 4. Declared rules -/

/-- The declared rules of a type. -/
def declaredRules (t : TypeId) : Action (List Rule) := do
  let ms ← members t
  let rs ← lift ((← schema).declaredRules t ms)
  let rs ← numbered rs
  note "registry" "attributes_adapted"
    [("model_type", .text t.name), ("rules", .int rs.length)]
  return rs

/-- The types that rules apply to nested values, in order. -/
def nestedModels (rs : List Rule) : List TypeId :=
  rs.filterMap fun r => r.check?.bind Check.nestedModel?

/-- Registers the declared rules of a type that is not known, and then those of the types nested in
it; `depth` bounds the nesting. -/
def ensureWithin : Nat → TypeId → Action Unit
  | 0, _ => throw .tooDeep
  | depth + 1, t => do
    if (← get).registry.knows t then return
    let rs ← declaredRules t
    addRules t rs
    (nestedModels rs).forM (ensureWithin depth)

/-- Registers the declared rules of a type that is not known, and of the types nested in it. Every
type that is entered becomes known, so the nesting ends. -/
def ensure (t : TypeId) : Action Unit := do
  ensureWithin ((← schema).types.length + 2) t

/-! ## 5. Messages -/

/-- The text of a computed message. -/
def computedText (rule : Option Rule) (object : Value) : Action (Option String) := do
  match rule.bind Rule.message with
  | some (.computed e) =>
    let v ← eval (e.eval (.of object))
    return some (← lift ((← get).world.captured v).printed?)
  | _ => return none

/-- The message that is wanted, for an object. -/
def message (w : Message.Wanted) (object : Value) : Action String := do
  let computed ← computedText w.rule object
  let e ← get
  let shown := { w with validator := w.validator.map (Attribute.captured e.world) }
  lookup (Message.resolve e.sources shown computed)

end Action
end MemberRules
