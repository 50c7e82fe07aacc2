/-
# Configuration steps and what they gather

The rules of a type are configured in steps. Steps on a type select members and gather, member by
member, checks, a gate and messages, or settings for all rules of the type; steps on a builder
gather rules of one member. Nothing reaches the registry before the type is built.

A step that opens a block holds the steps of the block.
-/
import MemberRules.Rule.Basic

namespace MemberRules

/-! ## 1. Steps -/

/-- A step that both a type and a builder have. -/
inductive CheckStep
  /-- Attaches an attribute, if it can be declared. -/
  | attach (a : Except Fault Attribute)
  /-- Sets the message of what was attached last. -/
  | message (m : Option MessageSource)
  /-- Sets the code of the failures of what was attached last. -/
  | code (key : Option String)
  /-- Names the resource string of what was attached last. -/
  | resourceKey (key : Option String)
  /-- Sets the expression that replaces the value of the member before it is checked. -/
  | provide (e : Expr)
  deriving Inhabited

mutual

/-- A step of the configuration of a type. -/
inductive TypeStep
  | check (s : CheckStep)
  /-- Starts a member; with `replace`, its rules are dropped. -/
  | rule (sel : Selector) (must : Option Expr) (message : Option MessageSource) (replace : Bool)
  /-- Makes a builder for a member, or for its elements, and runs its steps. -/
  | builder (sel : Selector) (forEach : Bool) (name : Option String) (steps : List BuilderStep)
  /-- Gates a member, or the one that was started last. -/
  | gate (sel : Option Selector) (g : Guard)
  /-- Drops the rules of a member and leaves it without any. -/
  | exclude (sel : Selector)
  /-- Takes the gate from the declared rules of a member. -/
  | always (sel : Selector)
  | resource (name : Option String)
  | culture (name : Option String)
  | fallback (text : Option String)
  | withoutConventionalKeys
  /-- Whether a member that is selected must get a rule. -/
  | enforce (on : Bool)
  /-- Drops the rules of a member whose check is of a kind, or all of them. -/
  | dropMember (sel : Selector) (kind : Option String)
  /-- Drops the rules of all other members. -/
  | keepOnly (sel : Selector)
  /-- Drops all rules. -/
  | clear
  /-- Goes on with another type. -/
  | switch (t : TypeId)
  | build
  /-- Reports the state of the configuration in one line. -/
  | describe

/-- A step of a builder. -/
inductive BuilderStep
  | check (s : CheckStep)
  /-- Gates the rules of a block. -/
  | whenBlock (g : Guard) (steps : List BuilderStep)
  /-- Gates the rules of a block with the opposite of the block before. -/
  | otherwise (steps : List BuilderStep)
  /-- Configures the rules of nested values; their type is inferred unless it is given. -/
  | childRules (steps : List TypeStep) (element : Option TypeId)
  /-- Reports the rules gathered so far. -/
  | rules

end

instance : Inhabited TypeStep := ⟨.build⟩

instance : Inhabited BuilderStep := ⟨.rules⟩

/-! ## 2. What is gathered -/

/-- A check of a member with the settings that were made for it. -/
structure PendingCheck where
  validator : Attribute
  message : Option MessageSource := none
  code : Option String := none
  resourceKey : Option String := none
  deriving Inhabited

/-- What has been gathered for a member. -/
structure PendingRule where
  member : MemberRef
  checks : List PendingCheck := []
  gate : Gate := {}
  /-- Whether the gate replaces that of the declared rules. -/
  conditioned : Bool := false
  /-- Whether the member is to be left without rules. -/
  excluded : Bool := false
  message : Option MessageSource := none
  code : Option String := none
  resourceKey : Option String := none
  deriving Inhabited

namespace PendingRule

/-- Changes the check that was attached last. -/
def amendLast (f : PendingCheck → PendingCheck) : List PendingCheck → List PendingCheck
  | [] => []
  | [c] => [f c]
  | c :: cs => c :: amendLast f cs

/-- Sets the message of the last check, or of the declared rules if there is none. -/
def setMessage (m : Option MessageSource) (p : PendingRule) : PendingRule :=
  if p.checks.isEmpty then { p with message := m }
  else { p with checks := amendLast (fun c => { c with message := m }) p.checks }

/-- Sets the code of the last check, or of the declared rules if there is none. -/
def setCode (key : Option String) (p : PendingRule) : PendingRule :=
  if p.checks.isEmpty then { p with code := key }
  else { p with checks := amendLast (fun c => { c with code := key }) p.checks }

/-- Names the resource string of the last check, or of the declared rules if there is none. -/
def setResourceKey (key : Option String) (p : PendingRule) : PendingRule :=
  if p.checks.isEmpty then { p with resourceKey := key }
  else { p with checks := amendLast (fun c => { c with resourceKey := key }) p.checks }

end PendingRule

/-- A builder of rules for one member. -/
structure Builder where
  /-- The configuration that the builder belongs to. -/
  owner : Nat
  member : MemberRef
  forEach : Bool := false
  rules : List Rule := []
  /-- The guard of the block before. -/
  lastGuard : Option Guard := none
  deriving Inhabited

/-- The configuration of a type, as far as it has been gathered. -/
structure Configuration where
  type : TypeId
  pending : List PendingRule := []
  /-- The member that steps without a selector are about. -/
  current : Option PendingRule := none
  /-- The builders whose rules will be registered. -/
  builders : List Nat := []
  providers : List (MemberRef × Expr) := []
  resource : Option String := none
  culture : Option Culture := none
  fallback : Option String := none
  conventionalKeys : Bool := true
  /-- Whether settings for all rules have changed since the type was built. -/
  settingsChanged : Bool := false
  enforce : Bool := true
  /-- What the last build registered. -/
  lastBuild : List Rule := []
  deriving Inhabited

namespace Configuration

/-- A rule with the settings for all rules in the places that the rule leaves open. -/
def complete (c : Configuration) (r : Rule) : Rule :=
  { r with
    resource := r.resource.or c.resource
    culture := r.culture.or c.culture
    fallback := r.fallback.or c.fallback
    conventionalKeys := r.conventionalKeys && c.conventionalKeys }

/-- Whether nothing has been gathered. -/
def isIdle (c : Configuration) : Bool :=
  c.pending.isEmpty && c.builders.isEmpty && c.providers.isEmpty && !c.settingsChanged

/-- A configuration in one line. -/
def text (c : Configuration) : String :=
  "FluentTypeConfigurator(" ++ c.type.name ++ ", pending=" ++
    Number.natText c.pending.length ++ ")"

/-- The configuration without what was gathered for a member. -/
def dropPending (k : MemberKey) (c : Configuration) : Configuration :=
  { c with pending := c.pending.filter fun p => p.member.key != k }

/-- The configuration with nothing gathered. -/
def emptied (c : Configuration) : Configuration :=
  { c with pending := [], builders := [], providers := [] }

end Configuration

namespace AppError

/-- The error of a step that needs a member. -/
def needsMember (operation : String) : AppError :=
  builder (operation ++ "(...) must follow rule(...) or when(...).")

/-- The error of a gate without a member. -/
def needsSelector : AppError :=
  builder "when(condition) must follow rule(...); use when(selector, condition)."

/-- The error of a step that needs a rule of the builder. -/
def needsRule (operation : String) (m : MemberRef) : AppError :=
  builder (operation ++ "(...) must follow a rule for " ++ m.text ++ ".")

/-- The error of a block without rules. -/
def emptyBlock (m : MemberRef) : AppError :=
  builder ("No rules configured within the conditional block for " ++ m.text ++ ".")
    .emptyConditionalBlock

/-- The error of an opposite without a block before it. -/
def needsBlock : AppError :=
  builder "otherwise(...) must follow a call to when(...) or when_async(...)."

/-- The error of nested rules for values of no single type. -/
def unknownElement (m : MemberRef) : AppError :=
  builder ("Cannot infer the element type of " ++ m.text ++ "; pass element_type.")
    .invalidRuleDefinition

/-- The error of a second value provider. -/
def duplicateProvider (m : MemberRef) : AppError :=
  builder ("A value provider is already registered for " ++ m.text ++ ".")
    .duplicateValueProvider

/-- The error of a value provider for a member that cannot be written. -/
def unwritable (m : MemberRef) : AppError :=
  builder ("before_validation needs a writable member; " ++ m.text ++ " is a " ++ m.kind.name ++ ".")
    .unsupportedMember

/-- The error of a type whose configuration is not complete. -/
def notBuilt (t : TypeId) : AppError :=
  configuration ("Rules for " ++ t.name ++ " are not finalized; call build() on its configurator.")
    .rulesNotBuilt "executor" []

end AppError
end MemberRules
