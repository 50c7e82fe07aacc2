/-
# Gathering rules

What the steps of a configuration do to an engine. A step on a type that selects a member first
puts away the member that was started before it, which must have a check if the configuration
enforces this, and marks the rules of the type as incomplete. Building registers everything that
was gathered, in order: the rules of the type once more if settings for all rules have changed, what
was gathered member by member, the rules of the builders, and the value providers.
-/
import MemberRules.Engine.Basic

namespace MemberRules
namespace Action

/-! ## 1. Parts of a configuration -/

/-- Fails with a configuration error. -/
def refuse (e : AppError) : Action α := throw (.configuration e)

/-- A configuration. -/
def configuration (c : Nat) : Action Configuration := return (← get).configuration c

/-- Changes a configuration. -/
def updateConfiguration (c : Nat) (f : Configuration → Configuration) : Action Unit :=
  modify (Engine.updateConfiguration c f)

/-- Changes the member that was started last. -/
def updateCurrent (c : Nat) (f : PendingRule → PendingRule) : Action Unit :=
  updateConfiguration c fun cfg => { cfg with current := cfg.current.map f }

/-- Starts a member. -/
def start (c : Nat) (p : PendingRule) : Action Unit :=
  updateConfiguration c fun cfg => { cfg with current := some p }

/-- Marks the rules of the type as incomplete. -/
def touch (c : Nat) : Action Unit := do
  let cfg ← configuration c
  updateRegistry fun reg => reg.mark cfg.type false

/-- Whether a member has a check, registered or gathered. -/
def hasChecks (cfg : Configuration) (m : MemberRef) : Action Bool := do
  let e ← get
  return (e.registry.rulesOfMember cfg.type m.key).any Rule.hasCheck ||
    (cfg.pending.any fun p => p.member.key == m.key && !p.checks.isEmpty) ||
    (e.buildersOf cfg).any fun b => b.2.member.key == m.key && !b.2.rules.isEmpty

/-- Puts away the member that was started last. -/
def commit (c : Nat) : Action Unit := do
  let cfg ← configuration c
  match cfg.current with
  | none => return
  | some p =>
    updateConfiguration c fun cfg => { cfg with current := none }
    if p.checks.isEmpty && !p.excluded && cfg.enforce then
      if !(← hasChecks cfg p.member) then refuse (AppError.missingRule cfg.type p.member.name)
    updateConfiguration c fun cfg => { cfg with pending := cfg.pending ++ [p] }

/-- Selects a member for a step that starts over. -/
def begin (c : Nat) (sel : Selector) : Action MemberRef := do
  commit c
  touch c
  select (← configuration c).type sel

/-- The name for display of a member. -/
def displayName (t : TypeId) (name : String) : Action String := do
  match (← members t).find? fun m => m.member.name == name with
  | some m => return m.displayName
  | none => return name

/-- A new rule for a check of a member. -/
def newRule (t : TypeId) (m : MemberRef) (a : Attribute) (forEach : Bool := false) : Action Rule := do
  let display ← displayName t m.name
  let id ← freshId
  return {
    id
    member := m
    validator := some a
    propertyName := some display
    uniqueKey := .fresh a.check.shortName id t m.name
    source := .built
    forEach }

/-- A new rule without a check, under a key of a kind. -/
def newCarrier (t : TypeId) (m : MemberRef) (kind : String) : Action Rule := do
  let id ← freshId
  return { id, member := m, uniqueKey := .fresh kind id t m.name, source := .carrier }

/-- A copy of a rule, which later changes of the rule do not reach. -/
def copied (r : Rule) : Action Rule := do
  return { r with id := ← freshId }

/-- The attribute of a step, which must be possible for the type. -/
def usable (t : TypeId) (a : Except Fault Attribute) : Action Attribute := do
  let a ← lift a
  lift (a.check.requireResolvable (← schema) t)
  return a

/-- Sets the value provider of a member, which may have only one and must be writable. -/
def provide (c : Nat) (m : MemberRef) (e : Expr) : Action Unit := do
  let cfg ← configuration c
  let registered := ((← get).registry.rulesOfMember cfg.type m.key).any fun r => r.provider.isSome
  if (cfg.providers.any fun p => p.1.key == m.key) || registered then
    refuse (AppError.duplicateProvider m)
  if !m.isWritable (← schema) then refuse (AppError.unwritable m)
  updateConfiguration c fun cfg => { cfg with providers := cfg.providers ++ [(m, e)] }

/-! ## 2. Starting a configuration -/

/-- A configuration of a type, with the declared rules of the type registered. -/
def newConfiguration (t : TypeId) : Action Nat := do
  ensure t
  let c := (← get).configurations.length
  modify fun e => { e with configurations := e.configurations ++
    [{ type := t, resource := e.world.schema.resourceOf t, enforce := e.options.enforce }] }
  return c

/-- The configuration of a type; it goes on if there is one. -/
def configure (t : TypeId) : Action Nat := do
  match (← get).configured.lookup t with
  | some c => return c
  | none =>
    let c ← newConfiguration t
    modify fun e => { e with configured := e.configured ++ [(t, c)] }
    return c

/-- A configuration of the type of nested values, with the settings of the one around it. -/
def newChild (c : Nat) (t : TypeId) : Action Nat := do
  let child ← newConfiguration t
  let cfg ← configuration c
  updateConfiguration child fun inner =>
    { inner with
      resource := inner.resource.or cfg.resource
      culture := cfg.culture
      fallback := cfg.fallback
      conventionalKeys := cfg.conventionalKeys
      enforce := cfg.enforce
      settingsChanged := true }
  return child

/-! ## 3. Steps on a type -/

/-- The member that was started last, for an operation that needs one. -/
def requireCurrent (c : Nat) (operation : String) : Action PendingRule := do
  match (← configuration c).current with
  | some p => return p
  | none => refuse (AppError.needsMember operation)

/-- Attaches an attribute to the member that was started last. -/
def attach (c : Nat) (a : Attribute) : Action Unit := do
  let _ ← requireCurrent c a.check.kind
  updateCurrent c fun p => { p with checks := p.checks ++ [{ validator := a }] }

/-- A step on the member that was started last. -/
def checkStep (c : Nat) : CheckStep → Action Unit
  | .attach a => do attach c (← usable (← configuration c).type a)
  | .message m => do
    let _ ← requireCurrent c "with_message"
    updateCurrent c (PendingRule.setMessage m)
  | .code key => do
    let _ ← requireCurrent c "with_key"
    updateCurrent c (PendingRule.setCode key)
  | .resourceKey key => do
    let _ ← requireCurrent c "localized"
    updateCurrent c (PendingRule.setResourceKey key)
  | .provide e => do
    let p ← requireCurrent c "before_validation"
    provide c p.member e

/-- Drops what is registered and gathered for a member. -/
def drop (c : Nat) (m : MemberRef) : Action Unit := do
  let _ ← removeRules (← configuration c).type (some m)
  updateConfiguration c (Configuration.dropPending m.key)

/-- Starts a member. -/
def startRule (c : Nat) (sel : Selector) (must : Option Expr) (message : Option MessageSource)
    (replace : Bool) : Action Unit := do
  let m ← begin c sel
  if replace then drop c m
  start c { member := m }
  match must with
  | some e => attach c { check := .must e }
  | none => pure ()
  match message with
  | some s => checkStep c (.message (some s))
  | none => pure ()

/-- Makes a builder. -/
def newBuilder (c : Nat) (sel : Selector) (forEach : Bool) (name : Option String) : Action Nat := do
  let m ← begin c sel
  let b := (← get).builders.length
  modify fun e => { e with
    builders := e.builders ++ [{ owner := c, member := m, forEach }]
    named := match name with
      | some n => (n, b) :: e.named
      | none => e.named }
  updateConfiguration c fun cfg => { cfg with builders := cfg.builders ++ [b] }
  return b

/-- The member that a gate is about becomes the one that was started last, unless it is already and
has checks. -/
def startGated (c : Nat) (sel : Option Selector) : Action Unit := do
  match sel with
  | none =>
    if (← configuration c).current.isNone then refuse AppError.needsSelector
    updateCurrent c fun p => { p with conditioned := true }
  | some sel =>
    touch c
    let m ← select (← configuration c).type sel
    let continues := (← configuration c).current.any fun p =>
      !p.checks.isEmpty && p.member.key == m.key
    if continues then updateCurrent c fun p => { p with conditioned := true }
    else
      commit c
      start c { member := m, conditioned := true }

/-- A gate with a guard set: one that does not wait also takes away one that waits. -/
def setGuard : Guard → Gate → Gate
  | .plain condition, _ => ⟨some condition, none⟩
  | .async condition, g => { g with asyncCondition := some condition }

/-- Drops a member and leaves it without rules. -/
def exclude (c : Nat) (sel : Selector) : Action Unit := do
  let m ← begin c sel
  drop c m
  let e ← get
  updateConfiguration c fun cfg =>
    { cfg with builders := cfg.builders.filter fun b => (e.builder b).member.key != m.key }
  start c { member := m, gate := { condition := some .never }, conditioned := true, excluded := true }

/-- Takes the gate from the declared rules of a member. -/
def always (c : Nat) (sel : Selector) : Action Unit := do
  let m ← begin c sel
  start c { member := m, conditioned := true }

/-- Changes a setting for all rules. -/
def changeSetting (c : Nat) (f : Configuration → Configuration) : Action Unit :=
  updateConfiguration c fun cfg => { f cfg with settingsChanged := true }

/-- Whether an attribute goes when those of a kind are dropped, or all of them. -/
def isDropped (kind : Option String) (a : Attribute) : Bool :=
  kind.all fun k => a.check.isOfKind k

/-- Drops the rules of a member whose check is of a kind, or all of them. -/
def dropMember (c : Nat) (sel : Selector) (kind : Option String) : Action Unit := do
  let m ← begin c sel
  touch c
  let cfg ← configuration c
  let _ ← removeRules cfg.type (some m) fun r => kind.all r.checkIsOfKind
  updateConfiguration c fun cfg =>
    { cfg with pending := cfg.pending.map fun p =>
        if p.member.key == m.key then
          { p with checks := p.checks.filter fun k => !isDropped kind k.validator }
        else p }
  cfg.builders.forM fun b =>
    modify (Engine.updateBuilder b fun builder =>
      if builder.member.key == m.key then
        { builder with rules := builder.rules.filter fun r =>
            !r.validator.all (isDropped kind) }
      else builder)

/-- Drops the rules of all members but one. -/
def keepOnly (c : Nat) (sel : Selector) : Action Unit := do
  let m ← begin c sel
  touch c
  let _ ← removeRules (← configuration c).type none fun r => r.member.key != m.key
  let e ← get
  updateConfiguration c fun cfg =>
    { cfg with
      pending := cfg.pending.filter fun p => p.member.key == m.key
      builders := cfg.builders.filter fun b => (e.builder b).member.key == m.key }

/-- Drops all rules. -/
def clear (c : Nat) : Action Unit := do
  commit c
  touch c
  let _ ← removeRules (← configuration c).type none
  updateConfiguration c Configuration.emptied

/-- Puts away the member that was started last and goes on with another type. -/
def switch (c : Nat) (t : TypeId) : Action Nat := do
  commit c
  configure t

/-! ## 4. Building -/

/-- The rule of a check that was gathered for a member. -/
def pendingRule (cfg : Configuration) (p : PendingRule) (k : PendingCheck) : Action Rule := do
  let r ← newRule cfg.type p.member k.validator
  return cfg.complete { r with
    gate := p.gate
    message := k.message.or p.message
    errorKey := (Message.present k.code).or p.code
    resourceKey := (Message.present k.resourceKey).or p.resourceKey }

/-- A declared rule with what was gathered for its member. -/
def declaredWith (cfg : Configuration) (p : PendingRule) (r : Rule) : Rule :=
  cfg.complete { r with
    gate := if p.conditioned then p.gate else r.gate
    message := p.message.or r.message
    errorKey := (Message.present p.code).or r.errorKey
    resourceKey := (Message.present p.resourceKey).or r.resourceKey }

/-- The rules that come from what was gathered for a member: one for each check, or else its
declared rules and a carrier of the gate. -/
def pendingRules (cfg : Configuration) (p : PendingRule) : Action (List Rule) := do
  if p.checks.isEmpty then
    let declared := ((← get).registry.rulesOfMember cfg.type p.member.key).filter fun r =>
      r.source == .declared
    let updated ← (declared.map (declaredWith cfg p)).mapM copied
    let carrier ← newCarrier cfg.type p.member "Condition"
    return updated ++ [{ carrier with gate := p.gate }]
  else p.checks.mapM (pendingRule cfg p)

/-- The registered rules of a type with the settings for all rules. -/
def recompleted (cfg : Configuration) : Action (List Rule) := do
  let rs := ((← get).registry.rulesOf cfg.type).filter Rule.hasCheck
  (rs.map cfg.complete).mapM copied

/-- The rules of the builders, with the settings for all rules. -/
def builderRules (cfg : Configuration) : Action (List Rule) := do
  let rs := ((← get).buildersOf cfg).flatMap fun b => b.2.rules
  rs.forM fun r => modify (Engine.amend r.id cfg.complete)
  return rs.map cfg.complete

/-- The rule that carries a value provider. -/
def providerRule (cfg : Configuration) (p : MemberRef × Expr) : Action Rule := do
  let carrier ← newCarrier cfg.type p.1 "ValueProvider"
  return { carrier with provider := some p.2 }

/-- Registers everything that was gathered and marks the type as complete. -/
def build (c : Nat) : Action (List Rule) := do
  commit c
  let cfg ← configuration c
  if cfg.isIdle then
    updateRegistry fun reg => reg.mark cfg.type
    return cfg.lastBuild
  let again ← if cfg.settingsChanged then recompleted cfg else pure []
  let gathered ← cfg.pending.mapM (pendingRules cfg)
  let built ← builderRules cfg
  let providers ← cfg.providers.mapM (providerRule cfg)
  let rs := again ++ gathered.flatten ++ built ++ providers
  addRules cfg.type rs
  note "builder" "type_built"
    [("model_type", .text cfg.type.name), ("rules", .int rs.length),
      ("members", .int (rs.map fun r => r.member.key).eraseDups.length)]
  updateConfiguration c fun cfg =>
    { cfg.emptied with lastBuild := rs, settingsChanged := false }
  return rs

/-- Builds every type that has been configured. -/
def buildAll : Action Unit := do
  (← get).configured.forM fun e => do
    let _ ← build e.2

/-! ## 5. Steps of a builder -/

/-- A builder. -/
def builder (b : Nat) : Action Builder := return (← get).builder b

/-- The type that a builder makes rules for. -/
def builderType (b : Nat) : Action TypeId := do
  return (← configuration (← builder b).owner).type

/-- Attaches an attribute to the member of a builder. -/
def attachTo (b : Nat) (a : Attribute) : Action Unit := do
  let current ← builder b
  let r ← newRule (← builderType b) current.member a current.forEach
  modify (Engine.updateBuilder b fun builder => { builder with rules := builder.rules ++ [r] })

/-- Changes the rule that was attached last. -/
def amendLast (b : Nat) (operation : String) (f : Rule → Rule) : Action Unit := do
  let current ← builder b
  match current.rules.getLast? with
  | some r => modify (Engine.amend r.id f)
  | none => refuse (AppError.needsRule operation current.member)

/-- A step on the rule that was attached last. -/
def builderCheckStep (b : Nat) : CheckStep → Action Unit
  | .attach a => do attachTo b (← usable (← builderType b) a)
  | .message m => amendLast b "with_message" fun r => { r with message := m }
  | .code key => amendLast b "with_key" fun r => { r with errorKey := key }
  | .resourceKey key => amendLast b "localized" fun r => { r with resourceKey := key }
  | .provide e => do
    let current ← builder b
    provide current.owner current.member e

/-- Runs a block and gives the rules that it attached. -/
def block (b : Nat) (steps : Action Unit) : Action (List Rule) := do
  let before := (← builder b).rules.length
  steps
  return (← builder b).rules.drop before

/-- Puts a guard in front of the gates of rules. -/
def guardRules (g : Guard) (rs : List Rule) : Action Unit :=
  rs.forM fun r => modify (Engine.amend r.id fun r => { r with gate := r.gate.guarded g })

/-- Gates the rules of a block, which must have some. -/
def whenBlock (b : Nat) (g : Guard) (steps : Action Unit) : Action Unit := do
  let added ← block b steps
  if added.isEmpty then refuse (AppError.emptyBlock (← builder b).member)
  guardRules g added
  modify (Engine.updateBuilder b fun builder => { builder with lastGuard := some g })

/-- Gates the rules of a block with the opposite of the guard of the block before. -/
def otherwise (b : Nat) (steps : Action Unit) : Action Unit := do
  match (← builder b).lastGuard with
  | none => refuse AppError.needsBlock
  | some g =>
    let added ← block b steps
    guardRules g.negate added
    modify (Engine.updateBuilder b fun builder => { builder with lastGuard := none })

/-- The type of the values that nested rules are for. -/
def nestedType (b : Nat) (element : Option TypeId) : Action TypeId := do
  let current ← builder b
  let t ← builderType b
  let s ← schema
  let target ← match element with
    | some t => pure (some t)
    | none =>
      if current.forEach then
        pure ((← lift (s.elementHint? t current.member.name)).bind Hint.type?)
      else lift (s.valueType? t current.member.name)
  match target with
  | some t => return t
  | none => refuse (AppError.unknownElement current.member)

/-- Configures and builds the rules of nested values and attaches a check by them. -/
def childRules (b : Nat) (element : Option TypeId) (steps : Nat → Action Unit) : Action Unit := do
  let t ← nestedType b element
  let child ← newChild (← builder b).owner t
  steps child
  let _ ← build child
  attachTo b { check := .childRules t }

end Action

/-! ## 6. Running steps -/

mutual

/-- Runs a step on a configuration and gives the configuration that the next step is for. -/
def TypeStep.run (c : Nat) : TypeStep → Action Nat
  | .check s => do Action.checkStep c s; return c
  | .rule sel must message replace => do Action.startRule c sel must message replace; return c
  | .builder sel forEach name steps => do
    let b ← Action.newBuilder c sel forEach name
    runBuilderSteps b steps
    return c
  | .gate sel g => do
    Action.startGated c sel
    Action.updateCurrent c fun p => { p with gate := Action.setGuard g p.gate }
    return c
  | .exclude sel => do Action.exclude c sel; return c
  | .always sel => do Action.always c sel; return c
  | .resource name => do Action.changeSetting c fun cfg => { cfg with resource := name }; return c
  | .culture name => do
    let culture ← Action.lift (Culture.parse name)
    Action.changeSetting c fun cfg => { cfg with culture }
    return c
  | .fallback text => do
    Action.changeSetting c fun cfg => { cfg with fallback := text }
    return c
  | .withoutConventionalKeys => do
    Action.changeSetting c fun cfg => { cfg with conventionalKeys := false }
    return c
  | .enforce on => do
    Action.updateConfiguration c fun cfg => { cfg with enforce := on }
    return c
  | .dropMember sel kind => do Action.dropMember c sel kind; return c
  | .keepOnly sel => do Action.keepOnly c sel; return c
  | .clear => do Action.clear c; return c
  | .switch t => Action.switch c t
  | .build => do
    let rs ← Action.build c
    Action.report (.rules (← Action.view rs))
    return c
  | .describe => do
    Action.report (.line (← Action.configuration c).text)
    return c

/-- Runs steps on a configuration one after the other. -/
def runTypeSteps (c : Nat) : List TypeStep → Action Unit
  | [] => return
  | s :: rest => do runTypeSteps (← s.run c) rest

/-- Runs a step of a builder. -/
def BuilderStep.run (b : Nat) : BuilderStep → Action Unit
  | .check s => Action.builderCheckStep b s
  | .whenBlock g steps => Action.whenBlock b g (runBuilderSteps b steps)
  | .otherwise steps => Action.otherwise b (runBuilderSteps b steps)
  | .childRules steps element =>
    Action.childRules b element fun child => runTypeSteps child steps
  | .rules => do Action.report (.rules (← Action.view (← Action.builder b).rules))

/-- Runs steps of a builder one after the other. -/
def runBuilderSteps (b : Nat) : List BuilderStep → Action Unit
  | [] => return
  | s :: rest => do s.run b; runBuilderSteps b rest

end

/-- Runs steps on a type until one of them fails, and gives the place of that step with the
fault. -/
def configureUntilFault (c : Nat) (place : Nat) : List TypeStep → Action (Option (Nat × Fault))
  | [] => return none
  | s :: rest => fun e =>
    match s.run c e with
    | (.ok next, e) => configureUntilFault next (place + 1) rest e
    | (.error f, e) => (.ok (some (place, f)), e)

end MemberRules
