/-
# The parts of long configuration steps

Putting a member away, starting a rule and building a configuration do several things, one after the
other.  Here each of these steps is written as its parts.  A property of the step is then shown from
the same property of its parts, and what the step does in which order is said in this file only.

* `Action.putAway`, `commit_of_current_eq_some`: the member that was started last is taken, and then
  put away.
* `Action.furnish`, `startRule_eq`: a member is selected, started anew, and furnished.
* `Action.gather`, `Action.finish`, `build_eq`: rules are gathered first, and registered then.
-/
import MemberRules.Configuration.Gathering
import MemberRules.Proofs.Computation

namespace MemberRules.Action

open MemberRules.Computation

variable {α : Type} {c : Nat} {e : Engine}

theorem configuration_bind (f : Configuration → Action α) :
    (configuration c >>= f) e = f (e.configuration c) e := bind_ok rfl

/-! ## 1. Putting a member away -/

/-- Puts a member away, which must have a check if the configuration enforces this. -/
def putAway (c : Nat) (cfg : Configuration) (p : PendingRule) : Action Unit := do
  if p.checks.isEmpty && !p.excluded && cfg.enforce then
    if !(← hasChecks cfg p.member) then refuse (AppError.missingRule cfg.type p.member.name)
  updateConfiguration c fun cfg => { cfg with pending := cfg.pending ++ [p] }

theorem commit_of_current_eq_none (h : (e.configuration c).current = none) :
    commit c e = (.ok (), e) := by
  unfold commit
  rw [configuration_bind, h]
  rfl

theorem commit_of_current_eq_some {p : PendingRule} (h : (e.configuration c).current = some p) :
    commit c e = putAway c (e.configuration c) p
      (e.updateConfiguration c fun cfg => { cfg with current := none }) := by
  unfold commit
  rw [configuration_bind, h]
  rfl

/-! ## 2. Starting a rule -/

/-- Gives a member that was just started its condition and its message. -/
def furnish (c : Nat) (must : Option Expr) (message : Option MessageSource) : Action Unit := do
  must.elim (pure ()) fun x => attach c { check := .must x }
  message.elim (pure ()) fun s => checkStep c (.message (some s))

/-- A rule is started in three parts: the member is selected, started anew and furnished. -/
theorem startRule_eq (c : Nat) (sel : Selector) (must : Option Expr)
    (message : Option MessageSource) (replace : Bool) :
    startRule c sel must message replace = (do
      let m ← begin c sel
      if replace then drop c m
      start c { member := m }
      furnish c must message) := by
  cases must <;> cases message <;> rfl

theorem furnish_keeps {I : Engine → Prop}
    (hattach : ∀ a, Keeps I (attach c a)) (hcheck : ∀ s, Keeps I (checkStep c s))
    (must : Option Expr) (message : Option MessageSource) : Keeps I (furnish c must message) := by
  have hmessage : Keeps I (message.elim (pure ()) fun s => checkStep c (.message (some s))) := by
    cases message with
    | none => exact .pure trivial
    | some s => exact hcheck (.message (some s))
  cases must with
  | none => exact .andThen (.pure (P := fun _ => True) trivial) fun _ => hmessage
  | some x => exact .andThen (hattach _) fun _ => hmessage

/-! ## 3. Building -/

/-- The rules that a configuration registers when it is built, gathered but not yet registered. -/
def gather (cfg : Configuration) : Action (List Rule) := do
  if cfg.isIdle then return []
  let again ← if cfg.settingsChanged then recompleted cfg else pure []
  let gathered ← cfg.pending.mapM (pendingRules cfg)
  let built ← builderRules cfg
  let providers ← cfg.providers.mapM (providerRule cfg)
  return again ++ gathered.flatten ++ built ++ providers

/-- Gathers the rules that are new, behind those that are registered again. -/
def gatherAfter (cfg : Configuration) (again : List Rule) : Action (List Rule) := do
  let gathered ← cfg.pending.mapM (pendingRules cfg)
  let built ← builderRules cfg
  let providers ← cfg.providers.mapM (providerRule cfg)
  return again ++ gathered.flatten ++ built ++ providers

/-- Declared rules are registered again if the settings have changed. -/
theorem gather_eq (cfg : Configuration) :
    gather cfg = if cfg.isIdle then pure []
      else if cfg.settingsChanged then recompleted cfg >>= gatherAfter cfg
      else gatherAfter cfg [] := by
  unfold gather gatherAfter
  cases cfg.isIdle <;> cases cfg.settingsChanged <;> rfl

/-- Registers gathered rules, marks the type as complete, and empties the configuration. -/
def finish (c : Nat) (cfg : Configuration) (rs : List Rule) : Action (List Rule) := do
  addRules cfg.type rs
  note "builder" "type_built"
    [("model_type", .text cfg.type.name), ("rules", .int rs.length),
      ("members", .int (rs.map fun r => r.member.key).eraseDups.length)]
  updateConfiguration c fun cfg =>
    { cfg.emptied with lastBuild := rs, settingsChanged := false }
  return rs

/-- Building gathers first, and registers then, if there is anything to gather. -/
theorem build_eq (c : Nat) : build c = (do
    commit c
    let cfg ← configuration c
    if cfg.isIdle then
      updateRegistry fun reg => reg.mark cfg.type
      return cfg.lastBuild
    else
      let rs ← gather cfg
      finish c cfg rs) := by
  unfold build gather finish
  congr 1
  funext done
  congr 1
  funext cfg
  cases cfg.isIdle with
  | true => rfl
  | false =>
    cases cfg.settingsChanged <;>
      simp only [Bool.false_eq_true, if_false, if_true, bind_assoc, pure_bind]

end MemberRules.Action
