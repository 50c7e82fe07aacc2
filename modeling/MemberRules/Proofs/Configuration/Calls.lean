/-
# Calls that configure rules

Rules are configured by calls: on any configurations and builders, in any order, and with blocks of
nested rules begun and ended in between.  Calls are single steps here.  A block is begun and ended
by a call, and the steps in it are calls of their own; a call that fails leaves what it did until
then, and the next call goes on from there.  Every run of configuration steps is made of such
calls.

A call is safe, or builds a configuration.  So from one call to the next, the type of an open
configuration stays marked as incomplete, unless another configuration of the type is built.

* `Engine.Call`, `Engine.afterCalls`: calls, one after the other.
* `Action.MadeOfCalls`: a step of the engine that is made of calls.
* `runTypeSteps_madeOfCalls`, `runBuilderSteps_madeOfCalls`: every run of configuration steps is.
* `Call.after_safe`, `Call.after_of_builds`: what a call leaves.
* `Shields.afterCalls`: the type of an open configuration stays marked.
-/
import MemberRules.Proofs.Configuration.Work

namespace MemberRules

open MemberRules.Computation MemberRules.Engine

/-! ## 1. Calls -/

/-- A call that is made on an engine to configure rules. -/
inductive Engine.Call
  | configure (t : TypeId)
  /-- A step on a configuration; one that makes a builder leaves the steps of the builder to calls. -/
  | step (c : Nat) (s : TypeStep)
  | build (c : Nat)
  | check (b : Nat) (s : CheckStep)
  /-- Gates the rules of a builder from a place on, and sets the guard of the block before. -/
  | closeBlock (b place : Nat) (g : Guard) (last : Option Guard)
  /-- Begins a block of nested rules, which ends with building its configuration and attaching a
  check. -/
  | nest (b : Nat) (element : Option TypeId)
  /-- Reports the rules of a builder. -/
  | describe (b : Nat)

namespace Engine

/-- Runs a call and gives the configuration or builder that it made or was about. -/
def Call.run : Call → Action Nat
  | configure t => Action.configure t
  | step c (.builder sel forEach name _) => Action.newBuilder c sel forEach name
  | step c s => s.run c
  | build c => do
    let _ ← Action.build c
    return c
  | check b s => do
    Action.builderCheckStep b s
    return b
  | closeBlock b place g last => do
    Action.guardRules g ((← Action.builder b).rules.drop place)
    modify (Engine.updateBuilder b fun builder => { builder with lastGuard := last })
    return b
  | nest b element => do
    let t ← Action.nestedType b element
    Action.newChild (← Action.builder b).owner t
  | describe b => do
    Action.report (.rules (← Action.view (← Action.builder b).rules))
    return b

/-- The engine after a call, which may have failed. -/
def Call.after (call : Call) (e : Engine) : Engine := (call.run e).2

/-- The engine after calls that were made one after the other. -/
def afterCalls (e : Engine) (calls : List Call) : Engine := calls.foldl (fun e call => call.after e) e

theorem afterCalls_append (e : Engine) (calls calls' : List Call) :
    e.afterCalls (calls ++ calls') = (e.afterCalls calls).afterCalls calls' := List.foldl_append

/-- The configuration that a call builds. -/
def Call.builds? : Call → Option Nat
  | build c | step c .build => some c
  | _ => none

end Engine

/-! ## 2. Runs of steps are made of calls -/

namespace Action

variable {α β : Type} {b c : Nat}

/-- A step of the engine that leaves what some calls leave. -/
def MadeOfCalls (x : Action α) : Prop := ∀ e, ∃ calls, (x e).2 = e.afterCalls calls

namespace MadeOfCalls

theorem aside {x : Action α} (h : ∀ e, (x e).2 = e) : MadeOfCalls x := fun e => ⟨[], h e⟩

/-- A step that is a call, but for its result. -/
theorem call {x : Action α} (call : Call) {f : α → Nat} (h : call.run = x >>= fun a => pure (f a)) :
    MadeOfCalls x := by
  refine fun e => ⟨[call], ?_⟩
  show (x e).2 = (call.run e).2
  rw [h, bind_apply]
  rcases x e with ⟨r | a, e'⟩ <;> rfl

theorem run (call : Call) : MadeOfCalls call.run := .call call (bind_pure call.run).symm

theorem andThen {x : Action α} {f : α → Action β} (h : MadeOfCalls x)
    (hf : ∀ a, MadeOfCalls (f a)) : MadeOfCalls (x >>= f) := by
  intro e
  obtain ⟨calls, hcalls⟩ := h e
  rw [bind_apply]
  rcases hx : x e with ⟨r | a, e'⟩ <;> rw [hx] at hcalls
  · exact ⟨calls, hcalls⟩
  · obtain ⟨calls', hcalls'⟩ := hf a e'
    refine ⟨calls ++ calls', ?_⟩
    rw [afterCalls_append, ← hcalls]
    exact hcalls'

/-- A step that reads a builder first. -/
theorem reading {f : Builder → Action α} (h : ∀ x, MadeOfCalls (f x)) :
    MadeOfCalls (builder b >>= f) := .andThen (.aside fun _ => rfl) h

/-- A block of a builder, with what is done with the rules that it attached. -/
theorem block {steps : Action Unit} (hsteps : MadeOfCalls steps) {f : List Rule → Action Unit}
    (hf : ∀ place, MadeOfCalls (builder b >>= fun x => f (x.rules.drop place))) :
    MadeOfCalls (Action.block b steps >>= f) := by
  unfold Action.block
  simp only [bind_assoc, pure_bind]
  exact .reading fun x => .andThen hsteps fun _ => hf x.rules.length

/-- Ending a block is a call. -/
theorem closing (place : Nat) (g : Guard) (last : Option Guard) : MadeOfCalls (do
    guardRules g ((← builder b).rules.drop place)
    modify (Engine.updateBuilder b fun builder => { builder with lastGuard := last })) := by
  refine .call (.closeBlock b place g last) (f := fun _ => b) ?_
  simp only [Call.run, bind_assoc]

theorem whenBlock (g : Guard) {steps : Action Unit} (hsteps : MadeOfCalls steps) :
    MadeOfCalls (Action.whenBlock b g steps) := by
  refine .block hsteps fun place e => ?_
  rw [bind_ok (show builder b e = (.ok (e.builder b), e) from rfl)]
  split
  · exact ⟨[], rfl⟩
  · exact closing place g (some g) e

theorem otherwise {steps : Action Unit} (hsteps : MadeOfCalls steps) :
    MadeOfCalls (Action.otherwise b steps) := by
  refine .reading fun x => ?_
  cases x.lastGuard with
  | none => exact .aside fun _ => rfl
  | some g => exact .block hsteps fun place => closing place g.negate none

theorem nested (element : Option TypeId) {steps : Nat → Action Unit}
    (hsteps : ∀ child, MadeOfCalls (steps child)) :
    MadeOfCalls (Action.childRules b element steps) := by
  have hnest : MadeOfCalls (do
      let t ← nestedType b element
      let child ← newChild (← builder b).owner t
      return (t, child)) := by
    refine .call (.nest b element) (f := Prod.snd) ?_
    simp only [Call.run, bind_assoc, pure_bind, bind_pure]
  have hattach : ∀ t, MadeOfCalls (attachTo b { check := .childRules t }) := fun t => by
    refine .call (.check b (.attach (.ok { check := .childRules t }))) (f := fun _ => b) ?_
    rfl
  have hall := hnest.andThen fun x => (hsteps x.2).andThen fun _ =>
    (MadeOfCalls.call (.build x.2) (f := fun _ => x.2) rfl).andThen fun _ => hattach x.1
  simpa only [Action.childRules, bind_assoc, pure_bind] using hall

end MadeOfCalls
end Action

open Action

mutual

/-- A step on a type is made of calls: it is one, unless it has steps of a builder in it. -/
theorem TypeStep.run_madeOfCalls (step : TypeStep) (c : Nat) : MadeOfCalls (step.run c) := by
  match step with
  | .builder sel forEach name steps =>
    exact .andThen (.run (.step c (.builder sel forEach name steps))) fun b =>
      .andThen (runBuilderSteps_madeOfCalls steps b) fun _ => .aside fun _ => rfl
  | .check step => exact .run (.step c (.check step))
  | .rule sel must message replace => exact .run (.step c (.rule sel must message replace))
  | .gate sel g => exact .run (.step c (.gate sel g))
  | .exclude sel => exact .run (.step c (.exclude sel))
  | .always sel => exact .run (.step c (.always sel))
  | .resource name => exact .run (.step c (.resource name))
  | .culture name => exact .run (.step c (.culture name))
  | .fallback text => exact .run (.step c (.fallback text))
  | .withoutConventionalKeys => exact .run (.step c .withoutConventionalKeys)
  | .enforce on => exact .run (.step c (.enforce on))
  | .dropMember sel kind => exact .run (.step c (.dropMember sel kind))
  | .keepOnly sel => exact .run (.step c (.keepOnly sel))
  | .clear => exact .run (.step c .clear)
  | .switch t => exact .run (.step c (.switch t))
  | .build => exact .run (.step c .build)
  | .describe => exact .run (.step c .describe)

/-- **Steps on a type are made of calls**, those in their blocks included. -/
theorem runTypeSteps_madeOfCalls (steps : List TypeStep) (c : Nat) :
    MadeOfCalls (runTypeSteps c steps) := by
  match steps with
  | [] => exact .aside fun _ => rfl
  | step :: rest =>
    exact .andThen (step.run_madeOfCalls c) fun c' => runTypeSteps_madeOfCalls rest c'

theorem BuilderStep.run_madeOfCalls (step : BuilderStep) (b : Nat) : MadeOfCalls (step.run b) := by
  match step with
  | .check step => exact .call (.check b step) (f := fun _ => b) rfl
  | .whenBlock g steps => exact .whenBlock g (runBuilderSteps_madeOfCalls steps b)
  | .otherwise steps => exact .otherwise (runBuilderSteps_madeOfCalls steps b)
  | .childRules steps element =>
    exact .nested element fun child => runTypeSteps_madeOfCalls steps child
  | .rules =>
    exact .call (.describe b) (f := fun _ => b) (by simp only [Call.run, BuilderStep.run, bind_assoc])

/-- **Steps of a builder are made of calls.** -/
theorem runBuilderSteps_madeOfCalls (steps : List BuilderStep) (b : Nat) :
    MadeOfCalls (runBuilderSteps b steps) := by
  match steps with
  | [] => exact .aside fun _ => rfl
  | step :: rest =>
    exact .andThen (step.run_madeOfCalls b) fun _ => runBuilderSteps_madeOfCalls rest b

end

/-- Building every type that has been configured is made of calls. -/
theorem Action.buildAll_madeOfCalls : MadeOfCalls buildAll := by
  have hall : ∀ entries : List (TypeId × Nat), MadeOfCalls (entries.forM fun entry => do
      let _ ← build entry.2) := fun entries => by
    induction entries with
    | nil => exact .aside fun _ => rfl
    | cons entry entries ih =>
      have hbuild : MadeOfCalls (do let _ ← build entry.2) :=
        .call (.build entry.2) (f := fun _ => entry.2)
          (by simp only [Call.run, bind_assoc, pure_bind])
      exact .andThen hbuild fun _ => ih
  exact fun e => hall e.configured e

/-- Steps on a type that are run until one fails are made of calls. -/
theorem configureUntilFault_madeOfCalls (steps : List TypeStep) (c place : Nat) :
    MadeOfCalls (configureUntilFault c place steps) := by
  induction steps generalizing c place with
  | nil => exact .aside fun _ => rfl
  | cons step rest ih =>
    intro e
    obtain ⟨calls, hcalls⟩ := step.run_madeOfCalls c e
    unfold configureUntilFault
    rcases hstep : step.run c e with ⟨f | next, e₁⟩ <;> rw [hstep] at hcalls
    · exact ⟨calls, hcalls⟩
    · obtain ⟨calls', hcalls'⟩ := ih next (place + 1) e₁
      refine ⟨calls ++ calls', ?_⟩
      rw [afterCalls_append, ← hcalls]
      exact hcalls'

/-! ## 3. Calls are safe, or build a configuration -/

namespace Engine

variable {e e' : Engine} {c : Nat} {t : TypeId}

/-- What a step that is safe leaves. -/
theorem safe_of_keeps {α : Type} {x : Action α} (h : ∀ e, Keeps (Safe e) x) (e : Engine) :
    Safe e (x e).2 := (h e e (.refl e)).1

open Action in
/-- **A call that builds nothing is safe.** -/
theorem Call.after_safe {call : Call} (h : call.builds? = none) (e : Engine) :
    Safe e (call.after e) := by
  refine safe_of_keeps (fun e₀ => ?_) e
  cases call with
  | configure t => exact configure_safe t
  | build c => cases h
  | check b s =>
    exact .andThen (safe_of_works fun _ => builderCheckStep_works b s) fun _ => .pure trivial
  | closeBlock b place g last =>
    exact .andThen (safe_of_works fun _ => builder_keeps b) fun x =>
      .andThen (safe_of_works fun _ => guardRules_works g _) fun _ =>
      .andThen (safe_of_works fun _ => updateBuilder_works b _) fun _ => .pure trivial
  | nest b element =>
    exact .andThen (safe_of_works fun _ => nestedType_keeps b element) fun t =>
      .andThen (safe_of_works fun _ => builder_keeps b) fun x => newChild_safe x.owner t
  | describe b =>
    exact .andThen (safe_of_works fun _ => builder_keeps b) fun x =>
      .andThen (safe_of_works fun _ => view_keeps x.rules) fun _ =>
      .andThen (safe_of_works fun _ => report_keeps _) fun _ => .pure trivial
  | step c s =>
    -- A step on a type is safe by the lemma about it, and goes on with a configuration.
    have hgoes : ∀ {x : Action Unit}, Keeps (Safe e₀) x → Keeps (Safe e₀) (do x; return c) :=
      fun hx => .andThen hx fun _ => .pure trivial
    have hsetting : ∀ f : Configuration → Configuration, (∀ cfg, (f cfg).type = cfg.type) →
        (∀ cfg : Configuration, cfg.Follows (f cfg)) →
        Keeps (Safe e₀) (do Action.updateConfiguration c f; return c) := fun f htype hf =>
      hgoes (updateSetting_safe c htype hf)
    cases s with
    | check s => exact hgoes (safe_of_works fun _ => checkStep_works c s)
    | rule sel must message replace => exact hgoes (startRule_safe c sel must message replace)
    | builder sel forEach name steps => exact newBuilder_safe c sel forEach name
    | gate sel g =>
      exact .andThen (startGated_safe c sel) fun _ =>
        hgoes (safe_of_works fun _ => updateCurrent_works c _)
    | exclude sel => exact hgoes (exclude_safe c sel)
    | always sel => exact hgoes (always_safe c sel)
    | resource name => exact hsetting _ (fun _ => rfl) fun _ => ⟨id, id⟩
    | culture name =>
      exact .andThen (safe_of_works fun _ => (Keeps.lift _).weaken) fun _ =>
        hsetting _ (fun _ => rfl) fun _ => ⟨id, id⟩
    | fallback text => exact hsetting _ (fun _ => rfl) fun _ => ⟨id, id⟩
    | withoutConventionalKeys => exact hsetting _ (fun _ => rfl) fun _ => ⟨id, id⟩
    | enforce on => exact hsetting _ (fun _ => rfl) fun _ => ⟨id, id⟩
    | dropMember sel kind => exact hgoes (dropMember_safe c sel kind)
    | keepOnly sel => exact hgoes (keepOnly_safe c sel)
    | clear => exact hgoes (clear_safe c)
    | switch t => exact switch_safe c t
    | build => cases h
    | describe =>
      exact .andThen (safe_of_works fun _ => configuration_keeps c) fun _ =>
        hgoes (safe_of_works fun _ => report_keeps _)

/-- **What a call that builds a configuration leaves**: the configuration is closed, if it could be
built. -/
theorem Call.after_of_builds {call : Call} (h : call.builds? = some c) (e : Engine) :
    (Action.build c e).1.isOk = true ∧ Ends c e (call.after e) ∨ Safe e (call.after e) := by
  have hbuild := (Action.build_ends c e).imp_right And.right
  cases call with
  | build c' =>
    cases h
    have hafter : (Call.build c).after e = (Action.build c e).2 := by
      show ((do let _ ← Action.build c; return c : Action Nat) e).2 = _
      rw [bind_apply]
      rcases Action.build c e with ⟨r | rs, e'⟩ <;> rfl
    rw [hafter]
    exact hbuild
  | step c' s =>
    cases s with
    | build =>
      cases h
      have hreport : ∀ rs e₁, Works (fun _ => False) e₁ ((do
          Action.report (.rules (← Action.view rs))
          return c : Action Nat) e₁).2 := fun rs e₁ =>
        (Keeps.andThen (Action.view_keeps rs) (fun _ => .andThen (Action.report_keeps _)
          fun _ => .pure (P := fun _ => True) trivial) e₁ (.refl _ e₁)).1
      show _ ∧ Ends c e ((Action.build c >>= _ : Action Nat) e).2 ∨
        Safe e ((Action.build c >>= _ : Action Nat) e).2
      rw [bind_apply]
      rcases hdone : Action.build c e with ⟨r | rs, e₁⟩ <;> rw [hdone] at hbuild
      · exact .inr (hbuild.resolve_left fun hok => by cases hok.1)
      · rcases hbuild with ⟨hok, hends⟩ | hsafe
        · exact .inl ⟨hok, hends.works (hreport rs e₁)⟩
        · exact .inr (hsafe.trans (hreport rs e₁).safe_of_none)
    | _ => cases h
  | _ => cases h

/-! ## 4. Types of open configurations stay marked -/

/-- A type that is marked as incomplete as long as a configuration of it is open. -/
def Shields (e : Engine) (c : Nat) (t : TypeId) : Prop :=
  (e.configuration c).type = t → (e.configuration c).IsOpen → e.registry.Incomplete t

/-- A call that builds another configuration of the type. -/
def Call.Overtakes (call : Call) (e : Engine) (c : Nat) (t : TypeId) : Prop :=
  ∃ c' ∈ call.builds?, c' ≠ c ∧ (e.configuration c').type = t ∧ (Action.build c' e).1.isOk = true

/-- While a configuration is open, no other configuration of the type is built. -/
def NotOvertaken (c : Nat) (t : TypeId) : List Call → Engine → Prop
  | [], _ => True
  | call :: rest, e =>
    ((e.configuration c).IsOpen → ¬ call.Overtakes e c t) ∧ NotOvertaken c t rest (call.after e)

instance (cfg : Configuration) : Decidable cfg.IsOpen :=
  decidable_of_iff (cfg.current.isSome = true ∨ cfg.pending.isEmpty = false ∨
    cfg.builders.isEmpty = false) (by
      simp only [Configuration.IsOpen, ne_eq, List.isEmpty_eq_false_iff,
        Option.isSome_iff_ne_none])

instance (call : Call) (e : Engine) (c : Nat) (t : TypeId) : Decidable (call.Overtakes e c t) :=
  inferInstanceAs (Decidable (∃ c' ∈ call.builds?, _ ∧ _ ∧ _))

instance decidableNotOvertaken (c : Nat) (t : TypeId) : ∀ (calls : List Call) (e : Engine),
    Decidable (NotOvertaken c t calls e)
  | [], _ => isTrue trivial
  | call :: rest, e =>
    have : Decidable (NotOvertaken c t rest (call.after e)) := decidableNotOvertaken c t rest _
    inferInstanceAs (Decidable (((e.configuration c).IsOpen → ¬ call.Overtakes e c t) ∧ _))

theorem Shields.of_safe (h : e.Shields c t) (hsafe : Safe e e') : e'.Shields c t := by
  intro htype hopen
  rcases hsafe.opens c hopen with ⟨hopen', hsame⟩ | hmarked
  · exact hsafe.incomplete t (h (hsame ▸ htype) hopen')
  · exact htype ▸ hmarked

theorem Shields.after (h : e.Shields c t) {call : Call}
    (hno : (e.configuration c).IsOpen → ¬ call.Overtakes e c t) : (call.after e).Shields c t := by
  cases hbuilds : call.builds? with
  | none => exact h.of_safe (call.after_safe hbuilds e)
  | some c' =>
    rcases call.after_of_builds hbuilds e with ⟨hok, hends⟩ | hsafe
    · intro htype hopen
      by_cases hc : c = c'
      · subst hc
        exact absurd hopen hends.closed
      · have hopen' := hends.opened c hc hopen
        have hmarked := h (hends.types c ▸ htype) hopen'
        refine hends.incomplete t (fun ht => hno hopen' ?_) hmarked
        exact ⟨c', hbuilds, fun heq => hc heq.symm, ht.symm, hok⟩
    · exact h.of_safe hsafe

/-- **Along calls, the type of an open configuration stays marked.** -/
theorem Shields.afterCalls {calls : List Call} (h : e.Shields c t)
    (hno : NotOvertaken c t calls e) : (e.afterCalls calls).Shields c t := by
  induction calls generalizing e with
  | nil => exact h
  | cons call rest ih => exact ih (h.after hno.1) hno.2

end Engine
end MemberRules
