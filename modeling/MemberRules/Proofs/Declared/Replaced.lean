/-
# Replacing the rules of a member

A step on a type starts a member anew: its rules are dropped, and the checks that are attached next
are meant to be all that it is left with.  Dropped are the rules that are registered, and what has
been gathered for the member.  What its builders hold is not: it is registered behind the new checks
when the type is built.

* `Engine.Replaces`, `runTypeSteps_replaces`: what such steps leave.
* `Engine.Replaces.checksToCome`: what comes to stand of the member.
* `replaced_exactly_iff`: when the member is left with the new checks alone.
* `replace_keeps_builder`: a check of a builder that is there after its member has been replaced.
-/
import MemberRules.Proofs.Declared.Dropped

namespace MemberRules

open MemberRules.Computation

/-! ## 1. Starting a member anew -/

/-- The steps on a type that start a member anew and attach attributes to it. -/
def replacing (sel : Selector) (as : List Attribute) : List TypeStep :=
  .rule sel none none true :: as.map fun a => .check (.attach (.ok a))

/-- What is gathered for a member to which only attributes have been attached. -/
def PendingRule.attached (m : MemberRef) (as : List Attribute) : PendingRule :=
  { member := m, checks := as.map fun a => { validator := a } }

/-- The check of an attribute for which nothing else has been set, but for its numbers. -/
def Configuration.attachedRule (cfg : Configuration) (m : MemberRef) (display : String)
    (a : Attribute) : Rule :=
  ((PendingRule.attached m [a]).checkRule cfg display { validator := a } 0)

/-- An engine in which a member has been started anew since another one, and attributes have been
attached to it. -/
structure Engine.Replaces (c : Nat) (m : MemberRef) (as : List Attribute) (e e' : Engine) :
    Prop where
  world : e'.world = e.world
  reflected : e'.reflected = e.reflected
  length : e'.configurations.length = e.configurations.length
  configuration : e'.configuration c = { e.configuration c with
    pending := (e.configuration c).gathered.filter fun p => p.member.key != m.key
    current := some (PendingRule.attached m as) }
  registry : e'.registry.rulesOfMember (e.configuration c).type m.key = []
  listed : e'.listedRules c = e.listedRules c

namespace Action

open Engine

variable {e e₁ e₂ : Engine} {c : Nat} {m : MemberRef} {sel : Selector} {as : List Attribute}

/-- A member that is selected is the one that its selector selects, and what was started before can
be put away. -/
theorem begin_eq_ok (h : begin c sel e = (.ok m, e₁)) :
    (commit c e).1 = .ok () ∧ e₁ = (e.touched c).committed c ∧
      e.world.schema.select (e.configuration c).type (sel.captured e.world) = .ok m := by
  obtain ⟨_, e', hput, hrest⟩ := bind_eq_ok.mp h
  have hable : (commit c e).1 = .ok () := by rw [hput]
  rw [commit_apply hable] at hput
  cases hput
  have htype : ((e.committed c).configuration c).type = (e.configuration c).type := by
    rcases configuration_updateConfiguration c c _ with h | h <;> rw [Engine.committed, h]
  have hselect : e.world.schema.select (e.configuration c).type (sel.captured e.world) = .ok m := by
    rw [← htype]
    exact congrArg Prod.fst hrest
  rw [begin_apply hable hselect] at h
  exact ⟨hable, (congrArg Prod.snd h).symm, hselect⟩

/-- **Starting a member anew** drops its registered rules and what was gathered for it. -/
theorem startRule_replaces (he : e.Tidy) (hc : c < e.configurations.length)
    (h : startRule c sel none none true e = (.ok (), e₁)) :
    ∃ m, e.world.schema.select (e.configuration c).type (sel.captured e.world) = .ok m ∧
      e.Replaces c m [] e₁ := by
  rw [startRule_eq] at h
  obtain ⟨m, e', hbegin, h⟩ := bind_eq_ok.mp h
  obtain ⟨hput, rfl, hselects⟩ := begin_eq_ok hbegin
  refine ⟨m, hselects, ?_⟩
  have hcfg : ((e.touched c).committed c).configuration c =
      { e.configuration c with pending := (e.configuration c).gathered, current := none } :=
    configuration_committed hc
  have hkeyed : ((e.touched c).committed c).registry.Keyed := he.keyed.registry.mark _ _
  obtain ⟨n, e₂, hremove, hregistry, hsame, hworld, hreflected⟩ := removeRules_leaves
    (e.configuration c).type (some m) (fun _ => true) ((e.touched c).committed c)
  have hlength : e₂.configurations.length = e.configurations.length := by
    rw [hsame.configurations]
    exact List.length_modify ..
  have hdrop : drop c m ((e.touched c).committed c) =
      (.ok (), e₂.updateConfiguration c (Configuration.dropPending m.key)) := by
    unfold drop
    rw [configuration_bind, hcfg, bind_ok hremove]
    rfl
  have hrun : e₁ = e₂.updateConfiguration c fun cfg => { cfg.dropPending m.key with
      current := some (PendingRule.attached m []) } := by
    rw [if_pos rfl, bind_ok hdrop] at h
    have hstart : start c { member := m } (e₂.updateConfiguration c
        (Configuration.dropPending m.key)) = (.ok (), e₂.updateConfiguration c fun cfg =>
          { cfg.dropPending m.key with current := some (PendingRule.attached m []) }) := by
      unfold start
      exact congrArg (Prod.mk _) (updateConfiguration_twice _ _)
    exact (congrArg Prod.snd ((bind_ok hstart).symm.trans h)).symm
  have hnow : e₁.configuration c = { e.configuration c with
      pending := (e.configuration c).gathered.filter fun p => p.member.key != m.key
      current := some (PendingRule.attached m []) } := by
    rw [hrun, configuration_updateConfiguration_self (hlength ▸ hc), hsame.configuration]
    show { (((e.touched c).committed c).configuration c).dropPending m.key with
      current := some (PendingRule.attached m []) } = _
    rw [hcfg]
    rfl
  refine ⟨by rw [hrun]; exact hworld, by rw [hrun]; exact hreflected, ?_, hnow, ?_, ?_⟩
  · rw [hrun]
    exact (List.length_modify ..).trans hlength
  · have hregistry₁ : e₁.registry = e₂.registry := by
      rw [hrun]
      rfl
    have hgone := Registry.rulesOfMember_without (t := (e.configuration c).type) hkeyed m none m.key
    rw [hregistry₁, hregistry]
    refine hgone.trans (List.filter_eq_nil_iff.mpr fun r hr => ?_)
    have hhome := hkeyed.home _ _ r hr
    simp [Rule.stays, hhome]
  · unfold listedRules
    rw [hnow]
    refine List.flatMap_congr fun b _ => congrArg Builder.rules ?_
    rw [hrun]
    show e₂.builder b = e.builder b
    rw [hsame.builder]
    rfl

/-- An attribute is attached behind those before it. -/
theorem attach_replaces (hc : c < e.configurations.length) (h : e.Replaces c m as e₁)
    {a : Attribute} (hrun : checkStep c (.attach (.ok a)) e₁ = (.ok (), e₂)) :
    e.Replaces c m (as ++ [a]) e₂ := by
  let f : Configuration → Configuration := fun cfg =>
    { cfg with current := cfg.current.map fun p =>
        { p with checks := p.checks ++ [{ validator := a }] } }
  have hattached : attach c a e₁ = (.ok (), e₁.updateConfiguration c f) := by
    unfold attach requireCurrent
    rw [bind_assoc, configuration_bind, h.configuration]
    rfl
  rw [checkStep, configuration_bind] at hrun
  obtain ⟨a', e₃, husable, hattach⟩ := bind_eq_ok.mp hrun
  obtain ⟨rfl, rfl⟩ := usable_eq_ok husable
  rw [hattached] at hattach
  cases hattach
  have hnow : (e₃.updateConfiguration c f).configuration c = f (e₃.configuration c) :=
    configuration_updateConfiguration_self (h.length.symm ▸ hc) f
  have hmore : f (e₃.configuration c) = { e.configuration c with
      pending := (e.configuration c).gathered.filter fun p => p.member.key != m.key
      current := some (PendingRule.attached m (as ++ [a'])) } := by
    rw [h.configuration]
    simp [f, PendingRule.attached]
  refine ⟨h.world, h.reflected, ?_, hnow.trans hmore, h.registry, ?_⟩
  · exact (List.length_modify ..).trans h.length
  · rw [← h.listed]
    unfold listedRules
    rw [hnow]
    rfl

end Action

variable {e e₁ e₂ : Engine} {c : Nat} {m : MemberRef} {sel : Selector} {as as' : List Attribute}
variable {out : List Rule}

/-- Attributes are attached one after the other. -/
theorem runTypeSteps_attaches (hc : c < e.configurations.length) (h : e.Replaces c m as e₁)
    (hrun : runTypeSteps c (as'.map fun a => .check (.attach (.ok a))) e₁ = (.ok (), e₂)) :
    e.Replaces c m (as ++ as') e₂ := by
  induction as' generalizing as e₁ with
  | nil =>
    cases hrun
    rwa [List.append_nil]
  | cons a as' ih =>
    obtain ⟨_, e₃, hstep, hrest⟩ := bind_eq_ok.mp hrun
    obtain ⟨_, _, hattach, hlast⟩ := bind_eq_ok.mp hstep
    cases hlast
    rw [List.append_cons]
    exact ih (Action.attach_replaces hc h hattach) hrest

/-- **A member is started anew** with the attributes that are attached to it. -/
theorem runTypeSteps_replaces (he : e.Tidy) (hc : c < e.configurations.length)
    (hselects : e.world.schema.select (e.configuration c).type (sel.captured e.world) = .ok m)
    (hrun : runTypeSteps c (replacing sel as) e = (.ok (), e₁)) : e.Replaces c m as e₁ := by
  obtain ⟨_, e₂, hstep, hrest⟩ := bind_eq_ok.mp hrun
  obtain ⟨_, _, hstart, hlast⟩ := bind_eq_ok.mp hstep
  cases hlast
  obtain ⟨m', hselects', hreplaces⟩ := Action.startRule_replaces he hc hstart
  obtain rfl : m' = m := Except.ok.inj (hselects'.symm.trans hselects)
  exact runTypeSteps_attaches hc hreplaces hrest

/-! ## 2. What comes to stand of the member -/

namespace Engine

/-- The rules that the builders of a configuration hold for a member. -/
def listedFor (c : Nat) (k : MemberKey) (e : Engine) : List Rule :=
  (e.listedRules c).filter fun r => r.member.key == k

theorem listedFor_eq_nil_iff {k : MemberKey} :
    e.listedFor c k = [] ↔ ∀ r ∈ e.listedRules c, r.member.key ≠ k := by
  unfold listedFor
  simp only [List.filter_eq_nil_iff, beq_iff_eq, ne_eq]

/-- The checks of attributes that are attached to a member which has been started anew. -/
def attachedRules (c : Nat) (m : MemberRef) (as : List Attribute) (e : Engine) : List Rule :=
  as.map ((e.configuration c).attachedRule m (e.displayed (e.configuration c).type m.name))

theorem validator_attachedRules : (e.attachedRules c m as).map Rule.validator = as.map some := by
  unfold attachedRules
  rw [List.map_map]
  rfl

/-- What is gathered of a member that has been started anew. -/
theorem Replaces.gathered (h : e.Replaces c m as e₁) :
    (e₁.configuration c).gathered.filter (fun p => p.member.key == m.key) =
      [PendingRule.attached m as] := by
  have hothers : ((e.configuration c).gathered.filter fun p => p.member.key != m.key).filter
      (fun p => p.member.key == m.key) = [] := by
    refine List.filter_eq_nil_iff.mpr fun p hp => ?_
    simpa using (List.mem_filter.mp hp).2
  rw [h.configuration, Configuration.gathered, List.filter_append, hothers, List.nil_append]
  exact List.filter_cons_of_pos (beq_self_eq_true m.key)

/-- **What comes to stand of a member that has been started anew** are the checks of the attributes,
and behind them what its builders hold. -/
theorem Replaces.checksToCome (h : e.Replaces c m as e₁) (block : Option PendingRule) :
    e₁.checksToCome c m.key block = e.attachedRules c m as ++
      (e.listedFor c m.key).map fun r => ((e.configuration c).complete r).look := by
  have htype : (e₁.configuration c).type = (e.configuration c).type := by rw [h.configuration]
  have hnone : e₁.registry.checksAt (e₁.configuration c).type m.key = [] := by
    rw [htype, Registry.checksAt, h.registry]
    rfl
  have hdisplayed : e₁.displayed = e.displayed := by
    funext t name
    unfold displayed
    rw [h.world, h.reflected]
  unfold Engine.checksToCome newChecks
  dsimp only
  rw [hnone, h.gathered, List.flatMap_singleton, h.listed, hdisplayed, List.map_nil,
    List.nil_append, h.configuration]
  refine congrArg (· ++ _) ?_
  show List.map _ (List.map _ as) = List.map _ as
  rw [List.map_map]
  rfl

end Engine

/-! ## 3. Replacing and building -/

/-- **A member that is started anew is left with the new checks alone** exactly if no builder of the
configuration holds a rule for it.  Otherwise it is left with those of its builders, too: they stand
behind the new ones.  What was registered for the member and what was gathered for it is gone,
whatever it was.  The rules of the engine need only be in order, as they are after any calls. -/
theorem replaced_exactly_iff (he : e.Tidy) (hc : c < e.configurations.length)
    (hselects : e.world.schema.select (e.configuration c).type (sel.captured e.world) = .ok m)
    (hrun : runTypeSteps c (replacing sel as) e = (.ok (), e₁))
    (hbuild : Action.build c e₁ = (.ok out, e₂)) :
    (e₂.registry.checksAt (e.configuration c).type m.key).map Rule.look =
        e.attachedRules c m as ++
          (e.listedFor c m.key).map (fun r => ((e.configuration c).complete r).look) ∧
      ((e₂.registry.checksAt (e.configuration c).type m.key).map Rule.validator = as.map some ↔
        ∀ r ∈ e.listedRules c, r.member.key ≠ m.key) := by
  have hreplaces := runTypeSteps_replaces he hc hselects hrun
  have htidy := runTypeSteps_tidy he (replacing sel as) c
  rw [hrun] at htidy
  have hleft := Action.build_registers htidy (hreplaces.length.symm ▸ hc) hbuild m.key
  rw [hreplaces.checksToCome, hreplaces.configuration] at hleft
  refine ⟨hleft, ?_⟩
  have hvalidators : (e₂.registry.checksAt (e.configuration c).type m.key).map Rule.validator =
      as.map some ++ (e.listedFor c m.key).map Rule.validator := by
    have hlooks := congrArg (List.map Rule.validator) hleft
    rw [List.map_append, Engine.validator_attachedRules, List.map_map, List.map_map] at hlooks
    exact hlooks
  rw [hvalidators, List.append_right_eq_self, List.map_eq_nil_iff, Engine.listedFor_eq_nil_iff]

/-! ## 4. An address that a builder asks for

A builder asks for the address of a user.  Then the address is started anew, with a check of its
format as the only one. -/

namespace UserAddress

/-- A configuration of users with a builder that asks for an address. -/
def asked : Engine := (runTypeSteps 0 [
  .builder (.ref member) false none [.check (.attach (.ok { check := .required false }))]] engine).2

theorem asked_tidy : asked.Tidy := runTypeSteps_tidy engine_tidy _ 0

theorem asked_configured : 0 < asked.configurations.length := by decide +kernel

theorem asked_selects : asked.world.schema.select (asked.configuration 0).type
    ((Selector.ref member).captured asked.world) = .ok member := rfl

/-- The address is started anew. -/
def replaced : Engine := (runTypeSteps 0 (replacing (.ref member) [{ check := .email }]) asked).2

theorem replaced_runs : runTypeSteps 0 (replacing (.ref member) [{ check := .email }]) asked =
    (.ok (), replaced) :=
  eq_ok_of_toOption (by decide +kernel)

theorem replaced_builds : Action.build 0 replaced =
    (.ok ((Action.build 0 replaced).1.toOption.getD []), (Action.build 0 replaced).2) := by
  obtain ⟨out, hout⟩ := Option.isSome_iff_exists.mp
    (show (Action.build 0 replaced).1.toOption.isSome = true by decide +kernel)
  rw [hout]
  exact eq_ok_of_toOption hout

end UserAddress

/-- The builder still asks for the address when the check of its format should be the only one. -/
theorem replaced_exactly_iff_user :
    ¬ ((Action.build 0 UserAddress.replaced).2.registry.checksAt
        (UserAddress.asked.configuration 0).type UserAddress.member.key).map Rule.validator =
      [some { check := .email }] := by
  have hiff := (replaced_exactly_iff UserAddress.asked_tidy UserAddress.asked_configured
    UserAddress.asked_selects UserAddress.replaced_runs UserAddress.replaced_builds).2
  intro honly
  have hnone : (UserAddress.asked.listedFor 0 UserAddress.member.key).isEmpty = true :=
    List.isEmpty_iff.mpr (Engine.listedFor_eq_nil_iff.mpr (hiff.mp honly))
  have hsome : (UserAddress.asked.listedFor 0 UserAddress.member.key).isEmpty = false := by
    decide +kernel
  rw [hsome] at hnone
  cases hnone

/-- **A check of a builder can outlast the replacement of its member.** -/
theorem replace_keeps_builder :
    ¬ ∀ {e e₁ e₂ : Engine} {c : Nat} {m : MemberRef} {sel : Selector} {as : List Attribute}
      {out : List Rule}, e.Tidy → c < e.configurations.length →
      e.world.schema.select (e.configuration c).type (sel.captured e.world) = .ok m → as ≠ [] →
      runTypeSteps c (replacing sel as) e = (.ok (), e₁) → Action.build c e₁ = (.ok out, e₂) →
      (e₂.registry.checksAt (e.configuration c).type m.key).map Rule.validator = as.map some := by
  intro h
  have honly := h UserAddress.asked_tidy UserAddress.asked_configured UserAddress.asked_selects
    (List.cons_ne_nil _ _) UserAddress.replaced_runs UserAddress.replaced_builds
  -- What the build ends with, by evaluation.
  have hcount : ((Action.build 0 UserAddress.replaced).2.registry.checksAt
      (UserAddress.asked.configuration 0).type UserAddress.member.key).length = 2 := by
    decide +kernel
  have hlength := congrArg List.length honly
  rw [List.length_map, hcount] at hlength
  cases hlength

end MemberRules
