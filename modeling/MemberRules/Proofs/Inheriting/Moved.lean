/-
# Settings that are given earlier or later

A setting for all rules of a type is given by a call on its configuration, and takes effect when the
configuration is built.  So up to then it does not matter for its own rules when the call is made.
But a block of nested rules takes the settings around it when it begins, and keeps them: if the call
is moved past the beginning of a block, the rules of that block change, and those of the blocks in
it.  They change in this setting only, and all other rules stay the same.

* `Engine.Spared`, `Call.after_spared`: calls that leave the settings of a configuration alone.
* `Engine.Ahead`: two engines, of which the second one has been given a setting already.
* `Engine.InheritsAlong`: which configurations take settings that are given earlier or later.
* `Engine.Shift`: a setting is given earlier, with the same calls otherwise.
* `rules_of_moved_settings`: what giving settings earlier or later changes.
* `place_of_setting_matters`: that it changes the rules of blocks.
-/
import Mathlib.Logic.Relation
import MemberRules.Proofs.Inheriting.Builds

namespace MemberRules

open MemberRules.Computation Engine

variable {K : List SettingKind} {H L : Set Nat} {e e' e'' : Engine} {c : Nat} {s s' : TypeSetting}

/-! ## 1. The settings of a configuration -/

/-- Settings of different kinds can be given in any order. -/
theorem TypeSetting.on_comm (h : s.kind ≠ s'.kind) (cfg : Configuration) :
    s.on (s'.on cfg) = s'.on (s.on cfg) := by
  cases s <;> cases s' <;> first | rfl | exact absurd rfl h

namespace Engine

/-- A configuration that is still there, with the same settings. -/
structure Spared (c : Nat) (e e' : Engine) : Prop where
  there : c < e'.configurations.length
  settings : (e.configuration c).SameSettings (e'.configuration c)

theorem Spared.trans (h : e.Spared c e') (h' : e'.Spared c e'') : e.Spared c e'' :=
  ⟨h'.there, h.settings.trans h'.settings⟩

theorem Moves.spared (h : e.Moves e') (hc : c < e.configurations.length) : e.Spared c e' :=
  ⟨h.sequel.length ▸ hc, h.sequel.settings c⟩

theorem SameWork.spared (h : e.SameWork e') (hc : c < e.configurations.length) : e.Spared c e' := by
  refine ⟨h.configurations ▸ hc, ?_⟩
  rw [h.configuration]
  exact .refl _

/-- Building another configuration. -/
theorem build_spared {c' : Nat} (hne : c' ≠ c) (hc : c < e.configurations.length) :
    e.Spared c (Action.build c' e).2 := by
  rcases Action.build_cases c' e with hmoves | ⟨mid, rs, -, hmoves, hregisters⟩
  · exact hmoves.spared hc
  · refine (hmoves.spared hc).trans ⟨?_, ?_⟩
    · rw [hregisters.length]
      exact (hmoves.spared hc).there
    · rw [hregisters.configuration_of_ne hne]
      exact .refl _

/-- Beginning a block of nested rules. -/
theorem newChild_spared (c' : Nat) (t : TypeId) (hc : c < e.configurations.length) :
    e.Spared c (Action.newChild c' t e).2 := by
  have hensure := (Action.ensure_moves t e (.refl e)).1
  unfold Action.newChild Action.newConfiguration
  rw [bind_assoc, bind_apply]
  rcases hrun : Action.ensure t e with ⟨f | done, mid⟩ <;> rw [hrun] at hensure
  · exact hensure.spared hc
  · have hmid := hensure.spared hc
    refine hmid.trans ⟨?_, ?_⟩
    · show c < ((mid.configurations ++ [_]).modify mid.configurations.length _).length
      rw [List.length_modify, List.length_append]
      exact Nat.lt_add_right _ hmid.there
    · show (mid.configuration c).SameSettings
        (({ mid with configurations := mid.configurations ++ [_] }.updateConfiguration
          mid.configurations.length _).configuration c)
      rw [configuration_updateConfiguration_of_ne hmid.there.ne', configuration_newConfiguration,
        if_pos hmid.there]
      exact .refl _

theorem nest_spared (b : Nat) (element : Option TypeId) (hc : c < e.configurations.length) :
    e.Spared c ((Call.nest b element).after e) := by
  have hsame := (Action.nestedType_keeps (I := SameWork e) b element e ⟨rfl, rfl, rfl⟩).1
  show e.Spared c ((Action.nestedType b element >>= _ : Action Nat) e).2
  rw [bind_apply]
  rcases hrun : Action.nestedType b element e with ⟨f | t, e₁⟩ <;> rw [hrun] at hsame
  · exact hsame.spared hc
  · exact (hsame.spared hc).trans
      (newChild_spared (e₁.builder b).owner t (hsame.spared hc).there)

/-- **A call leaves the settings of a configuration alone**, if it neither gives one nor builds the
configuration. -/
theorem Call.after_spared {call : Call} (hset : call.setting? c = none)
    (hbuild : call.builds? ≠ some c) (hc : c < e.configurations.length) :
    e.Spared c (call.after e) := by
  by_cases hother : ∀ c', call.setting? c' = none
  · by_cases hnest : call.Nestless
    · rcases Call.after_cases hnest hother e with hmoves | ⟨mid, cfg, hmoves, hlists⟩ |
        ⟨c', hbuilds, hmoves⟩
      · exact hmoves.spared hc
      · refine (hmoves.spared hc).trans ⟨?_, ?_⟩
        · rw [hlists.configurations, List.length_append]
          exact Nat.lt_add_right _ (hmoves.spared hc).there
        · rw [hlists.configuration, if_pos (hmoves.spared hc).there]
          exact .refl _
      · have hne : c' ≠ c := fun heq => hbuild (heq ▸ hbuilds)
        have hbuilt := build_spared hne hc
        exact hbuilt.trans (hmoves.spared hbuilt.there)
    · cases call with
      | nest b element => exact nest_spared b element hc
      | _ => exact absurd trivial hnest
  · obtain ⟨c', hc'⟩ := not_forall.mp hother
    obtain ⟨s, hs⟩ := Option.ne_none_iff_exists'.mp hc'
    have hne : c' ≠ c := fun heq => by
      rw [← heq, hs] at hset
      cases hset
    rw [Call.after_of_setting hs]
    refine ⟨by rwa [updateConfiguration, List.length_modify], ?_⟩
    rw [configuration_updateConfiguration_of_ne hne]
    exact .refl _

/-! ## 2. A setting that is given already -/

/-- Two engines that differ in a setting of one configuration, which is given in the second one
already, and in hidden settings. -/
structure Ahead (K : List SettingKind) (H : Set Nat) (c : Nat) (s : TypeSetting) (e e' : Engine) :
    Prop where
  veiled : e.Veiled K H {c} e'
  there : c < e.configurations.length
  settings : (s.on (e.configuration c)).SameSettings (e'.configuration c)

theorem updateConfiguration_id (e : Engine) (c : Nat) : e.updateConfiguration c id = e := by
  unfold updateConfiguration
  rw [List.modify_id]

/-- Giving a setting brings an engine ahead. -/
theorem ahead_of_setting (hs : s.kind ∈ K) (hc : c < e.configurations.length) :
    e.Ahead K H c s (e.updateConfiguration c s.on) := by
  refine ⟨?_, hc, ?_⟩
  · have hgiven := (Veiled.refl (K := K) (H := H) (L := {c}) e).updateConfiguration c (f := id)
      (fun _ => rfl) ⟨Configuration.bare_on_of_mem hs _, fun h => absurd rfl h,
        fun h => absurd rfl h⟩
    rwa [updateConfiguration_id] at hgiven
  · rw [configuration_updateConfiguration_self hc]
    exact .refl _

/-- A call leaves the one engine ahead of the other, if it neither gives the setting again nor
builds the configuration. -/
theorem Ahead.after (h : e.Ahead K H c s e') {call : Call} (hbuild : call.builds? ≠ some c)
    (honce : ∀ s', call.setting? c = some s' → s.kind ≠ s'.kind)
    (hinherits : call.Inherits H {c} e) (htidy : e.Tidy) :
    (call.after e).Ahead K H c s (call.after e') := by
  have hloose : ∀ c', call.builds? = some c' → c' ∉ ({c} : Set Nat) := fun c' hc' hmem =>
    hbuild (Set.mem_singleton_iff.mp hmem ▸ hc')
  have hveiled := call.after_veiled hloose hinherits htidy h.veiled
  have hthere' : c < e'.configurations.length := h.veiled.length ▸ h.there
  cases hset : call.setting? c with
  | none =>
    have hspared := call.after_spared hset hbuild h.there
    have hspared' := call.after_spared hset hbuild hthere'
    exact ⟨hveiled, hspared.there,
      (hspared.settings.symm.on s).trans (h.settings.trans hspared'.settings)⟩
  | some s' =>
    rw [Call.after_of_setting hset, Call.after_of_setting hset] at hveiled ⊢
    refine ⟨hveiled, by rw [updateConfiguration, List.length_modify]; exact h.there, ?_⟩
    rw [configuration_updateConfiguration_self h.there,
      configuration_updateConfiguration_self hthere', TypeSetting.on_comm (honce s' hset)]
    exact h.settings.on s'

/-- Giving the setting in the first engine as well makes up for the difference. -/
theorem Ahead.meet (hs : s.kind ∈ K) (h : e.Ahead K H c s e') :
    (e.updateConfiguration c s.on).Veiled K H ∅ e' := by
  have hcfg := h.veiled.configuration c
  have hgiven : (e.updateConfiguration c s.on).Veiled K H {c} (e'.updateConfiguration c id) :=
    h.veiled.updateConfiguration c s.on_type
      ⟨hcfg.bare.trans (Configuration.bare_on_of_mem hs _).symm, fun h => absurd rfl h,
        fun h => absurd rfl h⟩
  rw [updateConfiguration_id] at hgiven
  have hsame : ((e.updateConfiguration c s.on).configuration c).SameSettings
      (e'.configuration c) := by
    rw [configuration_updateConfiguration_self h.there]
    exact h.settings
  refine { hgiven with configuration := fun c' => ?_ }
  by_cases hc : c' = c
  · subst hc
    exact ⟨(hgiven.configuration c').bare, fun _ => hsame.settingsChanged, fun _ _ => hsame⟩
  · exact ⟨(hgiven.configuration c').bare, fun _ => (hgiven.configuration c').changed hc,
      fun _ => (hgiven.configuration c').settings hc⟩

/-! ## 3. Runs -/

/-- Along calls, settings that are hidden or loose are inherited by hidden configurations only. -/
def InheritsAlong (H L : Set Nat) : List Call → Engine → Prop
  | [], _ => True
  | call :: rest, e => call.Inherits H L e ∧ InheritsAlong H L rest (call.after e)

theorem Ahead.afterCalls {calls : List Call} (h : e.Ahead K H c s e')
    (hbuild : ∀ call ∈ calls, call.builds? ≠ some c)
    (honce : ∀ call ∈ calls, ∀ s', call.setting? c = some s' → s.kind ≠ s'.kind)
    (hinherits : InheritsAlong H {c} calls e) (htidy : e.Tidy) :
    (e.afterCalls calls).Ahead K H c s (e'.afterCalls calls) := by
  induction calls generalizing e e' with
  | nil => exact h
  | cons call rest ih =>
    obtain ⟨hfirst, hrest⟩ := List.forall_mem_cons.mp hbuild
    obtain ⟨honce, honces⟩ := List.forall_mem_cons.mp honce
    exact ih (h.after hfirst honce hinherits.1 htidy) hrest honces hinherits.2
      (call.after_tidy htidy)

/-- **Hidden settings stay hidden** along calls. -/
theorem Veiled.afterCalls {calls : List Call} (h : e.Veiled K H ∅ e')
    (hinherits : InheritsAlong H ∅ calls e) (htidy : e.Tidy) :
    (e.afterCalls calls).Veiled K H ∅ (e'.afterCalls calls) := by
  induction calls generalizing e e' with
  | nil => exact h
  | cons call rest ih =>
    have hfirst := call.after_veiled (fun _ _ => Set.notMem_empty _) hinherits.1 htidy h
    exact ih hfirst hinherits.2 (call.after_tidy htidy)

/-- The same calls, but that one setting is given earlier: past calls that neither build its
configuration nor give it again.  The configurations in `H` are those of the blocks that begin in
between, and of the blocks in them. -/
inductive Shift (K : List SettingKind) (H : Set Nat) (e : Engine) : List Call → List Call → Prop
  | earlier {before between rest : List Call} {call : Call} {c : Nat} {s : TypeSetting}
      (there : c < (e.afterCalls before).configurations.length)
      (setting : call.setting? c = some s) (kind : s.kind ∈ K)
      (unbuilt : ∀ x ∈ between, x.builds? ≠ some c)
      (once : ∀ x ∈ between, ∀ s', x.setting? c = some s' → s.kind ≠ s'.kind)
      (passed : InheritsAlong H {c} between (e.afterCalls before))
      (inside : InheritsAlong H ∅ rest (e.afterCalls (before ++ between ++ [call]))) :
      Shift K H e (before ++ between ++ call :: rest) (before ++ call :: between ++ rest)

/-- **Giving a setting earlier changes hidden settings only.** -/
theorem Shift.veiled {calls calls' : List Call} (h : Shift K H e calls calls') (htidy : e.Tidy) :
    (e.afterCalls calls).Veiled K H ∅ (e.afterCalls calls') := by
  cases h with
  | @earlier before between rest call c s there setting kind unbuilt once passed inside =>
    have hahead := (ahead_of_setting (H := H) kind there).afterCalls unbuilt once passed
      (htidy.afterCalls before)
    have hgiven : e.afterCalls (before ++ between ++ [call]) =
        ((e.afterCalls before).afterCalls between).updateConfiguration c s.on := by
      rw [afterCalls_append, afterCalls_append]
      exact Call.after_of_setting setting _
    have hlater : e.afterCalls (before ++ between ++ call :: rest) =
        (e.afterCalls (before ++ between ++ [call])).afterCalls rest := by
      rw [← afterCalls_append, List.append_assoc _ [call] rest]
      rfl
    have hearlier : e.afterCalls (before ++ call :: between ++ rest) =
        (((e.afterCalls before).updateConfiguration c s.on).afterCalls between).afterCalls
          rest := by
      rw [afterCalls_append, afterCalls_append, ← Call.after_of_setting setting]
      rfl
    have htidy' := htidy.afterCalls (before ++ between ++ [call])
    rw [hlater, hearlier]
    rw [hgiven] at inside htidy' ⊢
    exact (hahead.meet kind).afterCalls inside htidy'

/-- Types are hidden in both engines alike. -/
theorem Veiled.hides_iff (h : e.Veiled K H L e') (t : TypeId) : e'.Hides H t ↔ e.Hides H t := by
  constructor
  · exact fun hhides => hhides.of_same h.length.le fun c _ => (h.type c).symm
  · exact fun hhides => hhides.of_same h.length.ge fun c _ => h.type c

/-- However often settings are given earlier or later, only hidden ones change. -/
theorem Shift.registry {calls calls' : List Call} (h : Relation.EqvGen (Shift K H e) calls calls')
    (htidy : e.Tidy) : (∀ t, (e.afterCalls calls').Hides H t ↔ (e.afterCalls calls).Hides H t) ∧
      (e.afterCalls calls).registry.Veiled K ((e.afterCalls calls).Hides H)
        (e.afterCalls calls').registry := by
  induction h with
  | rel _ _ hshift =>
    have hveiled := hshift.veiled htidy
    exact ⟨hveiled.hides_iff, hveiled.registry⟩
  | refl _ => exact ⟨fun _ => Iff.rfl, .refl _ _⟩
  | symm _ _ _ ih => exact ⟨fun t => (ih.1 t).symm, ih.2.symm.mono fun t => (ih.1 t).mpr⟩
  | trans _ _ _ _ _ ih ih' =>
    exact ⟨fun t => (ih'.1 t).trans (ih.1 t), ih.2.trans (ih'.2.mono fun t => (ih.1 t).mp)⟩

/-! ## 4. What a block takes -/

end Engine

/-- A configuration with the settings of the one around it; it keeps a resource of its own. -/
structure Configuration.Takes (own : Option String) (outer inner : Configuration) : Prop where
  culture : inner.culture = outer.culture
  fallback : inner.fallback = outer.fallback
  conventionalKeys : inner.conventionalKeys = outer.conventionalKeys
  resource : inner.resource = own.or outer.resource

namespace Engine

/-- **A block takes the settings around it when it begins.** -/
theorem nest_takes {b child : Nat} {element : Option TypeId}
    (hb : (e.builder b).owner < e.configurations.length)
    (h : (Call.nest b element).run e = (.ok child, e')) :
    Configuration.Takes (e'.world.schema.resourceOf (e'.configuration child).type)
      (e.configuration (e.builder b).owner) (e'.configuration child) := by
  have hkept := (Action.nestedType_keeps (I := SameWork e) b element e ⟨rfl, rfl, rfl⟩).1
  obtain ⟨t, e₁, htype, h⟩ := bind_eq_ok.mp h
  rw [htype] at hkept
  obtain ⟨x, e₂, hbuilder, h⟩ := bind_eq_ok.mp h
  cases hbuilder
  obtain ⟨made, e₃, hnew, h⟩ := bind_eq_ok.mp h
  obtain ⟨done, mid, hensure, hnew⟩ := bind_eq_ok.mp hnew
  have hmoves := (Action.ensure_moves t e₁ (.refl e₁)).1
  rw [hensure] at hmoves
  obtain ⟨e₄, e₅, hget, hnew⟩ := bind_eq_ok.mp hnew
  cases hget
  cases hnew
  obtain ⟨outer, e₄, houter, h⟩ := bind_eq_ok.mp h
  cases houter
  cases h
  have hthere : (e.builder b).owner < mid.configurations.length := by
    rw [hmoves.sequel.length, hkept.configurations]
    exact hb
  have hsame := hmoves.sequel.settings (e.builder b).owner
  rw [hkept.configuration] at hsame
  rw [configuration_updateConfiguration_self (by simp), hkept.builder,
    configuration_newConfiguration, configuration_newConfiguration, if_pos hthere,
    if_neg (lt_irrefl _), if_pos rfl]
  exact ⟨hsame.culture, hsame.fallback, hsame.conventionalKeys, by rw [← hsame.resource]; rfl⟩

end Engine

/-- **Settings for all rules can be given at any place before the build, but for blocks.**  A block
of nested rules takes the settings around it when it begins.  So if settings are given earlier or
later, any number of them, the rules of a type stay the very same, unless a block that begins in
between, or a block in it, configures that type; and then they differ in nothing but the settings
that were moved. -/
theorem rules_of_moved_settings {e : Engine} (htidy : e.Tidy) :
    (∀ before b element child e',
      ((e.afterCalls before).builder b).owner < (e.afterCalls before).configurations.length →
      (Call.nest b element).run (e.afterCalls before) = (.ok child, e') →
      Configuration.Takes (e'.world.schema.resourceOf (e'.configuration child).type)
        ((e.afterCalls before).configuration ((e.afterCalls before).builder b).owner)
        (e'.configuration child)) ∧
    ∀ K H calls calls', Relation.EqvGen (Engine.Shift K H e) calls calls' →
      (e.afterCalls calls).registry.Veiled K ((e.afterCalls calls).Hides H)
        (e.afterCalls calls').registry :=
  ⟨fun _ _ _ _ _ hb hrun => nest_takes hb hrun, fun _ _ _ _ h => (Shift.registry h htidy).2⟩

/-! ### A message to fall back to, given late

The lines of orders are configured in a block, and orders get a message to fall back to. -/

namespace LateFallback

def start : Engine := { world := { schema := OrderLines.schema } }

def before : List Call := [
  .configure (.declared "Order"),
  .step 0 (.builder (.ref ⟨.declared "Order", "lines", .field⟩) true none [])]

def block : List Call := [
  .nest 0 none,
  .step 1 (.builder (.ref ⟨.declared "Item", "sku", .field⟩) false none []),
  .check 1 (.attach (.ok { check := .required false })),
  .build 1,
  .check 0 (.attach (.ok { check := .childRules (.declared "Item") }))]

def given : Call := .step 0 (.fallback (some "Please check."))

/-- The message is given behind the block. -/
def late : List Call := before ++ block ++ given :: [.build 0]

/-- The message is given in front of the block. -/
def early : List Call := before ++ given :: block ++ [.build 0]

theorem tidy : start.Tidy := tidy_of_nothing rfl rfl rfl (Schema.faithful_nil _)

theorem nested : ((Call.nest 0 none).run (start.afterCalls before)).1.toOption = some 1 := by
  decide +kernel

/-- The block is the configuration of items. -/
theorem shift : Engine.Shift [.fallback] {1} start late early := by
  refine .earlier (c := 0) (s := .fallback (some "Please check.")) (by decide +kernel) rfl
    (List.mem_singleton.mpr rfl) (by decide) (fun x hx s' hs' => ?_)
    ⟨fun _ child hchild => ?_, trivial, trivial, trivial, trivial, trivial⟩ ⟨trivial, trivial⟩
  · have hnone : x.setting? 0 = none := by
      revert x
      simp [block, Engine.Call.setting?, TypeStep.setting?]
    rw [hnone] at hs'
    cases hs'
  · have hnested := nested
    rw [hchild] at hnested
    exact Option.some.inj hnested

end LateFallback

/-- The block has no message, which was given behind it only; orders have it wherever it was given,
and items have the same rules but for it. -/
theorem rules_of_moved_settings_order_lines :
    (∃ e', (Call.nest 0 none).run (LateFallback.start.afterCalls LateFallback.before) =
      (.ok 1, e') ∧ (e'.configuration 1).fallback = none) ∧
    (LateFallback.start.afterCalls LateFallback.early).registry.allGroups (.declared "Order") =
      (LateFallback.start.afterCalls LateFallback.late).registry.allGroups (.declared "Order") ∧
    ((LateFallback.start.afterCalls LateFallback.late).registry.rulesOf (.declared "Order")).map
      Rule.fallback = [some "Please check."] ∧
    ((LateFallback.start.afterCalls LateFallback.early).registry.allGroups (.declared "Item")).map
        (RuleGroup.bare [.fallback]) =
      ((LateFallback.start.afterCalls LateFallback.late).registry.allGroups (.declared "Item")).map
        (RuleGroup.bare [.fallback]) := by
  obtain ⟨htakes, hmoved⟩ := rules_of_moved_settings LateFallback.tidy
  have hnest := eq_ok_of_toOption LateFallback.nested
  have hfallback := (htakes LateFallback.before 0 none 1 _ (by decide +kernel) hnest).fallback
  have hregistry := hmoved [.fallback] {1} _ _ (.rel _ _ LateFallback.shift)
  refine ⟨⟨_, hnest, hfallback.trans (by decide +kernel)⟩, ?_, by decide +kernel,
    hregistry.groups (.declared "Item")⟩
  refine hregistry.shown (.declared "Order") ?_
  rintro ⟨c, -, rfl, htype⟩
  exact absurd htype (by decide +kernel)

namespace LateFallback

/-- An engine with a configuration of orders. -/
def orders : Engine := start.afterCalls [.configure (.declared "Order")]

/-- Items of orders must have a number. -/
def lines : TypeStep :=
  .builder (.ref ⟨.declared "Order", "lines", .field⟩) true none [
    .childRules [
      .builder (.ref ⟨.declared "Item", "sku", .field⟩) false none [
        .check (.attach (.ok { check := .required false }))]] none]

end LateFallback

/-- **The place of a setting matters for the blocks**: a message to fall back to that is given
behind a block does not reach the rules of the block. -/
theorem place_of_setting_matters :
    ¬ ∀ {e late early : Engine} (c : Nat) (steps : List TypeStep) (text : Option String), e.Tidy →
      (∀ step ∈ steps, step.setting? = none) →
      runTypeSteps c (steps ++ [.fallback text, .build]) e = (.ok (), late) →
      runTypeSteps c (.fallback text :: steps ++ [.build]) e = (.ok (), early) →
      ∀ t, early.registry.rulesOf t = late.registry.rulesOf t := by
  intro h
  have hlate : (runTypeSteps 0 [LateFallback.lines, .fallback (some "Please check."), .build]
      LateFallback.orders).1.toOption = some () := by decide +kernel
  have hearly : (runTypeSteps 0 [.fallback (some "Please check."), LateFallback.lines, .build]
      LateFallback.orders).1.toOption = some () := by decide +kernel
  have hsame := congrArg (List.map Rule.fallback) (h 0 [LateFallback.lines]
    (some "Please check.") (LateFallback.tidy.afterCalls _)
    (by simp [LateFallback.lines, TypeStep.setting?]) (eq_ok_of_toOption hlate)
    (eq_ok_of_toOption hearly) (.declared "Item"))
  revert hsame
  decide +kernel

end MemberRules
