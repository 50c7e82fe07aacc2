/-
# Registering a type with the types nested in it

The declared rules of a type are registered when they are first asked for, and with them those of the
types that they apply to nested values, and so on.  A type that the registry knows is passed over, and a
type is registered before the types nested in it are, so types that lead back to themselves do no harm:
each type that is entered becomes known, so there is an end to it.

If the declared rules of all types that are led to can be derived, then all of them are registered with
just these rules, and nothing else happens.  But if those of a nested type cannot, the types that were
entered before it stay registered, and count as complete.

* `Schema.adapted`: the declared rules of a type, or the fault of deriving them.
* `Engine.Leads`: the types that a type leads to.
* `Action.ensureWithin_enters`: what registering a type makes of the engine, whether it ends well or
  not.
* `ensure_closes`: registering a type registers all types that it leads to.
* `failed_ensure_keeps_iff`: when a registration that failed leaves the registry as it was.
-/
import Mathlib.Logic.Relation
import MemberRules.Proofs.Registry.Growth

namespace MemberRules

open MemberRules.Computation

variable {s : Schema} {S : Set TypeId} {t u v : TypeId} {e e' e₁ : Engine} {rs : List Rule}

/-! ## 1. The declared rules of a type -/

/-- The declared rules of a type, without identities. -/
def Schema.adapted (s : Schema) (t : TypeId) : Except Fault (List Rule) :=
  s.read t >>= s.declaredRules t

/-- A type that is not declared has no rules. -/
theorem Schema.adapted_of_notMem (h : t ∉ s.ids) : s.adapted t = .ok [] := by
  unfold adapted read
  rw [membersWithin_of_notMem h]
  rfl

/-- The declared rules of a type are those that its members make. -/
theorem Schema.exists_reads_of_adapted (h : s.adapted t = .ok rs) :
    ∃ ms, s.Reads t ms ∧ rs.map Rule.value = ms.flatMap (MemberInfo.placedRules s t) := by
  obtain ⟨ms, hread, hdeclared⟩ := except_bind_eq_ok.mp h
  refine ⟨ms, reads_iff.mpr hread, ?_⟩
  obtain rfl := eq_placedRules hdeclared
  refine (List.map_congr_left fun r hr => ?_).trans (List.map_id _)
  obtain ⟨m, -, hr⟩ := List.mem_flatMap.mp hr
  exact MemberInfo.value_of_mem_placedRules hr

/-- **What deriving the declared rules of a type gives** does not depend on what is remembered, but for
the identities of the rules. -/
theorem Action.declaredRules_fst (t : TypeId) (h : e.world.schema.Faithful e.reflected) :
    (declaredRules t e).1 = (e.world.schema.adapted t).map (Rule.numbered e.nextId) := by
  have hread := Schema.reflect_eq_read e.world.schema t h
  rw [declaredRules_apply]
  unfold Schema.adapted
  rw [← hread]
  rcases e.world.schema.reflect t e.reflected with ⟨f | ms, known⟩
  · rfl
  · show _ = (e.world.schema.declaredRules t ms).map _
    dsimp only
    rw [bind_apply, lift_apply]
    rcases e.world.schema.declaredRules t ms with f | rs <;> rfl

/-- Deriving the declared rules of a type lets nothing be remembered wrongly. -/
theorem Action.declaredRules_faithful (t : TypeId) (h : e.world.schema.Faithful e.reflected) :
    e.world.schema.Faithful (declaredRules t e).2.reflected := by
  obtain ⟨-, -, hreflected⟩ := declaredRules_leaves t e
  rw [hreflected]
  exact (Schema.faithful_reflect e.world.schema t h).1

/-- The types that rules ask for are the same whatever the identities of the rules. -/
theorem Action.nestedModels_numbered (first : Nat) (rs : List Rule) :
    nestedModels (Rule.numbered first rs) = nestedModels rs := by
  have hvalue : ∀ rs : List Rule, nestedModels (rs.map Rule.value) = nestedModels rs := fun rs => by
    unfold nestedModels
    rw [List.filterMap_map]
    rfl
  rw [← hvalue, map_value_numbered, hvalue]

/-! ## 2. Types that lead to others -/

/-- The declared rules of a type apply those of another one to nested values. -/
def Schema.Nests (s : Schema) (u v : TypeId) : Prop :=
  ∃ rs, s.adapted u = .ok rs ∧ v ∈ Action.nestedModels rs

/-- The declared rules that are derived for a type ask for those of another one. -/
def Engine.Nests (e : Engine) (u v : TypeId) : Prop :=
  ∃ rs, (Action.declaredRules u e).1 = .ok rs ∧ v ∈ Action.nestedModels rs

/-- A type leads to itself, and to the types that the declared rules of the types that it leads to ask
for. -/
def Engine.Leads (e : Engine) : TypeId → TypeId → Prop := Relation.ReflTransGen e.Nests

theorem Engine.nests_iff (h : e.world.schema.Faithful e.reflected) :
    e.Nests u v ↔ e.world.schema.Nests u v := by
  unfold Engine.Nests Schema.Nests
  rw [Action.declaredRules_fst u h]
  cases e.world.schema.adapted u with
  | error f => simp [Except.map]
  | ok rs => simp [Except.map, Action.nestedModels_numbered]

/-! ## 3. Registries with more types -/

namespace Registry

variable {reg reg₁ reg₂ : Registry}

/-- A registry that has just the declared rules of a type, and in which they are complete. -/
structure HasAdapted (reg : Registry) (s : Schema) (u : TypeId) : Prop where
  built : reg.isBuilt u = true
  rules : ∃ rs, s.adapted u = .ok rs ∧ (reg.rulesOf u).map Rule.value = rs.map Rule.value

theorem HasAdapted.kept (h : reg.HasAdapted s u) (hkept : Untouched u reg reg₁) :
    reg₁.HasAdapted s u := by
  refine ⟨hkept.built.trans h.built, ?_⟩
  rw [hkept.rulesOf]
  exact h.rules

/-- A registry in which some types that another one did not know have their declared rules, and nothing
else has changed. -/
def Adds (s : Schema) (S : Set TypeId) (reg reg₁ : Registry) : Prop :=
  ∀ u, Untouched u reg reg₁ ∨ u ∈ S ∧ reg.knows u = false ∧ reg₁.HasAdapted s u

namespace Adds

theorem refl (reg : Registry) : Adds s S reg reg := fun u => .inl (.refl u reg)

theorem keepsKnown (h : Adds s S reg reg₁) : KeepsKnown reg reg₁ := by
  intro u hu
  rcases h u with hkept | ⟨-, hnew, -⟩
  · exact hkept
  · rw [hu] at hnew
    cases hnew

theorem knows (h : Adds s S reg reg₁) (hu : reg.knows u = true) : reg₁.knows u = true :=
  (h.keepsKnown u hu).known.trans hu

/-- What is unknown afterwards was unknown before. -/
theorem unknown (h : Adds s S reg reg₁) (hu : reg₁.knows u = false) : reg.knows u = false := by
  cases hknown : reg.knows u with
  | false => rfl
  | true => rw [← hu, h.knows hknown]

theorem trans (h : Adds s S reg reg₁) (h₁ : Adds s S reg₁ reg₂) : Adds s S reg reg₂ := by
  intro u
  rcases h₁ u with hkept | ⟨hu, hnew, hhas⟩
  · rcases h u with hkept' | ⟨hu, hnew, hhas⟩
    · exact .inl (hkept'.trans hkept)
    · exact .inr ⟨hu, hnew, hhas.kept hkept⟩
  · exact .inr ⟨hu, h.unknown hnew, hhas⟩

end Adds

/-- Registering the declared rules of a type that is not known. -/
theorem hasAdapted_registering (hnew : reg.knows t = false) (h : s.adapted t = .ok rs) (first : Nat) :
    (reg.registering (t, Rule.numbered first rs)).HasAdapted s t := by
  obtain ⟨ms, hread, hrs⟩ := Schema.exists_reads_of_adapted h
  have hvalues := Action.map_value_numbered first rs
  refine ⟨isBuilt_registering reg t _, rs, h, ?_⟩
  rw [rulesOf_registering hnew hread (hvalues.trans hrs), hvalues]

theorem adds_registering (ht : t ∈ S) (hnew : reg.knows t = false) (h : s.adapted t = .ok rs)
    (first : Nat) : Adds s S reg (reg.registering (t, Rule.numbered first rs)) := by
  intro u
  by_cases hu : u = t
  · subst hu
    exact .inr ⟨ht, hnew, hasAdapted_registering hnew h first⟩
  · exact .inl (untouched_registering hu reg _)

/-- How many declared types are not known yet. -/
def unknownTypes (reg : Registry) (s : Schema) : Nat :=
  (s.ids.toFinset.filter fun u => reg.knows u = false).card

theorem unknownTypes_le (reg : Registry) (s : Schema) : reg.unknownTypes s ≤ s.types.length :=
  calc reg.unknownTypes s
    _ ≤ s.ids.toFinset.card := Finset.card_filter_le _ _
    _ ≤ s.ids.length := List.toFinset_card_le _
    _ = s.types.length := List.length_map _

theorem Adds.unknownTypes_le (h : Adds s S reg reg₁) : reg₁.unknownTypes s ≤ reg.unknownTypes s :=
  Finset.card_le_card (Finset.monotone_filter_right _ fun _ _ => h.unknown)

/-- A declared type that becomes known is one fewer that is not. -/
theorem Adds.unknownTypes_lt (h : Adds s S reg reg₁) (ht : t ∈ s.ids) (hnew : reg.knows t = false)
    (hknown : reg₁.knows t = true) : reg₁.unknownTypes s < reg.unknownTypes s := by
  refine Finset.card_lt_card (Finset.ssubset_iff_of_subset ?_ |>.mpr ⟨t, ?_, ?_⟩)
  · exact Finset.monotone_filter_right _ fun _ _ => h.unknown
  · exact Finset.mem_filter.mpr ⟨List.mem_toFinset.mpr ht, hnew⟩
  · intro hmem
    have hunknown := (Finset.mem_filter.mp hmem).2
    rw [hknown] at hunknown
    cases hunknown

end Registry

/-! ## 4. Registering types one after the other -/

namespace Engine

/-- What registering types leaves, whether it ends well or not. -/
structure Enters (s : Schema) (S : Set TypeId) (e : Engine) (p : Except Fault Unit × Engine) :
    Prop where
  schema : p.2.world.schema = s
  faithful : s.Faithful p.2.reflected
  adds : e.registry.Adds s S p.2.registry
  /-- If it ends well, the types are known that the types which have become known ask for. -/
  closed : p.1 = .ok () → ∀ u v, e.registry.knows u = false → p.2.registry.knows u = true →
    s.Nests u v → p.2.registry.knows v = true
  /-- If it fails, the declared rules of some type cannot be derived. -/
  failed : ∀ f, p.1 = .error f → ∃ u ∈ S, e.registry.knows u = false ∧ s.adapted u = .error f

/-- Nothing to register. -/
theorem Enters.refl (hschema : e.world.schema = s) (hfaithful : s.Faithful e.reflected) :
    Enters s S e (.ok (), e) where
  schema := hschema
  faithful := hfaithful
  adds := .refl e.registry
  closed _ u v hnew hknown _ := by
    rw [hnew] at hknown
    cases hknown
  failed f h := by cases h

theorem Enters.trans {p : Except Fault Unit × Engine} (h : Enters s S e (.ok (), e₁))
    (h₁ : Enters s S e₁ p) : Enters s S e p where
  schema := h₁.schema
  faithful := h₁.faithful
  adds := h.adds.trans h₁.adds
  closed hok u v hnew hknown hv := by
    cases hu : e₁.registry.knows u with
    | true => exact h₁.adds.knows (h.closed rfl u v hnew hu hv)
    | false => exact h₁.closed hok u v hu hknown hv
  failed f hf := by
    obtain ⟨u, hu, hnew, hfails⟩ := h₁.failed f hf
    exact ⟨u, hu, h.adds.unknown hnew, hfails⟩

/-- What registering one type leaves. -/
structure EntersType (s : Schema) (S : Set TypeId) (t : TypeId) (e : Engine)
    (p : Except Fault Unit × Engine) : Prop extends Enters s S e p where
  known : p.1 = .ok () → p.2.registry.knows t = true
  /-- If it fails, then at the type itself, or after the type has been registered. -/
  failedBehind : ∀ f, p.1 = .error f →
    s.adapted t = .error f ∧ p.2.registry = e.registry ∨ p.2.registry.HasAdapted s t

end Engine

namespace Action

open Engine (Enters EntersType)

/-- Registering the types of a list, if there is the depth for each of them. -/
theorem forM_enters {depth : Nat}
    (hstep : ∀ v ∈ S, ∀ e, e.world.schema = s → s.Faithful e.reflected →
      e.registry.unknownTypes s < depth → EntersType s S v e (ensureWithin depth v e))
    {us : List TypeId} (hus : ∀ v ∈ us, v ∈ S) (hschema : e.world.schema = s)
    (hfaithful : s.Faithful e.reflected) (hdepth : us ≠ [] → e.registry.unknownTypes s < depth) :
    Enters s S e (us.forM (ensureWithin depth) e) ∧
      ((us.forM (ensureWithin depth) e).1 = .ok () →
        ∀ v ∈ us, (us.forM (ensureWithin depth) e).2.registry.knows v = true) := by
  induction us generalizing e with
  | nil => exact ⟨.refl hschema hfaithful, fun _ v hv => by cases hv⟩
  | cons v us ih =>
    have hdepth := hdepth (List.cons_ne_nil v us)
    have hfirst := hstep v (hus v List.mem_cons_self) e hschema hfaithful hdepth
    have hrun : (v :: us).forM (ensureWithin depth) e =
        (do ensureWithin depth v; us.forM (ensureWithin depth) : Action Unit) e := rfl
    rw [hrun, bind_apply]
    rcases hresult : ensureWithin depth v e with ⟨f | _, e₁⟩ <;> rw [hresult] at hfirst
    · have hfailed : Enters s S e (.error f, e₁) := hfirst.toEnters
      exact ⟨hfailed, fun h => by cases h⟩
    · obtain ⟨hrest, hknown⟩ := ih (fun w hw => hus w (List.mem_cons_of_mem v hw)) hfirst.schema
        hfirst.faithful fun _ => hfirst.adds.unknownTypes_le.trans_lt hdepth
      refine ⟨hfirst.toEnters.trans hrest, fun hok w hw => ?_⟩
      rcases List.mem_cons.mp hw with rfl | hw
      · exact hrest.adds.knows (hfirst.known rfl)
      · exact hknown hok w hw

/-- Registering a type whose declared rules cannot be derived. -/
theorem ensureWithin_of_adapted_error {depth : Nat} {f : Fault}
    (hfaithful : e.world.schema.Faithful e.reflected) (hnew : e.registry.knows t = false)
    (h : e.world.schema.adapted t = .error f) :
    ensureWithin (depth + 1) t e = (.error f, (declaredRules t e).2) := by
  have hfails : declaredRules t e = (.error f, (declaredRules t e).2) := by
    refine Prod.ext ?_ rfl
    rw [declaredRules_fst t hfaithful, h]
    rfl
  rw [ensureWithin_of_unknown hnew, bind_error hfails]

/-- Registering a type whose declared rules can be derived: they are registered, and then those of the
types nested in it. -/
theorem ensureWithin_of_adapted (depth : Nat) (hfaithful : e.world.schema.Faithful e.reflected)
    (hnew : e.registry.knows t = false) (h : e.world.schema.adapted t = .ok rs) :
    ∃ e₁, ensureWithin (depth + 1) t e = (nestedModels rs).forM (ensureWithin depth) e₁ ∧
      e₁.world = e.world ∧ e.world.schema.Faithful e₁.reflected ∧
      e₁.registry = e.registry.registering (t, Rule.numbered e.nextId rs) := by
  obtain ⟨hworld, hregistry, -⟩ := declaredRules_leaves t e
  have hremembers := declaredRules_faithful t hfaithful
  obtain ⟨e₁, hrun⟩ : ∃ e₁, declaredRules t e = (.ok (Rule.numbered e.nextId rs), e₁) := by
    refine ⟨_, Prod.ext ?_ rfl⟩
    rw [declaredRules_fst t hfaithful, h]
    rfl
  rw [hrun] at hworld hregistry hremembers
  have hadd : addRules t (Rule.numbered e.nextId rs) true e₁ =
      (.ok (), (addRules t (Rule.numbered e.nextId rs) true e₁).2) := rfl
  refine ⟨(addRules t (Rule.numbered e.nextId rs) true e₁).2, ?_, hworld, hremembers, ?_⟩
  · rw [ensureWithin_of_unknown hnew, bind_ok hrun, bind_ok hadd, nestedModels_numbered]
  · rw [← hregistry]
    rfl

/-- A type whose declared rules cannot be derived is not registered, nor is any other. -/
theorem enters_of_adapted_error {depth : Nat} {f : Fault} (ht : t ∈ S)
    (hfaithful : e.world.schema.Faithful e.reflected) (hnew : e.registry.knows t = false)
    (h : e.world.schema.adapted t = .error f) :
    EntersType e.world.schema S t e (ensureWithin (depth + 1) t e) := by
  obtain ⟨hworld, hregistry, -⟩ := declaredRules_leaves t e
  rw [ensureWithin_of_adapted_error hfaithful hnew h]
  refine ⟨⟨congrArg World.schema hworld, declaredRules_faithful t hfaithful, ?_, fun hok => ?_,
    fun f' hf => ?_⟩, fun hok => ?_, fun f' hf => ?_⟩
  · show Registry.Adds _ S e.registry (declaredRules t e).2.registry
    rw [hregistry]
    exact .refl e.registry
  · cases hok
  · cases hf
    exact ⟨t, ht, hnew, h⟩
  · cases hok
  · cases hf
    exact .inl ⟨h, hregistry⟩

/-- A type whose declared rules can be derived is registered, if each of the types nested in it is
registered as it should be. -/
theorem enters_of_adapted {depth : Nat} (hS : ∀ u ∈ S, ∀ v, s.Nests u v → v ∈ S) (ht : t ∈ S)
    (hschema : e.world.schema = s) (hfaithful : s.Faithful e.reflected)
    (hnew : e.registry.knows t = false) (h : s.adapted t = .ok rs)
    (hdepth : e.registry.unknownTypes s < depth + 1)
    (hstep : ∀ v ∈ S, ∀ e, e.world.schema = s → s.Faithful e.reflected →
      e.registry.unknownTypes s < depth → EntersType s S v e (ensureWithin depth v e)) :
    EntersType s S t e (ensureWithin (depth + 1) t e) := by
  subst hschema
  obtain ⟨e₁, hrun, hworld, hremembers, hregistry⟩ := ensureWithin_of_adapted depth hfaithful hnew h
  have hadds : e.registry.Adds e.world.schema S e₁.registry := by
    rw [hregistry]
    exact Registry.adds_registering ht hnew h e.nextId
  have hhas : e₁.registry.HasAdapted e.world.schema t := by
    rw [hregistry]
    exact Registry.hasAdapted_registering hnew h e.nextId
  have hknown := Registry.knows_of_isBuilt hhas.built
  have hfewer : nestedModels rs ≠ [] → e₁.registry.unknownTypes e.world.schema < depth := by
    intro hne
    -- a type that is not declared has no rules, so it asks for no other type
    have hdeclared : t ∈ e.world.schema.ids := by
      by_contra hnot
      rw [Schema.adapted_of_notMem hnot] at h
      cases h
      exact hne rfl
    have hlt := hadds.unknownTypes_lt hdeclared hnew hknown
    omega
  obtain ⟨hrest, hall⟩ := forM_enters hstep (fun v hv => hS t ht v ⟨rs, h, hv⟩)
    (congrArg World.schema hworld) hremembers hfewer
  rw [hrun]
  refine ⟨⟨hrest.schema, hrest.faithful, hadds.trans hrest.adds, fun hok u v hu hu' hv => ?_,
    fun f hf => ?_⟩, fun _ => hrest.adds.knows hknown, fun f hf => .inr ?_⟩
  · by_cases heq : u = t
    · subst heq
      obtain ⟨rs', hrs', hv⟩ := hv
      obtain rfl := Except.ok.inj (h.symm.trans hrs')
      exact hall hok v hv
    · refine hrest.closed hok u v ?_ hu' hv
      rw [hregistry, (Registry.untouched_registering heq _ _).known, hu]
  · obtain ⟨u, hu, hu', hfails⟩ := hrest.failed f hf
    exact ⟨u, hu, hadds.unknown hu', hfails⟩
  · exact hhas.kept (hrest.adds.keepsKnown t hknown)

/-- **Registering a type, and the types nested in it.**  The induction is on the depth, which suffices
because every type that is entered is known from then on, and only declared types have rules. -/
theorem ensureWithin_enters {depth : Nat} (hS : ∀ u ∈ S, ∀ v, s.Nests u v → v ∈ S) (ht : t ∈ S)
    (hschema : e.world.schema = s) (hfaithful : s.Faithful e.reflected)
    (hdepth : e.registry.unknownTypes s < depth) :
    EntersType s S t e (ensureWithin depth t e) := by
  induction depth generalizing t e with
  | zero => exact absurd hdepth (Nat.not_lt_zero _)
  | succ depth ih =>
    cases hnew : e.registry.knows t with
    | true =>
      rw [ensureWithin_of_knows hnew]
      exact ⟨.refl hschema hfaithful, fun _ => hnew, fun f h => by cases h⟩
    | false =>
      subst hschema
      cases hadapted : e.world.schema.adapted t with
      | error f => exact enters_of_adapted_error ht hfaithful hnew hadapted
      | ok rs =>
        exact enters_of_adapted hS ht rfl hfaithful hnew hadapted hdepth fun v hv e hschema hfaithful =>
          ih hv hschema hfaithful

/-- **What registering a type makes of the engine**, whether it ends well or not. -/
theorem ensure_enters (t : TypeId) (hfaithful : e.world.schema.Faithful e.reflected) :
    EntersType e.world.schema {u | e.Leads t u} t e (ensure t e) := by
  have hdepth : e.registry.unknownTypes e.world.schema < e.world.schema.types.length + 2 :=
    (Registry.unknownTypes_le _ _).trans_lt (by omega)
  rw [ensure_apply]
  refine ensureWithin_enters (fun u hu v hv => ?_) Relation.ReflTransGen.refl rfl hfaithful hdepth
  exact Relation.ReflTransGen.tail hu ((Engine.nests_iff hfaithful).mpr hv)

end Action

/-! ## 5. When all declared rules can be derived -/

theorem Registry.HasAdapted.rulesOf_eq {reg : Registry} (h : reg.HasAdapted e.world.schema u)
    (hfaithful : e.world.schema.Faithful e.reflected) (hrs : (Action.declaredRules u e).1 = .ok rs) :
    (reg.rulesOf u).map Rule.value = rs.map Rule.value := by
  obtain ⟨rs', hrs', hrules⟩ := h.rules
  rw [Action.declaredRules_fst u hfaithful, hrs'] at hrs
  cases hrs
  rw [hrules, Action.map_value_numbered]

/-- **Registering a type registers all types that it leads to**, if none of them is known and the
declared rules of each of them can be derived.  It comes to an end, however the types lead to each other.
Then each of these types has just its declared rules, which are complete, and nothing has changed for any
other type. -/
theorem ensure_closes (hfaithful : e.world.schema.Faithful e.reflected)
    (hnew : ∀ u, e.Leads t u → e.registry.knows u = false)
    (hadapts : ∀ u, e.Leads t u → ∃ rs, (Action.declaredRules u e).1 = .ok rs) :
    ∃ e', Action.ensure t e = (.ok (), e') ∧
      (∀ u, e.Leads t u → e'.registry.isBuilt u = true ∧
        ∀ rs, (Action.declaredRules u e).1 = .ok rs →
          (e'.registry.rulesOf u).map Rule.value = rs.map Rule.value) ∧
      ∀ u, ¬ e.Leads t u → Registry.Untouched u e.registry e'.registry := by
  have henters := Action.ensure_enters t hfaithful
  rcases hrun : Action.ensure t e with ⟨f | _, e'⟩ <;> rw [hrun] at henters
  · obtain ⟨u, hu, -, hfails⟩ := henters.failed f rfl
    obtain ⟨rs, hrs⟩ := hadapts u hu
    rw [Action.declaredRules_fst u hfaithful, hfails] at hrs
    cases hrs
  · refine ⟨e', rfl, fun u hu => ?_, fun u hu => ?_⟩
    · have hknown : e'.registry.knows u = true := by
        induction hu with
        | refl => exact henters.known rfl
        | @tail v w hv hw ih =>
          exact henters.closed rfl v w (hnew v hv) ih ((Engine.nests_iff hfaithful).mp hw)
      rcases henters.adds u with hkept | ⟨-, -, hhas⟩
      · have hsame := hkept.known
        rw [hknown, hnew u hu] at hsame
        cases hsame
      · exact ⟨hhas.built, fun rs hrs => hhas.rulesOf_eq hfaithful hrs⟩
    · rcases henters.adds u with hkept | ⟨hleads, -, -⟩
      · exact hkept
      · exact absurd hleads hu

/-! ### Teams and players

A team has players, and each of them has a team. -/

namespace League

def team : TypeId := .declared "Team"

def player : TypeId := .declared "Player"

def schema : Schema := ⟨[
  { name := "Team"
    members := [
      ⟨"players", .field (.annotated (.list (.type player)) [{ check := .validateEach player }])
        none none none⟩]
    line := [team] },
  { name := "Player"
    members := [
      ⟨"name", .field (.annotated (.type (.builtin .text)) [{ check := .required false }])
        none none none⟩,
      ⟨"team", .field (.annotated (.type team) [{ check := .validateWith team }]) none none none⟩]
    line := [player] }]⟩

def engine : Engine := { world := { schema } }

/-- The types that the declared rules of a type ask for. -/
def asked (u : TypeId) : Option (List TypeId) :=
  (Action.declaredRules u engine).1.toOption.map Action.nestedModels

theorem asked_team : asked team = some [player] := by decide +kernel

theorem asked_player : asked player = some [team] := by decide +kernel

theorem nests_iff : engine.Nests u v ↔ ∃ us, asked u = some us ∧ v ∈ us := by
  unfold Engine.Nests asked
  cases (Action.declaredRules u engine).1 with
  | error f => simp [Except.toOption]
  | ok rs => simp [Except.toOption]

theorem leads_iff : engine.Leads team u ↔ u = team ∨ u = player := by
  constructor
  · intro h
    induction h with
    | refl => exact .inl rfl
    | tail _ hv ih =>
      obtain ⟨us, hus, hv⟩ := nests_iff.mp hv
      rcases ih with rfl | rfl
      · rw [asked_team] at hus
        cases hus
        exact .inr (List.mem_singleton.mp hv)
      · rw [asked_player] at hus
        cases hus
        exact .inl (List.mem_singleton.mp hv)
  · rintro (rfl | rfl)
    · exact .refl
    · exact .single (nests_iff.mpr ⟨_, asked_team, List.mem_singleton.mpr rfl⟩)

theorem exists_rules (h : engine.Leads team u) : ∃ rs, (Action.declaredRules u engine).1 = .ok rs := by
  have hasked : ∃ us, asked u = some us := by
    rcases leads_iff.mp h with rfl | rfl
    · exact ⟨_, asked_team⟩
    · exact ⟨_, asked_player⟩
  obtain ⟨us, hus⟩ := hasked
  obtain ⟨rs, hrs, -⟩ := Option.map_eq_some_iff.mp hus
  exact ⟨rs, ok_of_toOption hrs⟩

end League

/-- Registering teams registers players, which lead back to teams. -/
theorem ensure_closes_league : ∃ e', Action.ensure League.team League.engine = (.ok (), e') ∧
    e'.registry.isBuilt League.team = true ∧ e'.registry.isBuilt League.player = true ∧
      Registry.Untouched (.builtin .text) League.engine.registry e'.registry := by
  obtain ⟨e', hrun, hled, hothers⟩ := ensure_closes (Schema.faithful_nil League.schema)
    (fun _ _ => rfl) (fun _ => League.exists_rules)
  refine ⟨e', hrun, (hled _ (League.leads_iff.mpr (.inl rfl))).1,
    (hled _ (League.leads_iff.mpr (.inr rfl))).1, hothers _ fun h => ?_⟩
  rcases League.leads_iff.mp h with h | h <;> cases h

/-! ## 6. When some declared rules cannot be derived -/

/-- **A registration that failed leaves the registry as it was** exactly if it failed at the declared
rules of the type itself.  Then the type is not complete, and it fails again in the same way.  If it
failed at a type nested in it, the type counts as complete and is not registered again.  In any case the
types that were entered before the fault have their declared rules, and nothing has changed for any other
type. -/
theorem failed_ensure_keeps_iff {f : Fault} (hfaithful : e.world.schema.Faithful e.reflected)
    (h : Action.ensure t e = (.error f, e')) :
    ∃ u, e.Leads t u ∧ e.registry.knows u = false ∧ (Action.declaredRules u e).1 = .error f ∧
      (e'.registry = e.registry ↔ u = t) ∧
      (e'.registry.isBuilt t = false ↔ u = t) ∧
      ((Action.ensure t e').1 = .error f ↔ u = t) ∧
      (u ≠ t → Action.ensure t e' = (.ok (), e')) ∧
      ∀ v, Registry.Untouched v e.registry e'.registry ∨
        e.Leads t v ∧ e.registry.knows v = false ∧ e'.registry.HasAdapted e.world.schema v := by
  have henters := Action.ensure_enters t hfaithful
  rw [h] at henters
  have hunknown : e.registry.knows t = false := by
    refine Bool.eq_false_iff.mpr fun hknown => ?_
    rw [Action.ensure_of_knows hknown] at h
    cases h
  have hderived : ∀ u, e.world.schema.adapted u = .error f →
      (Action.declaredRules u e).1 = .error f := fun u hfails => by
    rw [Action.declaredRules_fst u hfaithful, hfails]
    rfl
  rcases henters.failedBehind f rfl with ⟨hfails, hsame⟩ | hhas
  · have hagain : (Action.ensure t e').1 = .error f := by
      have hfaithful' : e'.world.schema.Faithful e'.reflected := henters.schema ▸ henters.faithful
      have hfails' : e'.world.schema.adapted t = .error f := henters.schema ▸ hfails
      have hunknown' : e'.registry.knows t = false := hsame ▸ hunknown
      rw [Action.ensure_apply,
        Action.ensureWithin_of_adapted_error hfaithful' hunknown' hfails']
    have hincomplete : e'.registry.isBuilt t = false := by
      refine Bool.eq_false_iff.mpr fun hbuilt => ?_
      rw [hsame] at hbuilt
      rw [Registry.knows_of_isBuilt hbuilt] at hunknown
      cases hunknown
    exact ⟨t, .refl, hunknown, hderived t hfails, iff_of_true hsame rfl, iff_of_true hincomplete rfl,
      iff_of_true hagain rfl, fun hne => absurd rfl hne, henters.adds⟩
  · obtain ⟨u, hu, hnew, hfails⟩ := henters.failed f rfl
    have hne : u ≠ t := by
      rintro rfl
      obtain ⟨rs, hrs, -⟩ := hhas.rules
      rw [hfails] at hrs
      cases hrs
    have hknown := Registry.knows_of_isBuilt hhas.built
    have hagain := Action.ensure_of_knows hknown
    refine ⟨u, hu, hnew, hderived u hfails, iff_of_false (fun hsame => ?_) hne,
      iff_of_false (by simp [hhas.built]) hne, iff_of_false (by simp [hagain]) hne, fun _ => hagain,
      henters.adds⟩
    rw [hsame, hunknown] at hknown
    cases hknown

/-! ### An owner and a child

A child is to be compared with a member that it does not have, and an owner has a child. -/

namespace Family

def owner : TypeId := .declared "Owner"

def child : TypeId := .declared "Child"

def schema : Schema := ⟨[
  { name := "Child"
    members := [
      ⟨"confirm", .field (.annotated (.type (.builtin .text))
        [{ check := .compare "missing" .equal }]) none none none⟩]
    line := [child] },
  { name := "Owner"
    members := [
      ⟨"child", .field (.annotated (.type child) [{ check := .validateWith child }]) none none none⟩]
    line := [owner] }]⟩

def engine : Engine := { world := { schema } }

/-- The engine after owners could not be registered. -/
def after : Engine := (Action.ensure owner engine).2

theorem ensure_fails : ∃ f, Action.ensure owner engine = (.error f, after) := by
  have hnone : (Action.ensure owner engine).1.toOption = none := by decide +kernel
  cases hrun : (Action.ensure owner engine).1 with
  | error f => exact ⟨f, Prod.ext hrun rfl⟩
  | ok a => rw [hrun] at hnone; cases hnone

end Family

/-- Owners count as complete after their registration has failed, and the next one ends well. -/
theorem failed_ensure_keeps_iff_family : Family.after.registry.isBuilt Family.owner = true ∧
    Action.ensure Family.owner Family.after = (.ok (), Family.after) := by
  obtain ⟨f, hfails⟩ := Family.ensure_fails
  obtain ⟨u, -, -, hu, -, hbuilt, -, hagain, -⟩ :=
    failed_ensure_keeps_iff (Schema.faithful_nil Family.schema) hfails
  have hne : u ≠ Family.owner := by
    rintro rfl
    have hsome : (Action.declaredRules Family.owner Family.engine).1.toOption.isSome = true := by
      decide +kernel
    rw [hu] at hsome
    cases hsome
  exact ⟨by simpa using fun h => hne (hbuilt.mp h), hagain hne⟩

/-- **A registration that failed does not always leave the registry as it was.** -/
theorem not_failed_ensure_keeps :
    ¬ ∀ (e e' : Engine) (t : TypeId) (f : Fault), Action.ensure t e = (.error f, e') →
      e'.registry = e.registry ∧ e'.registry.isBuilt t = false ∧
        (Action.ensure t e').1 = .error f := by
  intro h
  obtain ⟨f, hfails⟩ := Family.ensure_fails
  obtain ⟨-, hincomplete, -⟩ := h _ _ _ _ hfails
  have hbuilt : Family.after.registry.isBuilt Family.owner = true := by decide +kernel
  rw [hbuilt] at hincomplete
  cases hincomplete

end MemberRules
