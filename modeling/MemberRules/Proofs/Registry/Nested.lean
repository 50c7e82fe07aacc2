/-
# Nested rules are registered with the rules of their type

A check by nested rules is attached by a block that configures rules for the type of the nested
values.  The rules are meant to be those of the check alone.  But the block configures them as rules
of the type, and building them adds them to what the registry holds for it, next to the rules that
the type has anyway, and completes all of them with the settings around the block.

So whatever a block gathers shows in the registry.  The registry holds for the type what it held
before exactly if the type was complete, and adding what was gathered makes no difference.  If the
registry holds what it held before for all types, no validation can tell that there was a block.

* `Action.gathered`, `Action.nestedGathered`: what a configuration or a block gathers for its build.
* `childRules_registry`: what a block of nested rules does to the registry.
* `childRules_isolated_iff`: when the registry holds for the type what it held before.
* `childRules_not_isolated`: a block that changes how values of the type are validated.
-/
import MemberRules.Proofs.Configuration.Steps
import MemberRules.Proofs.Registry.Contents
import MemberRules.Proofs.Waiting.Lockstep

namespace MemberRules

open MemberRules.Computation Engine

variable {e e' : Engine} {b c : Nat} {t : TypeId}

/-! ## 1. What is gathered for a build -/

/-- What a configuration registers when it is built: the type and the rules. -/
def Action.gathered (c : Nat) : Action (TypeId × List Rule) := do
  Action.commit c
  let cfg ← Action.configuration c
  return (cfg.type, ← Action.gather cfg)

/-- The registry with gathered rules registered for their type, and the type marked as complete. -/
def Registry.registering (reg : Registry) (x : TypeId × List Rule) : Registry :=
  (reg.addAll x.1 x.2).mark x.1

/-- **Building registers what was gathered**, and marks the type as complete. -/
theorem build_registry {rs : List Rule} (h : Action.build c e = (.ok rs, e')) :
    ∃ x mid, Action.gathered c e = (.ok x, mid) ∧ e'.registry = mid.registry.registering x := by
  rw [Action.build_eq] at h
  obtain ⟨done, e₁, hcommit, h⟩ := bind_eq_ok.mp h
  obtain ⟨cfg, e₂, hcfg, h⟩ := bind_eq_ok.mp h
  unfold Action.gathered
  rw [bind_ok hcommit, bind_ok hcfg]
  cases hidle : cfg.isIdle with
  | true =>
    rw [Action.gather_eq]
    simp only [hidle, if_true] at h ⊢
    cases h
    exact ⟨_, _, rfl, rfl⟩
  | false =>
    simp only [hidle, Bool.false_eq_true, if_false] at h
    obtain ⟨rs', e₃, hgather, h⟩ := bind_eq_ok.mp h
    rw [bind_ok hgather]
    cases h
    exact ⟨_, _, rfl, rfl⟩

/-- What is gathered is gathered for the type of the configuration. -/
theorem gathered_type {x : TypeId × List Rule} (hc : c < e.configurations.length)
    (h : Action.gathered c e = (.ok x, e')) : x.1 = (e.configuration c).type := by
  obtain ⟨done, e₁, hcommit, h⟩ := bind_eq_ok.mp h
  obtain ⟨cfg, e₂, hcfg, h⟩ := bind_eq_ok.mp h
  obtain ⟨rs, e₃, hgather, h⟩ := bind_eq_ok.mp h
  cases h
  cases hcfg
  have hstays : Action.StaysIn ⟨0, 0⟩ (Action.commit c) := .commit c
  have htype := (hstays e e.inArea_zero).2.1.types c hc
  rw [hcommit] at htype
  exact htype

/-! ## 2. Blocks of nested rules -/

/-- What a block of nested rules gathers for its build: the type of the nested values and the
rules. -/
def Action.nestedGathered (b : Nat) (element : Option TypeId) (steps : List TypeStep) :
    Action (TypeId × List Rule) := do
  let t ← Action.nestedType b element
  let child ← Action.newChild (← Action.builder b).owner t
  runTypeSteps child steps
  Action.gathered child

/-- A configuration of nested values is of their type. -/
theorem newChild_eq_ok {child : Nat} (h : Action.newChild c t e = (.ok child, e')) :
    child < e'.configurations.length ∧ (e'.configuration child).type = t := by
  obtain ⟨child', e₁, hnew, h⟩ := bind_eq_ok.mp h
  obtain ⟨done, e₂, hensure, hnew⟩ := bind_eq_ok.mp hnew
  obtain ⟨e₃, e₄, hget, hnew⟩ := bind_eq_ok.mp hnew
  cases hget
  cases hnew
  obtain ⟨cfg, e₃, hcfg, h⟩ := bind_eq_ok.mp h
  cases hcfg
  cases h
  have hlast := fun cfg => configuration_newConfiguration (e := e₂) cfg e₂.configurations.length
  simp only [lt_irrefl, if_false, if_true] at hlast
  refine ⟨by simp [Engine.updateConfiguration], ?_⟩
  rcases configuration_updateConfiguration _ _ _ with heq | heq <;> rw [heq]
  · exact congrArg Configuration.type (hlast _)
  · exact congrArg Configuration.type (hlast _)

/-- **A block of nested rules registers what it gathered** for the type of the nested values. -/
theorem childRules_registry {element : Option TypeId} {steps : List TypeStep}
    (h : Action.childRules b element (fun child => runTypeSteps child steps) e = (.ok (), e')) :
    ∃ t rs mid, (Action.nestedType b element e).1 = .ok t ∧
      Action.nestedGathered b element steps e = (.ok (t, rs), mid) ∧
      e'.registry = mid.registry.registering (t, rs) := by
  obtain ⟨t, e₁, htype, h⟩ := bind_eq_ok.mp h
  obtain ⟨x, e₂, hbuilder, h⟩ := bind_eq_ok.mp h
  obtain ⟨child, e₃, hchild, h⟩ := bind_eq_ok.mp h
  obtain ⟨done, e₄, hsteps, h⟩ := bind_eq_ok.mp h
  obtain ⟨out, e₅, hbuild, hattach⟩ := bind_eq_ok.mp h
  obtain ⟨⟨u, rs⟩, mid, hgathered, hregistry⟩ := build_registry hbuild
  obtain ⟨hlt, hnew⟩ := newChild_eq_ok hchild
  have hsteps' : runTypeSteps child steps e₃ = (.ok done, e₄) := hsteps
  obtain ⟨-, hout, -⟩ := runTypeSteps_staysIn steps child e₃ e₃.inArea_zero
  rw [hsteps'] at hout
  have hu : u = t := by
    rw [← hnew, ← hout.types child hlt]
    exact gathered_type (hlt.trans_le hout.configurations) hgathered
  subst hu
  refine ⟨u, rs, mid, by rw [htype], ?_, ?_⟩
  · unfold Action.nestedGathered
    rw [bind_ok htype, bind_ok hbuilder, bind_ok hchild, bind_ok hsteps]
    exact hgathered
  · obtain ⟨r, reflected, -, rfl⟩ := attachTo_eq_ok hattach
    exact hregistry

/-! ## 3. When the registry is left as it was -/

/-- The registry as it was before a block looks the same to a validation as the one after it, if
they hold the same. -/
theorem like_of_registry (h : e.registry.Like e'.registry) :
    { e' with registry := e.registry }.Like e' :=
  { Engine.Like.refl e' with registry := h }

/-- **The registry holds for the type of nested values what it held before** exactly if the type was
complete, and adding what the block gathered gives what was held before.  What was gathered is in the
registry in any case, by its keys, and no other type is added to.  If the registry holds what it held
before for all types, validations end as they would without what the block did to it. -/
theorem childRules_isolated_iff {element : Option TypeId} {steps : List TypeStep}
    (h : Action.childRules b element (fun child => runTypeSteps child steps) e = (.ok (), e')) :
    ∃ t rs mid, (Action.nestedType b element e).1 = .ok t ∧
      Action.nestedGathered b element steps e = (.ok (t, rs), mid) ∧
      (∀ r ∈ rs, r.uniqueKey ∈ e'.registry.keysOf t) ∧
      (∀ u, u ≠ t → Registry.Same u mid.registry e'.registry) ∧
      (Registry.Same t e.registry e'.registry ↔
        e.registry.isBuilt t = true ∧ (mid.registry.addAll t rs).shown t = e.registry.shown t) ∧
      (Registry.Same t e.registry e'.registry → ∀ r ∈ rs, r.uniqueKey ∈ e.registry.keysOf t) ∧
      (e.registry.Like e'.registry → ∀ u v,
        (Validation.validate u v e').1 =
          (Validation.validate u v { e' with registry := e.registry }).1 ∧
        ∀ limit, (Validation.validatePatiently u v limit e').1 =
          (Validation.validatePatiently u v limit { e' with registry := e.registry }).1) := by
  obtain ⟨t, rs, mid, htype, hgathered, hregistry⟩ := childRules_registry h
  have hadded : ∀ r ∈ rs, r.uniqueKey ∈ e'.registry.keysOf t := by
    intro r hr
    rw [hregistry]
    exact Registry.mem_keysOf_addAll.mpr (.inl (List.mem_map_of_mem hr))
  have hbuilt : e'.registry.isBuilt t = true := by
    rw [hregistry]
    exact Registry.isBuilt_mark true
  have hothers : ∀ u, u ≠ t → Registry.Same u mid.registry e'.registry := by
    intro u hu
    rw [hregistry]
    exact (Registry.same_addAll hu rs).trans (Registry.same_mark hu true)
  refine ⟨t, rs, mid, htype, hgathered, hadded, hothers,
    ⟨fun hsame => ?_, fun ⟨hdone, hshown⟩ => ?_⟩, fun hsame r hr => ?_,
    fun hlike u v => Validation.validate_of_like (like_of_registry hlike) u v⟩
  · exact ⟨hsame.built ▸ hbuilt, by rw [← hsame.rules, hregistry]; rfl⟩
  · have hknown := Registry.knows_of_isBuilt hbuilt
    refine ⟨?_, hbuilt.trans hdone.symm, hknown.trans (Registry.knows_of_isBuilt hdone).symm⟩
    rw [hregistry]
    exact hshown
  · have hkey := hadded r hr
    rw [Registry.keysOf_eq_shown, hsame.rules] at hkey
    rw [Registry.keysOf_eq_shown]
    exact hkey

/-! ## 4. Lines of an order

The items of an order are to be validated by a rule for their number, which items themselves need
not have. -/

namespace OrderLines

def schema : Schema := ⟨[
  { name := "Item"
    members := [⟨"sku", .field (.type (.builtin .text)) none none none⟩]
    line := [.declared "Item"] },
  { name := "Order"
    members := [⟨"lines", .field (.list (.type (.declared "Item"))) none none none⟩]
    line := [.declared "Order"] }]⟩

/-- An engine with an item without a number, and with a builder for the lines of orders. -/
def engine : Engine :=
  ((do
    let c ← Action.configure (.declared "Order")
    let _ ← Action.newBuilder c (.ref ⟨.declared "Order", "lines", .field⟩) true none : Action Unit)
      { world := { schema, objects := [⟨.declared "Item", [("sku", .text "")]⟩] } }).2

def steps : List TypeStep := [
  .builder (.ref ⟨.declared "Item", "sku", .field⟩) false none [
    .check (.attach (.ok { check := .required false }))]]

/-- The engine with the rule for the items of an order. -/
def after : Engine :=
  (Action.childRules 0 none (fun child => runTypeSteps child steps) engine).2

theorem childRules_ok :
    Action.childRules 0 none (fun child => runTypeSteps child steps) engine = (.ok (), after) :=
  eq_ok_of_toOption (by decide +kernel)

end OrderLines

/-- The rule for the items of an order is registered for items. -/
theorem childRules_isolated_iff_lines :
    ¬ Registry.Same (.declared "Item") OrderLines.engine.registry OrderLines.after.registry := by
  obtain ⟨t, rs, mid, htype, hgathered, -, -, -, hold, -⟩ :=
    childRules_isolated_iff OrderLines.childRules_ok
  have hitem : (Action.nestedType 0 none OrderLines.engine).1.toOption = some (.declared "Item") := by
    decide +kernel
  rw [htype] at hitem
  obtain rfl : t = .declared "Item" := Option.some.inj hitem
  have hcount : (Action.nestedGathered 0 none OrderLines.steps OrderLines.engine).1.toOption.map
      (fun x => x.2.isEmpty) = some false := by decide +kernel
  have hempty : OrderLines.engine.registry.keysOf (.declared "Item") = [] := by decide +kernel
  rw [hgathered] at hcount
  intro hsame
  cases rs with
  | nil => cases hcount
  | cons r rs =>
    have hkey := hold hsame r List.mem_cons_self
    rw [hempty] at hkey
    cases hkey

/-- **A block of nested rules can change how values of their type are validated.** -/
theorem childRules_not_isolated :
    ¬ ∀ {b : Nat} {element : Option TypeId} {steps : List TypeStep} {e e' : Engine},
      Action.childRules b element (fun child => runTypeSteps child steps) e = (.ok (), e') →
      ∀ t v, (Validation.validate t v e').1.map (fun result => result.failures.length) =
        (Validation.validate t v e).1.map (fun result => result.failures.length) := by
  intro h
  have hsame := congrArg Except.toOption
    (h OrderLines.childRules_ok (.declared "Item") (.object 0))
  have hbefore : ((Validation.validate (.declared "Item") (.object 0) OrderLines.engine).1.map
      fun result => result.failures.length).toOption = some 0 := by decide +kernel
  have hafter : ((Validation.validate (.declared "Item") (.object 0) OrderLines.after).1.map
      fun result => result.failures.length).toOption = some 1 := by decide +kernel
  rw [hbefore, hafter] at hsame
  cases hsame

end MemberRules
