/-
# Building twice

Building a configuration again is meant to end as building it did: with the same rules, or with the
same error.  After a build nothing is left to gather, so that building again gives the rules of the
last build and changes nothing.  But a build that is refused, because the member that was started
last has no check, forgets this member before it looks for checks.  So building again does what the
first build would have done without the member, and completes the type.

* `Action.build_build`: what a build leaves is built already.
* `Action.build_eq_error`, `Engine.abandoned`: how a build is refused, and what it leaves then.
* `build_again`: how building twice ends.
* `refused_build_completes`: a type that comes to be complete by a second build.
-/
import MemberRules.Proofs.Configuration.Work
import MemberRules.Proofs.Declared.Blocks
import MemberRules.Proofs.Registry.Growth

namespace MemberRules

open MemberRules.Computation

/-! ## 1. Building what has been built -/

namespace Registry

variable {reg : Registry} {t : TypeId}

theorem updateEntry_of_lookup {κ α : Type} [BEq κ] {k : κ} {x default : α} {es : List (κ × α)}
    [LawfulBEq κ] (h : es.lookup k = some x) : updateEntry k default (fun _ => x) es = es := by
  induction es with
  | nil => cases h
  | cons e es ih =>
    obtain ⟨k', y⟩ := e
    unfold updateEntry
    by_cases hk : k' = k
    · subst hk
      rw [List.lookup_cons_self] at h
      cases h
      simp
    · have hne : (k == k') = false := beq_eq_false_iff_ne.mpr (Ne.symm hk)
      rw [List.lookup_cons, hne] at h
      simp [hk, ih h]

/-- Marking a type as complete once more makes no difference. -/
theorem mark_of_isBuilt (h : reg.isBuilt t = true) : reg.mark t = reg := by
  have hlookup : reg.marks.lookup t = some true := by
    unfold isBuilt at h
    cases hmark : reg.marks.lookup t with
    | none =>
      rw [hmark] at h
      cases h
    | some built =>
      rw [hmark] at h
      exact congrArg some h
  unfold mark
  rw [updateEntry_of_lookup hlookup]

end Registry

namespace Action

variable {e e₁ : Engine} {c : Nat} {out : List Rule}

/-- A configuration with nothing gathered whose type is complete is built already. -/
theorem build_of_isIdle (hcurrent : (e.configuration c).current = none)
    (hidle : (e.configuration c).isIdle = true)
    (hbuilt : e.registry.isBuilt (e.configuration c).type = true) :
    build c e = (.ok (e.configuration c).lastBuild, e) := by
  have hmark : updateRegistry (fun reg => reg.mark (e.configuration c).type) e = (.ok (), e) := by
    refine congrArg (Prod.mk _) ?_
    show { e with registry := e.registry.mark (e.configuration c).type } = e
    rw [Registry.mark_of_isBuilt hbuilt]
  rw [build_eq, bind_ok (commit_of_current_eq_none hcurrent), configuration_bind, if_pos hidle,
    bind_ok hmark]
  rfl

/-- **A build that has ended well can be made again**: it gives the same rules and changes
nothing. -/
theorem build_build (hc : c < e.configurations.length) (h : build c e = (.ok out, e₁)) :
    build c e₁ = (.ok out, e₁) := by
  rw [build_eq] at h
  obtain ⟨done, e₂, hput, h⟩ := bind_eq_ok.mp h
  rw [configuration_bind] at h
  have hcurrent := settled_of_commit hput
  have hlength : c < e₂.configurations.length := by
    have hstays := ((StaysIn.commit c : StaysIn ⟨0, 0⟩ (commit c))
      e e.inArea_zero).2.1.configurations
    rw [hput] at hstays
    exact hc.trans_le hstays
  cases hidle : (e₂.configuration c).isIdle with
  | true =>
    rw [if_pos hidle] at h
    cases h
    exact build_of_isIdle hcurrent hidle (Registry.isBuilt_mark true)
  | false =>
    simp only [hidle, Bool.false_eq_true, if_false] at h
    obtain ⟨rs, mid, hgather, h⟩ := bind_eq_ok.mp h
    have hworks := (gather_works (e₂.configuration c) e₂ (.refl (fun _ => False) e₂)).1
    have hstays := ((StaysIn.gather (e₂.configuration c) :
      StaysIn ⟨0, 0⟩ (gather (e₂.configuration c))) e₂ e₂.inArea_zero).2.1.configurations
    rw [hgather] at hworks hstays
    have hcurrent' : (mid.configuration c).current = none :=
      Classical.not_not.mp fun hne => (hworks.follows_of_none c).started hne hcurrent
    cases h
    -- What is left of the configuration when everything has been registered.
    obtain ⟨e₁, he₁⟩ : ∃ e₁, (finish c (e₂.configuration c) out mid).2 = e₁ := ⟨_, rfl⟩
    have hcfg : e₁.configuration c = { (mid.configuration c).emptied with
        lastBuild := out, settingsChanged := false } := by
      rw [← he₁]
      exact Engine.configuration_updateConfiguration_self (hlength.trans_le hstays) _
    have hbuilt : e₁.registry.isBuilt (e₁.configuration c).type = true := by
      have htype : (e₁.configuration c).type = (e₂.configuration c).type := by
        rw [hcfg]
        exact hworks.types c
      rw [htype, ← he₁]
      exact Registry.isBuilt_mark true
    have hagain := build_of_isIdle (by rw [hcfg]; exact hcurrent') (by rw [hcfg]; rfl) hbuilt
    rwa [hcfg, ← he₁] at hagain

end Action

/-! ## 2. Builds that are refused -/

/-- An engine in which the member that a configuration started last has been forgotten. -/
def Engine.abandoned (c : Nat) (e : Engine) : Engine :=
  e.updateConfiguration c fun cfg => { cfg with current := none }

namespace Action

variable {e : Engine} {c : Nat}

/-- **Putting away what was started last** is refused only because the member has no check, and then
forgets the member. -/
theorem commit_eq_error (h : (commit c e).1 ≠ .ok ()) : ∃ p, (e.configuration c).current = some p ∧
    commit c e = (.error (.configuration
      (AppError.missingRule (e.configuration c).type p.member.name)), e.abandoned c) := by
  cases hcurrent : (e.configuration c).current with
  | none =>
    rw [commit_of_current_eq_none hcurrent] at h
    exact absurd rfl h
  | some p =>
    refine ⟨p, rfl, ?_⟩
    rw [commit_of_current_eq_some hcurrent] at h ⊢
    unfold putAway at h ⊢
    split
    · rename_i hneeds
      rw [if_pos hneeds] at h
      obtain ⟨found, hfound⟩ : ∃ found, hasChecks (e.configuration c) p.member (e.abandoned c) =
        (.ok found, e.abandoned c) := ⟨_, rfl⟩
      have hread : hasChecks (e.configuration c) p.member (e.updateConfiguration c fun cfg =>
        { cfg with current := none }) = (.ok found, e.abandoned c) := hfound
      dsimp only at h ⊢
      rw [bind_ok hread] at h ⊢
      cases found with
      | true => exact absurd rfl h
      | false => rfl
    · rename_i hneeds
      rw [if_neg hneeds] at h
      exact absurd rfl h

/-- A build is refused in the same way. -/
theorem build_eq_error (h : (commit c e).1 ≠ .ok ()) : ∃ p, (e.configuration c).current = some p ∧
    build c e = (.error (.configuration
      (AppError.missingRule (e.configuration c).type p.member.name)), e.abandoned c) := by
  obtain ⟨p, hp, hcommit⟩ := commit_eq_error h
  refine ⟨p, hp, ?_⟩
  rw [build_eq, bind_error hcommit]

end Action

/-! ## 3. Building twice -/

variable {e : Engine} {c : Nat}

/-- **How building twice ends**: if the member that was started last can be put away, the second
build gives the rules of the first one and changes nothing.  Otherwise the first build is refused
because the member has no check, and changes nothing but that the member is forgotten; and the
second one ends well and completes the type. -/
theorem build_again (hkeyed : e.Keyed) (hc : c < e.configurations.length)
    (hreflect : (∃ p ∈ (e.configuration c).gathered, p.checks ≠ []) →
      e.CanReflect (e.configuration c).type) :
    ((Action.commit c e).1 = .ok () → ∃ out e₁, Action.build c e = (.ok out, e₁) ∧
      Action.build c e₁ = (.ok out, e₁)) ∧
    ((Action.commit c e).1 ≠ .ok () → ∃ p out e₂, (e.configuration c).current = some p ∧
      Action.build c e = (.error (.configuration
        (AppError.missingRule (e.configuration c).type p.member.name)), e.abandoned c) ∧
      Action.build c (e.abandoned c) = (.ok out, e₂) ∧
      e₂.registry.isBuilt (e.configuration c).type = true) := by
  constructor
  · intro hput
    obtain ⟨out, e₁, hbuild, -⟩ := Action.build_declared hkeyed hc hput hreflect
    exact ⟨out, e₁, hbuild, Action.build_build hc hbuild⟩
  · intro hrefused
    obtain ⟨p, hp, hfirst⟩ := Action.build_eq_error hrefused
    have hcfg : (e.abandoned c).configuration c = { e.configuration c with current := none } :=
      Engine.configuration_updateConfiguration_self hc _
    have hc' : c < (e.abandoned c).configurations.length := (List.length_modify ..).symm ▸ hc
    have hput : (Action.commit c (e.abandoned c)).1 = .ok () :=
      Action.commit_ok_iff.mpr fun p hp => by
        rw [hcfg] at hp
        cases hp
    obtain ⟨out, e₂, hbuild, -⟩ := Action.build_declared (e := e.abandoned c)
      ⟨hkeyed.registry, hkeyed.builders⟩ hc' hput fun ⟨q, hq, hchecks⟩ => by
        rw [hcfg] at hq ⊢
        have hpending : q ∈ (e.configuration c).pending := by
          simpa [Configuration.gathered] using hq
        obtain ⟨ms, hms⟩ := hreflect ⟨q, List.mem_append_left _ hpending, hchecks⟩
        exact ⟨ms, hms⟩
    refine ⟨p, out, e₂, hp, hfirst, hbuild, ?_⟩
    obtain ⟨x, mid, hgathered, hregistry⟩ := build_registry hbuild
    have htype := gathered_type hc' hgathered
    rw [hcfg] at htype
    rw [hregistry, ← htype]
    exact Registry.isBuilt_registering mid.registry x.1 x.2

/-! ## 4. A role without rules

A condition is set for the role of a user, for which there are no rules. -/

namespace UserAddress

def role : MemberRef := ⟨.declared "User", "role", .field⟩

/-- A configuration of users with a condition for the role. -/
def conditioned : Engine := (runTypeSteps 0 [.gate (some (.ref role)) isAdmin] engine).2

theorem conditioned_keyed : conditioned.Keyed := (runTypeSteps_keyed _ 0 engine keyed).1

theorem conditioned_configured : 0 < conditioned.configurations.length := by decide +kernel

theorem conditioned_reflects : (∃ p ∈ (conditioned.configuration 0).gathered, p.checks ≠ []) →
    conditioned.CanReflect (conditioned.configuration 0).type := fun ⟨p, hp, hchecks⟩ => by
  have hnone : ((conditioned.configuration 0).gathered.all fun p => p.checks.isEmpty) = true := by
    decide +kernel
  exact absurd (List.isEmpty_iff.mp (List.all_eq_true.mp hnone p hp)) hchecks

theorem conditioned_refused : (Action.commit 0 conditioned).1 ≠ .ok () := fun h => by
  have hrefused : (Action.commit 0 conditioned).1.toOption.isSome = false := by decide +kernel
  rw [h] at hrefused
  cases hrefused

end UserAddress

/-- Building users is refused for the role at first, and ends well after that. -/
theorem build_again_user : ∃ p out e₂,
    Action.build 0 UserAddress.conditioned = (.error (.configuration
      (AppError.missingRule (UserAddress.conditioned.configuration 0).type p)),
        UserAddress.conditioned.abandoned 0) ∧
      Action.build 0 (UserAddress.conditioned.abandoned 0) = (.ok out, e₂) ∧
      e₂.registry.isBuilt (UserAddress.conditioned.configuration 0).type = true := by
  obtain ⟨p, out, e₂, -, hfirst, hsecond, hbuilt⟩ := (build_again UserAddress.conditioned_keyed
    UserAddress.conditioned_configured UserAddress.conditioned_reflects).2
    UserAddress.conditioned_refused
  exact ⟨p.member.name, out, e₂, hfirst, hsecond, hbuilt⟩

/-- **A build that was refused can complete the type when it is made again.** -/
theorem refused_build_completes :
    ¬ ∀ {e e₁ : Engine} {c : Nat} {fault : AppError}, e.Keyed → c < e.configurations.length →
      ((∃ p ∈ (e.configuration c).gathered, p.checks ≠ []) →
        e.CanReflect (e.configuration c).type) →
      Action.build c e = (.error (.configuration fault), e₁) →
      (Action.build c e₁).1 = .error (.configuration fault) ∧
        (Action.build c e₁).2.registry.isBuilt (e.configuration c).type = false := by
  intro h
  obtain ⟨p, -, hfirst⟩ := Action.build_eq_error UserAddress.conditioned_refused
  obtain ⟨-, hincomplete⟩ := h UserAddress.conditioned_keyed UserAddress.conditioned_configured
    UserAddress.conditioned_reflects hfirst
  -- What the second build ends with, by evaluation.
  have hcomplete : (Action.build 0 (UserAddress.conditioned.abandoned 0)).2.registry.isBuilt
      (UserAddress.conditioned.configuration 0).type = true := by decide +kernel
  rw [hcomplete] at hincomplete
  cases hincomplete

end MemberRules
