/-
# Conditions of members

A condition that is set for a member without a check is meant for the declared rules of the member.
When the type is built, each of them gets it as its gate, and all other rules of the member keep the
gates that they have.

So a condition is never without effect on a member with a declared rule.  But it is accepted for any
member that has a check, and if no check of the member was declared it gates nothing.

* `Deed.About`, `LeftAlone`: what is done to what is gathered for a member, and calls without it.
* `LeftAlone.sets`: such calls leave the gates that are set for the declared rules of the member.
* `condition_gates_declared`: what a condition gates.
* `condition_gates_nothing`: a condition that is accepted and gates no rule.
-/
import MemberRules.Proofs.Configuration.Turns
import MemberRules.Proofs.Declared.Rebuilt
import MemberRules.Proofs.Declared.Registered

namespace MemberRules

open MemberRules.Computation MemberRules.Engine

/-! ## 1. Calls that are about other members -/

namespace Engine

/-- Something that is done to what is gathered for a member. -/
def Deed.About (c : Nat) (k : MemberKey) : Deed → Prop
  | start c' k' | forget c' k' | gate c' k' | attach c' k' => c' = c ∧ k' = k
  | drop c' doomed => c' = c ∧ doomed k = true
  | _ => False

/-- Calls none of which does something to what is gathered for a member of a configuration, or
registers what the configuration has gathered.  They neither start the member again nor attach a check
to it, they set no gate for it, and they do not drop it. -/
def LeftAlone (c : Nat) (k : MemberKey) : List Call → Engine → Prop
  | [], _ => True
  | call :: rest, e => (∀ d, call.Does e d → ¬ d.About c k) ∧ ¬ call.Registers e c ∧
      LeftAlone c k rest (call.after e)

end Engine

namespace PendingRule

variable {k : MemberKey}

/-- What is set as the gate of the declared rules of a member, and whether it replaces theirs. -/
def gatesFor (k : MemberKey) (ps : List PendingRule) : List (Bool × Gate) :=
  (ps.filter (isFor k)).map fun p => (p.conditioned, p.gate)

theorem gatesFor_append (ps qs : List PendingRule) :
    gatesFor k (ps ++ qs) = gatesFor k ps ++ gatesFor k qs := by
  unfold gatesFor
  rw [List.filter_append, List.map_append]

theorem gatesFor_of_ne {p : PendingRule} (h : p.member.key ≠ k) : gatesFor k [p] = [] := by
  simp [gatesFor, isFor, h]

/-- Members that are dropped make no difference to others. -/
theorem gatesFor_filter {doomed : MemberKey → Bool} (h : doomed k = false) (ps : List PendingRule) :
    gatesFor k (ps.filter fun p => !doomed p.member.key) = gatesFor k ps := by
  unfold gatesFor
  rw [List.filter_filter]
  refine congrArg _ (List.filter_congr fun p _ => ?_)
  unfold isFor
  by_cases hkey : p.member.key = k
  · rw [hkey, h, Bool.not_false, Bool.and_true]
  · simp [hkey]

/-- The same checks are gathered for the same member. -/
theorem Alike.isFor {p p' : PendingRule} (h : p.Alike p') (k : MemberKey) :
    p'.isFor k = p.isFor k := by
  have hchecks := congrArg List.isEmpty h.validators
  rw [List.isEmpty_map, List.isEmpty_map] at hchecks
  unfold PendingRule.isFor
  rw [hchecks, h.member]

theorem Alike.gatesFor {p p' : PendingRule} (h : p.Alike p')
    (hgate : p'.gate = p.gate ∧ p'.conditioned = p.conditioned) :
    gatesFor k [p'] = gatesFor k [p] := by
  unfold PendingRule.gatesFor
  rw [List.filter_singleton, List.filter_singleton, h.isFor k]
  cases p.isFor k with
  | true => simp [hgate.1, hgate.2]
  | false => rfl

end PendingRule

namespace Configuration

open PendingRule

variable {A : Deed → Prop} {c : Nat} {k : MemberKey} {cfg cfg' : Configuration}

/-- What blocks of steps set as the gate of the declared rules of a member. -/
def gatesOf (k : MemberKey) (cfg : Configuration) : List (Bool × Gate) := gatesFor k cfg.gathered

theorem gatesOf_eq (cfg : Configuration) : cfg.gatesOf k =
    gatesFor k cfg.pending ++ gatesFor k cfg.current.toList := gatesFor_append _ _

/-- **A small change that is about other members** leaves the gates of a member. -/
theorem Edit.gatesOf (h : cfg.Edit A c cfg') (hA : ∀ d, A d → ¬ d.About c k) :
    cfg'.gatesOf k = cfg.gatesOf k := by
  refine h.reading gatesFor_append (fun p _ hnew => gatesFor_of_ne fun hk => ?_)
    (fun p p' halike hset => ?_) (fun p x hattach => ?_) fun doomed hdrop ps =>
      gatesFor_filter (Bool.eq_false_iff.mpr fun hk => hA _ hdrop ⟨rfl, hk⟩) ps
  · exact hnew.elim (fun h => hA _ h ⟨rfl, hk⟩) fun h => hA _ h ⟨rfl, hk⟩
  · rcases hset with hsame | hgate
    · exact halike.gatesFor hsame
    · have hne : p.member.key ≠ k := fun hk => hA _ hgate ⟨rfl, hk⟩
      rw [gatesFor_of_ne hne, gatesFor_of_ne (halike.member ▸ hne)]
  · have hne : p.member.key ≠ k := fun hk => hA _ hattach ⟨rfl, hk⟩
    rw [gatesFor_of_ne hne]
    exact gatesFor_of_ne hne

/-- The last block for the declared rules of a member sets the last gate. -/
theorem lastBlock_gate (cfg : Configuration) (k : MemberKey) :
    (cfg.lastBlock k).map (fun p => (p.conditioned, p.gate)) = (cfg.gatesOf k).getLast? := by
  unfold lastBlock gatesOf gatesFor
  rw [List.getLast?_map]

end Configuration

namespace Engine

open Configuration

variable {A : Deed → Prop} {e e' : Engine} {c : Nat} {k : MemberKey}

/-- A configuration of a type, and what is set as the gate of the declared rules of a member. -/
structure Sets (c : Nat) (t : TypeId) (k : MemberKey) (gates : List (Bool × Gate)) (e : Engine) :
    Prop where
  lt : c < e.configurations.length
  type : (e.configuration c).type = t
  gates : (e.configuration c).gatesOf k = gates

variable {t : TypeId} {gates : List (Bool × Gate)}

theorem Edit.sets (h : Edit A e e') (hA : ∀ d, A d → ¬ d.About c k) (he : e.Sets c t k gates) :
    e'.Sets c t k gates where
  lt := he.lt.trans_le h.length_le
  type := (h.type he.lt).trans he.type
  gates := by
    rw [← he.gates]
    rcases h.configuration he.lt with hsame | hedit | ⟨hlisted, -⟩
    · rw [gatesOf_eq, gatesOf_eq, hsame.pending, hsame.current]
    · exact hedit.gatesOf hA
    · rw [hlisted]
      rfl

theorem Edits.sets (h : Edits A e e') (hA : ∀ d, A d → ¬ d.About c k) (he : e.Sets c t k gates) :
    e'.Sets c t k gates := h.keep (fun hedit => hedit.sets hA) he

/-- **A call that is about other members** leaves the gates of a member, also if it builds another
configuration. -/
theorem Call.after_sets {call : Call} (hcall : ∀ d, call.Does e d → ¬ d.About c k)
    (hspared : ¬ call.Registers e c) (he : e.Sets c t k gates) : (call.after e).Sets c t k gates := by
  rcases Call.after_done (fun d (hd : call.Does e d) => hd) with
    hedits | ⟨c', mid, mid', rs, hbuilds, hok, hedits, hregisters, hafter⟩
  · exact hedits.sets hcall he
  · have hne : c' ≠ c := by
      rintro rfl
      exact hspared ⟨hbuilds, by rw [hok]; rfl⟩
    have hmid := hedits.sets hcall he
    have hsame := hregisters.configuration_of_ne hne
    exact hafter.sets hcall ⟨hregisters.length ▸ hmid.lt, hsame ▸ hmid.type, hsame ▸ hmid.gates⟩

/-- **Calls that are about other members** leave the gates that are set for a member. -/
theorem LeftAlone.sets {calls : List Call} (h : LeftAlone c k calls e)
    (he : e.Sets c t k gates) : (e.afterCalls calls).Sets c t k gates := by
  induction calls generalizing e with
  | nil => exact he
  | cons call rest ih =>
    obtain ⟨hcall, hspared, hrest⟩ := h
    exact ih hrest (Call.after_sets hcall hspared he)

end Engine

/-! ## 2. What a condition gates -/

variable {e e₀ e₁ e₂ : Engine} {c c' : Nat} {sel : Selector} {m : MemberRef} {g : Guard}

/-- A condition that is accepted for another member puts away what was started before, and starts its
member. -/
theorem Action.gate_eq_ok (hc : c < e.configurations.length)
    (hselects : e.world.schema.select (e.configuration c).type (sel.captured e.world) = .ok m)
    (hapart : e.Apart c m) (h : (TypeStep.gate (some sel) g).run c e = (.ok c', e₁)) :
    e₁ = e.opened c ((Opener.gated g).pending m) := by
  have hput : (commit c e).1 = .ok () := by
    refine commit_of_touched (Classical.byContradiction fun hrefused => ?_)
    obtain ⟨p, -, hfails⟩ := commit_eq_error hrefused
    have hnew : ((e.touched c).configuration c).current.any (fun p =>
        !p.checks.isEmpty && p.member.key == m.key) = false := by
      show (e.configuration c).current.any _ = false
      cases hcurrent : (e.configuration c).current with
      | none => rfl
      | some p => rcases hapart p hcurrent with h | h <;> simp [h]
    have hselected : select ((e.touched c).configuration c).type sel (e.touched c) =
        (.ok m, e.touched c) := by
      rw [← hselects]
      rfl
    have hgated : startGated c (some sel) e = (.error (.configuration (AppError.missingRule
        (e.configuration c).type p.member.name)), (e.touched c).abandoned c) := by
      unfold startGated
      dsimp only
      rw [bind_ok (touch_apply e), configuration_bind, bind_ok hselected, configuration_bind]
      simp only [hnew, Bool.false_eq_true, if_false]
      exact bind_error hfails
    have hfailed := (bind_error hgated).symm.trans h
    cases hfailed
  have hopened := opener_run hc (.gated g) hput hselects hapart
  exact (congrArg Prod.snd (hopened.symm.trans h)).symm

/-- The source of a rule, and its gate. -/
def Rule.gated (r : Rule) : RuleSource × Gate := (r.source, r.gate)

/-- A block with a condition gives it to the rules that were declared, and to no others. -/
theorem Configuration.gated_renewed (cfg : Configuration) {p : PendingRule}
    (hp : p.conditioned = true) (r : Rule) : (cfg.renewed (some p) r).look.gated =
      (r.source, if r.source = .declared then p.gate else r.gate) := by
  have hrefreshed : (cfg.refreshed r).look.gated = (r.source, r.gate) := by
    unfold refreshed
    split <;> rfl
  unfold renewed
  cases hsource : r.source with
  | declared =>
    simp [Action.declaredWith, complete, Rule.look, Rule.gated, hp, hsource]
  | _ =>
    rw [hsource] at hrefreshed
    simpa using hrefreshed

/-- **What a condition gates.**  Take a member for which a condition is accepted, and any calls after
that which do nothing to what is gathered for the member.  When its configuration can be built then,
the condition is the gate of each check of the member that was declared, all other checks of the
member keep their gates, and those that are new have their own.  So the condition is the gate of some
check if one was declared. -/
theorem condition_gates_declared {calls : List Call} {out : List Rule} (he : e₀.Tidy)
    (hc : c < e₀.configurations.length)
    (hselects : e₀.world.schema.select (e₀.configuration c).type (sel.captured e₀.world) = .ok m)
    (hapart : e₀.Apart c m) (hgated : (TypeStep.gate (some sel) g).run c e₀ = (.ok c', e₁))
    (hcalls : LeftAlone c m.key calls e₁)
    (hbuild : Action.build c (e₁.afterCalls calls) = (.ok out, e₂)) :
    (e₂.registry.checksAt (e₀.configuration c).type m.key).map Rule.gated =
      (((e₁.afterCalls calls).registry.checksAt (e₀.configuration c).type m.key).map fun r =>
        (r.source, if r.source = .declared then Action.setGuard g {} else r.gate)) ++
      ((e₁.afterCalls calls).newChecks c m.key).map Rule.gated ∧
    ((∃ r ∈ (e₁.afterCalls calls).registry.checksAt (e₀.configuration c).type m.key,
        r.source = .declared) →
      ∃ r ∈ e₂.registry.checksAt (e₀.configuration c).type m.key,
        r.gate = Action.setGuard g {}) := by
  have hafter : (Call.step c (.gate (some sel) g)).after e₀ = e₁ := congrArg Prod.snd hgated
  have htidy : (e₁.afterCalls calls).Tidy :=
    Tidy.afterCalls (hafter ▸ Call.after_tidy (.step c (.gate (some sel) g)) he) calls
  -- The block is the last one for the member, and stays it.
  have hopened := Action.gate_eq_ok hc hselects hapart hgated
  obtain ⟨gates, hlast⟩ : ∃ gates, e₁.Sets c (e₀.configuration c).type m.key
      (gates ++ [(true, Action.setGuard g {})]) := by
    have hcfg := Action.configuration_opened hc ((Opener.gated g).pending m)
    rw [← hopened] at hcfg
    refine ⟨PendingRule.gatesFor m.key (e₀.configuration c).gathered, ?_, ?_, ?_⟩
    · rw [hopened]
      exact (leaves_opened hc _).length ▸ hc
    · rw [hcfg]
    · rw [hcfg, Configuration.gatesOf_eq]
      refine congrArg _ ?_
      simp [PendingRule.gatesFor, PendingRule.isFor, Opener.pending]
  have hsets := hcalls.sets hlast
  obtain ⟨p, hp, hgate⟩ : ∃ p, ((e₁.afterCalls calls).configuration c).lastBlock m.key = some p ∧
      (p.conditioned, p.gate) = (true, Action.setGuard g {}) := by
    have hgates := Configuration.lastBlock_gate ((e₁.afterCalls calls).configuration c) m.key
    rw [hsets.gates, List.getLast?_concat] at hgates
    exact Option.map_eq_some_iff.mp hgates
  obtain ⟨hconditioned, hgate⟩ := Prod.mk.inj hgate
  have hregisters := Action.build_registers htidy hsets.lt hbuild m.key
  rw [hsets.type, hp] at hregisters
  have hstands := congrArg (List.map Rule.gated) hregisters
  rw [List.map_map, checksToCome, List.map_append, List.map_map, hsets.type] at hstands
  have hrules : (e₂.registry.checksAt (e₀.configuration c).type m.key).map Rule.gated = _ := hstands
  have hrenewed : ∀ r, (Rule.gated ∘ fun r =>
      (((e₁.afterCalls calls).configuration c).renewed (some p) r).look) r =
      (r.source, if r.source = .declared then Action.setGuard g {} else r.gate) :=
    fun r => (Configuration.gated_renewed _ hconditioned r).trans (by rw [hgate])
  rw [List.map_congr_left fun r _ => hrenewed r] at hrules
  refine ⟨hrules, ?_⟩
  rintro ⟨r, hr, hdeclared⟩
  have hthere : (r.source, Action.setGuard g {}) ∈
      (e₂.registry.checksAt (e₀.configuration c).type m.key).map Rule.gated := by
    rw [hrules]
    refine List.mem_append_left _ (List.mem_map.mpr ⟨r, hr, ?_⟩)
    rw [if_pos hdeclared]
  obtain ⟨r', hr', heq⟩ := List.mem_map.mp hthere
  exact ⟨r', hr', (Prod.mk.inj heq).2⟩

/-! ## 3. Conditions for users

The address of a user is declared to be required.  The role is required as well, but by a builder. -/

namespace UserAddress

/-- A configuration of users with a condition for the address. -/
def addressed : Engine := ((TypeStep.gate (some (.ref member)) isAdmin).run 0 engine).2

/-- The address gets a message as well. -/
def worded : List Call := [.step 0 (.check (.message (some (.template "An address is needed."))))]

theorem addressed_left : LeftAlone 0 member.key worded addressed := by
  refine ⟨fun d hd => ?_, fun h => (by cases h.1), trivial⟩
  cases hd with
  | step hd =>
    cases hd with
    | forget hs => cases hs
    | start hs => cases hs
    | drop hs => cases hs
    | setting hs => cases hs
  | forget hbuilds => cases hbuilds

/-- A configuration of users with a rule for the role. -/
def ruled : Engine := engine.afterCalls [
  .step 0 (.builder (.ref role) false none []),
  .check 0 (.attach (.ok { check := .required false }))]

theorem ruled_apart : ruled.Apart 0 role := fun p hp => by
  have hnone : (ruled.configuration 0).current.isNone = true := by decide +kernel
  rw [hp] at hnone
  cases hnone

/-- And with a condition for it. -/
def roled : Engine := ((TypeStep.gate (some (.ref role)) isAdmin).run 0 ruled).2

end UserAddress

/-- The address of a user is needed by administrators only if there is a condition for it. -/
theorem condition_gates_declared_user : ∃ out e₂,
    Action.build 0 (UserAddress.addressed.afterCalls UserAddress.worded) = (.ok out, e₂) ∧
      ∃ r ∈ e₂.registry.checksAt (UserAddress.engine.configuration 0).type
        UserAddress.member.key, r.gate = Action.setGuard UserAddress.isAdmin {} := by
  have hgated : ((TypeStep.gate (some (.ref UserAddress.member)) UserAddress.isAdmin).run 0
      UserAddress.engine).1.toOption.isSome = true := by decide +kernel
  have hbuilt : (Action.build 0 (UserAddress.addressed.afterCalls
      UserAddress.worded)).1.toOption.isSome = true := by decide +kernel
  obtain ⟨c', hc'⟩ := Option.isSome_iff_exists.mp hgated
  obtain ⟨out, hout⟩ := Option.isSome_iff_exists.mp hbuilt
  have hapart : UserAddress.engine.Apart 0 UserAddress.member := fun p hp => by
    rw [UserAddress.current] at hp
    cases hp
  have hgates := condition_gates_declared UserAddress.engine_tidy UserAddress.configured rfl hapart
    (eq_ok_of_toOption hc') UserAddress.addressed_left (eq_ok_of_toOption hout)
  -- There is a declared rule, by evaluation.
  have hdeclared : ((UserAddress.addressed.afterCalls UserAddress.worded).registry.checksAt
      (UserAddress.engine.configuration 0).type UserAddress.member.key).any
        (fun r => r.source == .declared) = true := by decide +kernel
  obtain ⟨r, hr, hsource⟩ := List.any_eq_true.mp hdeclared
  exact ⟨out, _, eq_ok_of_toOption hout, hgates.2 ⟨r, hr, eq_of_beq hsource⟩⟩

/-- **A condition that is accepted can gate nothing**, although members must have rules. -/
theorem condition_gates_nothing :
    ¬ ∀ {e₀ e₁ e₂ : Engine} {c c' : Nat} {sel : Selector} {m : MemberRef} {g : Guard}
      {calls : List Call} {out : List Rule}, e₀.Tidy → c < e₀.configurations.length →
      (e₀.configuration c).enforce = true →
      e₀.world.schema.select (e₀.configuration c).type (sel.captured e₀.world) = .ok m →
      e₀.Apart c m → (TypeStep.gate (some sel) g).run c e₀ = (.ok c', e₁) →
      LeftAlone c m.key calls e₁ → Action.build c (e₁.afterCalls calls) = (.ok out, e₂) →
      ∃ r ∈ e₂.registry.checksAt (e₀.configuration c).type m.key,
        r.gate = Action.setGuard g {} := by
  intro h
  have hgated : ((TypeStep.gate (some (.ref UserAddress.role)) UserAddress.isAdmin).run 0
      UserAddress.ruled).1.toOption.isSome = true := by decide +kernel
  have hbuilt : (Action.build 0 UserAddress.roled).1.toOption.isSome = true := by decide +kernel
  obtain ⟨c', hc'⟩ := Option.isSome_iff_exists.mp hgated
  obtain ⟨out, hout⟩ := Option.isSome_iff_exists.mp hbuilt
  have hleft : LeftAlone 0 UserAddress.role.key [] UserAddress.roled := trivial
  obtain ⟨r, hr, hgate⟩ := h (m := UserAddress.role)
    (Tidy.afterCalls UserAddress.engine_tidy _) (by decide +kernel) (by decide +kernel) rfl
    UserAddress.ruled_apart (eq_ok_of_toOption hc') hleft (eq_ok_of_toOption hout)
  -- What the build ends with, by evaluation.
  have hnone : ((Action.build 0 UserAddress.roled).2.registry.checksAt
      (UserAddress.ruled.configuration 0).type UserAddress.role.key).all
        (fun r => r.gate.condition.isNone) = true := by decide +kernel
  have hfree := List.all_eq_true.mp hnone r hr
  rw [hgate] at hfree
  cases hfree

end MemberRules
