/-
# Gates of blocks

A program of a builder attaches rules within blocks, and when a block ends, its guard is put in front
of the gates of the rules that the block attached.  So the gate of a rule grows from the inside out,
over all four ways in which guards and gates compose.  This file shows that it ends up as the gate
of the guards that were put in front of it.

The program is followed by the list of what it attaches: the identity of each rule, with the guards
of the blocks around it, and with those of them that reached it.  A block finds its rules by their
place, after as many as were there before it.  So it finds all of them, unless one of those that were
there before is taken away while the block runs; only nested rules can do that.

* `attachedBy`: what a program attaches, with the guards around each rule.
* `arePaired`: whether each opposite block directly follows a block.
* `keepAll`: whether each block leaves the rules that were there before it.
* `runBuilderSteps_attaches`: what the builder holds after a program.
* `attachedBy_reached`: if blocks leave what was there before them, all guards reach the rules.
-/
import Mathlib.Data.List.Nodup
import Mathlib.Data.List.Perm.Subperm
import MemberRules.Proofs.Configuration.Steps
import MemberRules.Proofs.Gate.Guarded

namespace MemberRules

open MemberRules.Computation Engine

variable {b : Nat} {e e' e'' e₁ e₂ : Engine}

/-! ## 1. What a program attaches -/

/-- A rule that was attached, with the guards of the blocks around it, the outermost first. -/
structure Attachment where
  id : Nat
  around : Guards := []
  /-- Those of the guards that were put in front of the gate of the rule. -/
  reached : Guards := []

namespace Attachment

/-- A rule in one more block, whose guard reaches those that the block finds. -/
def within (k : Guard × Bool) (found : List Nat) (x : Attachment) : Attachment where
  id := x.id
  around := k :: x.around
  reached := if x.id ∈ found then k :: x.reached else x.reached

/-- A rule as a builder holds it, with the gate of the guards that reached it. -/
def gated (x : Attachment) : Nat × Gate := (x.id, x.reached.gate)

theorem map_fst_gated (xs : List Attachment) : (xs.map gated).map Prod.fst = xs.map id := by
  rw [List.map_map]
  rfl

theorem map_id_within (k : Guard × Bool) (found : List Nat) (xs : List Attachment) :
    (xs.map (within k found)).map id = xs.map id := by
  rw [List.map_map]
  rfl

end Attachment

namespace Engine

/-- The identity that was given out last. -/
def lastId (e : Engine) : Nat := e.nextId - 1

/-- The identities of the rules that a builder holds. -/
def heldIds (e : Engine) (b : Nat) : List Nat := (e.held b).map Prod.fst

theorem heldIds_eq (e : Engine) (b : Nat) : e.heldIds b = (e.builder b).rules.map Rule.id := by
  rw [heldIds, held, List.map_map]
  rfl

/-- The identities of the rules that a block finds: those after as many as were there before it. -/
def found (b : Nat) (e e' : Engine) : List Nat := (e'.heldIds b).drop (e.heldIds b).length

/-- Whether all rules that a builder holds are still there in a later engine. -/
def stillHeld (b : Nat) (e e' : Engine) : Bool := (e.heldIds b).all (e'.heldIds b).contains

end Engine

/-- The guard of a block, whose opposite an opposite block that follows takes. -/
def BuilderStep.guard? : BuilderStep → Option Guard
  | .whenBlock g _ => some g
  | _ => none

mutual

/-- What a step attaches that is run where an engine is.  The guard `prior` is that of the block
before the step. -/
def BuilderStep.attached (b : Nat) (prior : Option Guard) : BuilderStep → Engine → List Attachment
  | .check (.attach a), e => [{ id := (BuilderStep.run b (.check (.attach a)) e).2.lastId }]
  | .check _, _ => []
  | .whenBlock g steps, e =>
    (attachedBy b none steps e).map
      (Attachment.within (g, true) (Engine.found b e (runBuilderSteps b steps e).2))
  | .otherwise steps, e =>
    match prior with
    | some g =>
      (attachedBy b none steps e).map
        (Attachment.within (g, false) (Engine.found b e (runBuilderSteps b steps e).2))
    | none => []
  | .childRules steps element, e =>
    [{ id := (BuilderStep.run b (.childRules steps element) e).2.lastId }]
  | .rules, _ => []

/-- What steps attach that are run one after the other. -/
def attachedBy (b : Nat) (prior : Option Guard) : List BuilderStep → Engine → List Attachment
  | [], _ => []
  | step :: rest, e =>
    step.attached b prior e ++ attachedBy b step.guard? rest (step.run b e).2

end

mutual

/-- Whether each opposite block in a step directly follows a block, as the step itself does if it is
one. -/
def BuilderStep.isPaired (prior : Option Guard) : BuilderStep → Bool
  | .whenBlock _ steps => arePaired none steps
  | .otherwise steps => prior.isSome && arePaired none steps
  | _ => true

/-- Whether each opposite block in steps directly follows a block. -/
def arePaired (prior : Option Guard) : List BuilderStep → Bool
  | [] => true
  | step :: rest => step.isPaired prior && arePaired step.guard? rest

end

mutual

/-- Whether each block in a step leaves the rules that were there before it. -/
def BuilderStep.keeps (b : Nat) : BuilderStep → Engine → Bool
  | .whenBlock _ steps, e =>
    keepAll b steps e && Engine.stillHeld b e (runBuilderSteps b steps e).2
  | .otherwise steps, e =>
    keepAll b steps e && Engine.stillHeld b e (runBuilderSteps b steps e).2
  | _, _ => true

/-- Whether each block in steps leaves the rules that were there before it. -/
def keepAll (b : Nat) : List BuilderStep → Engine → Bool
  | [], _ => true
  | step :: rest, e => step.keeps b e && keepAll b rest (step.run b e).2

end

/-! ## 2. What a builder holds after it -/

/-- A builder that is there, holding rules with identities that were given out, each of its own. -/
structure Ready (b : Nat) (e : Engine) : Prop where
  made : b < e.builders.length
  given : ∀ id ∈ e.heldIds b, id < e.nextId
  nodup : (e.heldIds b).Nodup

/-- A run that has attached rules to a builder: those that were there before, or some of them, are
there as they were, and after them those that were attached, or some of them, gated by the guards
that reached them. -/
structure Attaches (b : Nat) (xs : List Attachment) (e e' : Engine) : Prop where
  builders : e.builders.length ≤ e'.builders.length
  ids : e.nextId ≤ e'.nextId
  given : ∀ x ∈ xs, e.nextId ≤ x.id ∧ x.id < e'.nextId
  nodup : (xs.map Attachment.id).Nodup
  held : ∃ old new, e'.held b = old ++ new ∧ old.Sublist (e.held b) ∧
    new.Sublist (xs.map Attachment.gated)

namespace Attaches

variable {xs ys : List Attachment}

/-- What a builder holds after it, by identities. -/
theorem heldIds (h : Attaches b xs e e') :
    ∃ old new, e'.heldIds b = old ++ new ∧ old.Sublist (e.heldIds b) ∧
      new.Sublist (xs.map Attachment.id) := by
  obtain ⟨old, new, hheld, hold, hnew⟩ := h.held
  refine ⟨old.map Prod.fst, new.map Prod.fst, ?_, hold.map _, ?_⟩
  · rw [Engine.heldIds, hheld, List.map_append]
  · exact Attachment.map_fst_gated xs ▸ hnew.map Prod.fst

/-- Identities of what was there before lie below those that were given out since. -/
theorem disjoint (h : Attaches b xs e e') (hr : Ready b e) :
    (e.heldIds b).Disjoint (xs.map Attachment.id) := by
  intro id hid hid'
  obtain ⟨x, hx, rfl⟩ := List.mem_map.mp hid'
  have hlt := hr.given _ hid
  have hle := (h.given x hx).1
  omega

theorem ready (h : Attaches b xs e e') (hr : Ready b e) : Ready b e' := by
  obtain ⟨old, new, hheld, hold, hnew⟩ := h.heldIds
  refine ⟨hr.made.trans_le h.builders, fun id hid => ?_, ?_⟩
  · rw [hheld] at hid
    rcases List.mem_append.mp hid with hid | hid
    · exact (hr.given id (hold.subset hid)).trans_le h.ids
    · obtain ⟨x, hx, rfl⟩ := List.mem_map.mp (hnew.subset hid)
      exact (h.given x hx).2
  · rw [hheld]
    refine List.nodup_append'.mpr ⟨hold.nodup hr.nodup, hnew.nodup h.nodup, ?_⟩
    exact fun id hid hid' => h.disjoint hr (hold.subset hid) (hnew.subset hid')

theorem trans (h : Attaches b xs e e') (h' : Attaches b ys e' e'') :
    Attaches b (xs ++ ys) e e'' where
  builders := h.builders.trans h'.builders
  ids := h.ids.trans h'.ids
  given := by
    intro x hx
    rcases List.mem_append.mp hx with hx | hx
    · exact ⟨(h.given x hx).1, (h.given x hx).2.trans_le h'.ids⟩
    · exact ⟨h.ids.trans (h'.given x hx).1, (h'.given x hx).2⟩
  nodup := by
    rw [List.map_append]
    refine List.nodup_append'.mpr ⟨h.nodup, h'.nodup, ?_⟩
    intro id hid hid'
    obtain ⟨x, hx, rfl⟩ := List.mem_map.mp hid
    obtain ⟨y, hy, hyx⟩ := List.mem_map.mp hid'
    have hlt := (h.given x hx).2
    have hle := (h'.given y hy).1
    omega
  held := by
    obtain ⟨old, new, hheld, hold, hnew⟩ := h.held
    obtain ⟨old', new', hheld', hold', hnew'⟩ := h'.held
    rw [hheld] at hold'
    obtain ⟨first, second, rfl, hfirst, hsecond⟩ := List.sublist_append_iff.mp hold'
    refine ⟨first, second ++ new', ?_, hfirst.trans hold, ?_⟩
    · rw [hheld', List.append_assoc]
    · rw [List.map_append]
      exact (hsecond.trans hnew).append hnew'

/-- **A rule that was attached is gated by the guards that reached it**, as long as it is held. -/
theorem gate_eq (h : Attaches b xs e e') (hr : Ready b e) {r : Rule}
    (hmem : r ∈ (e'.builder b).rules) {x : Attachment} (hx : x ∈ xs) (hid : x.id = r.id) :
    r.gate = x.reached.gate := by
  obtain ⟨old, new, hheld, hold, hnew⟩ := h.held
  have hthere : (r.id, r.gate) ∈ old ++ new := hheld ▸ mem_held_of_mem hmem
  rcases List.mem_append.mp hthere with hthere | hthere
  · have hbefore : r.id ∈ e.heldIds b := List.mem_map_of_mem (hold.subset hthere)
    exact absurd (hid ▸ List.mem_map_of_mem hx) (h.disjoint hr hbefore)
  · obtain ⟨y, hy, hgated⟩ := List.mem_map.mp (hnew.subset hthere)
    obtain ⟨hyid, hygate⟩ := Prod.mk.inj hgated
    obtain rfl := List.inj_on_of_nodup_map h.nodup hx hy (hid.trans hyid.symm)
    exact hygate.symm

/-- A step that stays in every area attaches nothing to a builder. -/
theorem of_staysIn {α : Type} {x : Action α} {P : α → Prop} (h : ∀ s, Action.StaysIn s x P)
    (hr : Ready b e) : Attaches b [] e (x e).2 := by
  obtain ⟨-, hout, -⟩ := h e.newArea e e.inArea_newArea
  refine ⟨hout.builders, hout.ids, fun x hx => absurd hx List.not_mem_nil, List.nodup_nil, ?_⟩
  refine ⟨(x e).2.held b, [], (List.append_nil _).symm, ?_, .refl _⟩
  exact hout.kept b hr.made fun x hx => hr.given x.1 (List.mem_map_of_mem hx)

theorem refl (hr : Ready b e) : Attaches b [] e e :=
  of_staysIn (fun _ => .pure (a := ()) (P := fun _ => True) trivial) hr

end Attaches

/-! ## 3. Guarding the rules of a block -/

theorem guardRules_cons (g : Guard) (r : Rule) (rs : List Rule) (e : Engine) :
    Action.guardRules g (r :: rs) e =
      Action.guardRules g rs (e.amend r.id fun r => { r with gate := r.gate.guarded g }) := by
  show (modify (Engine.amend r.id _) >>= fun _ => Action.guardRules g rs : Action Unit) e = _
  rw [bind_ok (modify_apply _ e)]

/-- What a builder holds once a guard is put in front of the gates of some rules. -/
theorem held_guardRules (g : Guard) {rs : List Rule} (h : (rs.map Rule.id).Nodup) (e : Engine) :
    (Action.guardRules g rs e).2.held b = (e.held b).map fun x =>
      if x.1 ∈ rs.map Rule.id then (x.1, x.2.guarded g) else x := by
  induction rs generalizing e with
  | nil => exact (List.map_id _).symm
  | cons r rs ih =>
    obtain ⟨hr, hrs⟩ := List.nodup_cons.mp h
    set e₁ := e.amend r.id fun r => { r with gate := r.gate.guarded g } with he₁
    have hfirst : e₁.held b = (e.held b).map fun x =>
        if x.1 = r.id then (x.1, x.2.guarded g) else x := by
      unfold held
      rw [he₁, builder_amend]
      simp only [List.map_map]
      refine List.map_congr_left fun r' _ => ?_
      by_cases heq : r'.id = r.id <;> simp [heq]
    rw [guardRules_cons, ih hrs, hfirst, List.map_map]
    refine List.map_congr_left fun x _ => ?_
    simp only [Function.comp_apply, List.map_cons, List.mem_cons]
    by_cases heq : x.1 = r.id
    · have hnot : x.1 ∉ rs.map Rule.id := heq ▸ hr
      rw [if_pos heq, if_pos (Or.inl heq)]
      exact if_neg hnot
    · simp only [if_neg heq, or_iff_right heq]

/-- Guarding rules leaves what there is, but for the gates. -/
theorem guardRules_apply (g : Guard) (rs : List Rule) (e : Engine) :
    (Action.guardRules g rs e).1 = .ok () ∧
      (Action.guardRules g rs e).2.builders.length = e.builders.length ∧
      (Action.guardRules g rs e).2.nextId = e.nextId ∧
      (Action.guardRules g rs e).2.heldIds b = e.heldIds b := by
  induction rs generalizing e with
  | nil => exact ⟨rfl, rfl, rfl, rfl⟩
  | cons r rs ih =>
    rw [guardRules_cons]
    obtain ⟨hok, hlength, hid, hheld⟩ := ih (e.amend r.id fun r => { r with gate := r.gate.guarded g })
    refine ⟨hok, hlength.trans (by simp [Engine.amend]), hid, hheld.trans ?_⟩
    exact held_amend (f := fun r => { r with gate := r.gate.guarded g }) (fun _ => rfl) b

/-- The rules that a block attaches, by their places. -/
def blockRules (b : Nat) (e e₁ : Engine) : List Rule :=
  (e₁.builder b).rules.drop (e.builder b).rules.length

theorem map_id_blockRules (b : Nat) (e e₁ : Engine) :
    (blockRules b e e₁).map Rule.id = Engine.found b e e₁ := by
  rw [blockRules, List.map_drop, Engine.found, heldIds_eq, heldIds_eq, List.length_map]

namespace Attaches

variable {xs : List Attachment}

/-- A block finds no rule that was there before it. -/
theorem not_mem_found (h : Attaches b xs e e₁) (hr : Ready b e) {id : Nat} (hid : id ∈ e.heldIds b) :
    id ∉ Engine.found b e e₁ := by
  obtain ⟨old, new, hheld, hold, hnew⟩ := h.heldIds
  intro hfound
  rw [Engine.found, hheld, List.drop_append] at hfound
  rw [List.drop_of_length_le hold.length_le, List.nil_append] at hfound
  exact h.disjoint hr hid (hnew.subset (List.mem_of_mem_drop hfound))

/-- **A block puts its guard in front of the gates of the rules that it finds.** -/
theorem guarded (h : Attaches b xs e e₁) (hr : Ready b e) (k : Guard × Bool) :
    Attaches b (xs.map (Attachment.within k (Engine.found b e e₁))) e
      (Action.guardRules (Guards.wanted k) (blockRules b e e₁) e₁).2 := by
  obtain ⟨-, hlength, hid, -⟩ := guardRules_apply (b := b) (Guards.wanted k) (blockRules b e e₁) e₁
  obtain ⟨old, new, hheld, hold, hnew⟩ := h.held
  set guard : Nat × Gate → Nat × Gate := fun x =>
    if x.1 ∈ Engine.found b e e₁ then (x.1, x.2.guarded (Guards.wanted k)) else x with hguard
  refine ⟨h.builders.trans hlength.ge, h.ids.trans hid.ge, ?_, ?_, old, new.map guard, ?_, hold, ?_⟩
  · intro x hx
    obtain ⟨y, hy, rfl⟩ := List.mem_map.mp hx
    exact hid.symm ▸ h.given y hy
  · rw [Attachment.map_id_within]
    exact h.nodup
  · have hnodup : ((blockRules b e e₁).map Rule.id).Nodup := by
      rw [map_id_blockRules]
      exact (h.ready hr).nodup.sublist (List.drop_sublist _ _)
    have hleave : old.map guard = old := by
      refine (List.map_congr_left fun x hx => ?_).trans (List.map_id old)
      exact if_neg (h.not_mem_found hr (List.mem_map_of_mem (hold.subset hx)))
    rw [held_guardRules _ hnodup, map_id_blockRules, hheld, List.map_append]
    exact congrArg (· ++ new.map guard) hleave
  · have hgate : (xs.map (Attachment.within k (Engine.found b e e₁))).map Attachment.gated =
        (xs.map Attachment.gated).map guard := by
      simp only [List.map_map]
      refine List.map_congr_left fun x _ => ?_
      simp only [Function.comp_apply, Attachment.within, Attachment.gated, hguard]
      by_cases hfound : x.id ∈ Engine.found b e e₁
      · rw [if_pos hfound]
        exact (if_pos hfound).symm
      · rw [if_neg hfound]
        exact (if_neg hfound).symm
    rw [hgate]
    exact hnew.map _

end Attaches

/-! ## 4. The parts of a program -/

/-- Attaching a check attaches a rule. -/
theorem Attaches.of_attachTo {a : Attribute} (hr : Ready b e)
    (h : Action.attachTo b a e = (.ok (), e')) : Attaches b [{ id := e'.lastId }] e e' := by
  have hheld := held_attachTo hr.made h
  obtain ⟨r, reflected, -, rfl⟩ := attachTo_eq_ok h
  refine ⟨?_, Nat.le_succ _, fun x hx => ?_, List.nodup_singleton _, ?_⟩
  · simp [Engine.updateBuilder]
  · obtain rfl := List.mem_singleton.mp hx
    exact ⟨le_rfl, Nat.lt_succ_self _⟩
  · exact ⟨e.held b, [(e.nextId, {})], hheld, .refl _, .refl _⟩

/-- What a block gives: the rules after as many as were there before it. -/
theorem block_eq_ok {steps : Action Unit} {rs : List Rule}
    (h : Action.block b steps e = (.ok rs, e')) :
    steps e = (.ok (), e') ∧ rs = blockRules b e e' := by
  obtain ⟨x, e₁, hbuilder, h⟩ := bind_eq_ok.mp h
  cases hbuilder
  obtain ⟨done, e₁, hsteps, h⟩ := bind_eq_ok.mp h
  obtain ⟨x, e₂, hbuilder, h⟩ := bind_eq_ok.mp h
  cases hbuilder
  cases h
  exact ⟨hsteps, rfl⟩

/-- The engine after a block whose rules a guard is put around, with a note of the guard. -/
def guardedBlock (b : Nat) (g : Guard) (last : Option Guard) (e e₁ : Engine) : Engine :=
  (Action.guardRules g (blockRules b e e₁) e₁).2.updateBuilder b fun builder =>
    { builder with lastGuard := last }

theorem guardRules_bind (g : Guard) (last : Option Guard) (e e₁ : Engine) :
    (Action.guardRules g (blockRules b e e₁) >>= fun _ => modify (Engine.updateBuilder b
        fun builder => { builder with lastGuard := last }) : Action Unit) e₁ =
      (.ok (), guardedBlock b g last e e₁) := by
  obtain ⟨hok, -⟩ := guardRules_apply (b := b) g (blockRules b e e₁) e₁
  unfold guardedBlock
  rcases hg : Action.guardRules g (blockRules b e e₁) e₁ with ⟨r, e₂⟩
  rw [hg] at hok
  cases hok
  rw [bind_ok hg, modify_apply]

theorem whenBlock_eq_ok {g : Guard} {steps : Action Unit}
    (h : Action.whenBlock b g steps e = (.ok (), e')) :
    ∃ e₁, steps e = (.ok (), e₁) ∧ e' = guardedBlock b g (some g) e e₁ := by
  obtain ⟨added, e₁, hblock, h⟩ := bind_eq_ok.mp h
  obtain ⟨hsteps, rfl⟩ := block_eq_ok hblock
  refine ⟨e₁, hsteps, ?_⟩
  cases hempty : (blockRules b e e₁).isEmpty <;> simp only [hempty] at h
  · cases (guardRules_bind (b := b) g (some g) e e₁).symm.trans h
    rfl
  · obtain ⟨x, e₂, hbuilder, h⟩ := bind_eq_ok.mp h
    cases hbuilder
    cases h

theorem otherwise_eq_ok {steps : Action Unit} (h : Action.otherwise b steps e = (.ok (), e')) :
    ∃ g e₁, (e.builder b).lastGuard = some g ∧ steps e = (.ok (), e₁) ∧
      e' = guardedBlock b g.negate none e e₁ := by
  obtain ⟨x, e₁, hbuilder, h⟩ := bind_eq_ok.mp h
  cases hbuilder
  cases hlast : (e.builder b).lastGuard with
  | none =>
    simp only [hlast] at h
    cases h
  | some g =>
    simp only [hlast] at h
    obtain ⟨added, e₁, hblock, h⟩ := bind_eq_ok.mp h
    obtain ⟨hsteps, rfl⟩ := block_eq_ok hblock
    cases (guardRules_bind (b := b) g.negate none e e₁).symm.trans h
    exact ⟨g, e₁, rfl, hsteps, rfl⟩

/-- Putting a guard around rules, and a note of it, leaves their identities. -/
theorem heldIds_guardedBlock (g : Guard) (last : Option Guard) (e e₁ : Engine) :
    (guardedBlock b g last e e₁).heldIds b = e₁.heldIds b := by
  obtain ⟨-, -, -, hguard⟩ := guardRules_apply (b := b) g (blockRules b e e₁) e₁
  refine Eq.trans ?_ hguard
  unfold guardedBlock heldIds held
  rw [builder_updateBuilder]
  split <;> rfl

/-- The whole of a block, with its guard around what was attached in it. -/
theorem Attaches.guardedBlock {xs : List Attachment} (h : Attaches b xs e e₁) (hr : Ready b e)
    (k : Guard × Bool) (last : Option Guard) :
    Attaches b (xs.map (Attachment.within k (Engine.found b e e₁))) e
        (guardedBlock b (Guards.wanted k) last e e₁) ∧
      ((MemberRules.guardedBlock b (Guards.wanted k) last e e₁).builder b).lastGuard = last := by
  have hguarded := h.guarded hr k
  have hready := hguarded.ready hr
  have hlast := Attaches.of_staysIn (fun s => Action.StaysIn.setLastGuard b last) hready
  constructor
  · have hwhole := hguarded.trans hlast
    rw [List.append_nil] at hwhole
    exact hwhole
  · unfold MemberRules.guardedBlock
    rw [builder_updateBuilder, if_pos ⟨rfl, hready.made⟩]

/-! ## 5. Whole programs -/

namespace Attaches

/-- A step that stays in every area, where it ends well. -/
theorem of_staysIn_ok {α : Type} {x : Action α} {P : α → Prop} {r : α}
    (hs : ∀ s, Action.StaysIn s x P) (hr : Ready b e) (h : x e = (.ok r, e')) :
    Attaches b [] e e' := by
  have hall := of_staysIn hs hr
  rwa [h] at hall

theorem of_checkStep {step : CheckStep} (prior : Option Guard) (hr : Ready b e)
    (h : BuilderStep.run b (.check step) e = (.ok (), e')) :
    Attaches b (BuilderStep.attached b prior (.check step) e) e e' := by
  cases step with
  | attach a =>
    have hlast : (BuilderStep.run b (.check (.attach a)) e).2 = e' := congrArg Prod.snd h
    obtain ⟨t, e₁, htype, h⟩ := bind_eq_ok.mp h
    cases htype
    obtain ⟨a', e₁, husable, h⟩ := bind_eq_ok.mp h
    have hfirst := of_staysIn_ok (fun s => Action.StaysIn.usable _ a) hr husable
    have hwhole := hfirst.trans (of_attachTo (hfirst.ready hr) h)
    unfold BuilderStep.attached
    rw [hlast]
    exact hwhole
  | message | code | resourceKey | provide =>
    rw [BuilderStep.run] at h
    exact of_staysIn_ok (fun s => .builderCheckStep_of_ne b fun _ h => by cases h) hr h

theorem of_childRules {steps : List TypeStep} {element : Option TypeId} (hr : Ready b e)
    (h : Action.childRules b element (fun child => runTypeSteps child steps) e = (.ok (), e')) :
    Attaches b [{ id := e'.lastId }] e e' := by
  rw [Action.childRules_eq] at h
  obtain ⟨t, e₁, hnested, h⟩ := bind_eq_ok.mp h
  have hstays : ∀ s, Action.StaysIn s
      (Action.nestedRules b element fun child => runTypeSteps child steps) := fun s =>
    .nestedRules b element fun child => runTypeSteps_staysIn steps child
  have hfirst := of_staysIn_ok hstays hr hnested
  exact hfirst.trans (of_attachTo (hfirst.ready hr) h)

end Attaches

mutual

/-- A step of a builder attaches its rules, and leaves its guard to an opposite block. -/
theorem BuilderStep.run_attaches (step : BuilderStep) {prior : Option Guard} {e e' : Engine}
    (h : step.run b e = (.ok (), e')) (hr : Ready b e) (hpaired : step.isPaired prior = true)
    (hprior : ∀ g ∈ prior, (e.builder b).lastGuard = some g) :
    Attaches b (step.attached b prior e) e e' ∧
      ∀ g ∈ step.guard?, (e'.builder b).lastGuard = some g := by
  match step with
  | .check step => exact ⟨.of_checkStep prior hr h, nofun⟩
  | .whenBlock g steps =>
    obtain ⟨e₁, hsteps, rfl⟩ := whenBlock_eq_ok h
    have hinner := runBuilderSteps_attaches steps hsteps hr hpaired nofun
    obtain ⟨hwhole, hlast⟩ := hinner.guardedBlock hr (g, true) (some g)
    unfold BuilderStep.attached
    rw [hsteps]
    exact ⟨hwhole, fun g' hg' => hlast.trans hg'⟩
  | .otherwise steps =>
    obtain ⟨hsome, hpaired⟩ := Bool.and_eq_true_iff.mp hpaired
    obtain ⟨g, rfl⟩ := Option.isSome_iff_exists.mp hsome
    obtain ⟨g', e₁, hlast, hsteps, rfl⟩ := otherwise_eq_ok h
    obtain rfl := Option.some.inj ((hprior g rfl).symm.trans hlast)
    have hinner := runBuilderSteps_attaches steps hsteps hr hpaired nofun
    unfold BuilderStep.attached
    rw [hsteps]
    exact ⟨(hinner.guardedBlock hr (g, false) none).1, nofun⟩
  | .childRules steps element =>
    have hlast : (BuilderStep.run b (.childRules steps element) e).2 = e' := congrArg Prod.snd h
    unfold BuilderStep.attached
    rw [hlast]
    exact ⟨.of_childRules hr h, nofun⟩
  | .rules =>
    have hstays : ∀ s, Action.StaysIn s (BuilderStep.run b .rules) := fun s =>
      .andThen (.readBuilder b) fun x => .andThen (.view x.rules) fun _ => .report _
    exact ⟨.of_staysIn_ok hstays hr h, nofun⟩

/-- **What a builder holds after a program**: what it held before, or some of it, and then the rules
that the program attached, or some of them, each gated by the guards that reached it. -/
theorem runBuilderSteps_attaches (steps : List BuilderStep) {prior : Option Guard} {e e' : Engine}
    (h : runBuilderSteps b steps e = (.ok (), e')) (hr : Ready b e)
    (hpaired : arePaired prior steps = true)
    (hprior : ∀ g ∈ prior, (e.builder b).lastGuard = some g) :
    Attaches b (attachedBy b prior steps e) e e' := by
  match steps with
  | [] =>
    cases h
    exact .refl hr
  | step :: rest =>
    obtain ⟨done, e₁, hstep, hrest⟩ := bind_eq_ok.mp h
    obtain ⟨hpaired, hpaired'⟩ := Bool.and_eq_true_iff.mp hpaired
    have hafter : (step.run b e).2 = e₁ := congrArg Prod.snd hstep
    obtain ⟨hfirst, hlast⟩ := step.run_attaches hstep hr hpaired hprior
    have hsecond := runBuilderSteps_attaches rest hrest (hfirst.ready hr) hpaired' hlast
    unfold attachedBy
    rw [hafter]
    exact hfirst.trans hsecond

end

/-! ## 6. Guards that reach all rules -/

namespace Attaches

variable {xs : List Attachment}

/-- A rule that was there before and is there now was there all the time. -/
theorem mem_heldIds_of_lt (h : Attaches b xs e e') {id : Nat} (hlt : id < e.nextId)
    (hid : id ∈ e'.heldIds b) : id ∈ e.heldIds b := by
  obtain ⟨old, new, hheld, hold, hnew⟩ := h.heldIds
  rw [hheld] at hid
  rcases List.mem_append.mp hid with hid | hid
  · exact hold.subset hid
  · obtain ⟨x, hx, rfl⟩ := List.mem_map.mp (hnew.subset hid)
    have hle := (h.given x hx).1
    omega

/-- A block that leaves the rules that were there before it finds all those that it attached. -/
theorem mem_found (h : Attaches b xs e e₁) (hr : Ready b e)
    (hkept : Engine.stillHeld b e e₁ = true) {x : Attachment} (hx : x ∈ xs)
    (hheld : x.id ∈ e₁.heldIds b) : x.id ∈ Engine.found b e e₁ := by
  obtain ⟨old, new, hids, hold, hnew⟩ := h.heldIds
  have hsub : e.heldIds b ⊆ old := by
    intro id hid
    have hthere := List.contains_iff_mem.mp (List.all_eq_true.mp hkept id hid)
    rw [hids] at hthere
    exact (List.mem_append.mp hthere).resolve_right fun hmem => h.disjoint hr hid (hnew.subset hmem)
  have hlength : old.length = (e.heldIds b).length :=
    le_antisymm hold.length_le (List.Nodup.subperm hr.nodup hsub).length_le
  have hfound : Engine.found b e e₁ = new := by
    rw [Engine.found, hids]
    exact List.drop_left' hlength
  rw [hids] at hheld
  rw [hfound]
  refine (List.mem_append.mp hheld).resolve_left fun hmem => ?_
  exact h.disjoint hr (hold.subset hmem) (List.mem_map_of_mem hx)

/-- The guard of a block that leaves the rules that were there before it reaches all of its own. -/
theorem within_reached (h : Attaches b xs e e₁) (hr : Ready b e)
    (hkept : Engine.stillHeld b e e₁ = true)
    (hinner : ∀ x ∈ xs, x.id ∈ e₁.heldIds b → x.reached = x.around) (k : Guard × Bool) :
    ∀ x ∈ xs.map (Attachment.within k (Engine.found b e e₁)), x.id ∈ e₁.heldIds b →
      x.reached = x.around := by
  intro x hx hheld
  obtain ⟨y, hy, rfl⟩ := List.mem_map.mp hx
  show (if y.id ∈ Engine.found b e e₁ then k :: y.reached else y.reached) = k :: y.around
  rw [if_pos (h.mem_found hr hkept hy hheld), hinner y hy hheld]

end Attaches

mutual

/-- A step whose blocks leave what was there before them puts all guards around its rules. -/
theorem BuilderStep.attached_reached (step : BuilderStep) {prior : Option Guard} {e e' : Engine}
    (h : step.run b e = (.ok (), e')) (hr : Ready b e) (hpaired : step.isPaired prior = true)
    (hprior : ∀ g ∈ prior, (e.builder b).lastGuard = some g) (hkeeps : step.keeps b e = true) :
    ∀ x ∈ step.attached b prior e, x.id ∈ e'.heldIds b → x.reached = x.around := by
  match step with
  | .check (.attach a) | .childRules steps element =>
    intro x hx _
    obtain rfl := List.mem_singleton.mp hx
    rfl
  | .check (.message _) | .check (.code _) | .check (.resourceKey _) | .check (.provide _) | .rules =>
    exact fun x hx => absurd hx List.not_mem_nil
  | .whenBlock g steps =>
    obtain ⟨hkeeps, hkept⟩ := Bool.and_eq_true_iff.mp hkeeps
    obtain ⟨e₁, hsteps, rfl⟩ := whenBlock_eq_ok h
    have hattaches := runBuilderSteps_attaches steps hsteps hr hpaired nofun
    have hinner := attachedBy_reached steps hsteps hr hpaired nofun hkeeps
    unfold BuilderStep.attached
    rw [hsteps] at hkept ⊢
    rw [heldIds_guardedBlock]
    exact hattaches.within_reached hr hkept hinner (g, true)
  | .otherwise steps =>
    obtain ⟨hsome, hpaired⟩ := Bool.and_eq_true_iff.mp hpaired
    obtain ⟨g, rfl⟩ := Option.isSome_iff_exists.mp hsome
    obtain ⟨hkeeps, hkept⟩ := Bool.and_eq_true_iff.mp hkeeps
    obtain ⟨g', e₁, hlast, hsteps, rfl⟩ := otherwise_eq_ok h
    have hattaches := runBuilderSteps_attaches steps hsteps hr hpaired nofun
    have hinner := attachedBy_reached steps hsteps hr hpaired nofun hkeeps
    unfold BuilderStep.attached
    rw [hsteps] at hkept ⊢
    rw [heldIds_guardedBlock]
    exact hattaches.within_reached hr hkept hinner (g, false)

/-- **All guards reach the rules in their blocks**, if blocks leave what was there before them. -/
theorem attachedBy_reached (steps : List BuilderStep) {prior : Option Guard} {e e' : Engine}
    (h : runBuilderSteps b steps e = (.ok (), e')) (hr : Ready b e)
    (hpaired : arePaired prior steps = true)
    (hprior : ∀ g ∈ prior, (e.builder b).lastGuard = some g) (hkeeps : keepAll b steps e = true) :
    ∀ x ∈ attachedBy b prior steps e, x.id ∈ e'.heldIds b → x.reached = x.around := by
  match steps with
  | [] => exact fun x hx => absurd hx List.not_mem_nil
  | step :: rest =>
    obtain ⟨done, e₁, hstep, hrest⟩ := bind_eq_ok.mp h
    obtain ⟨hpaired, hpaired'⟩ := Bool.and_eq_true_iff.mp hpaired
    obtain ⟨hkeeps, hkeeps'⟩ := Bool.and_eq_true_iff.mp hkeeps
    have hafter : (step.run b e).2 = e₁ := congrArg Prod.snd hstep
    obtain ⟨hfirst, hlast⟩ := step.run_attaches hstep hr hpaired hprior
    have hsecond := runBuilderSteps_attaches rest hrest (hfirst.ready hr) hpaired' hlast
    unfold attachedBy
    rw [hafter] at hkeeps' ⊢
    intro x hx hheld
    rcases List.mem_append.mp hx with hx | hx
    · have hheld' := hsecond.mem_heldIds_of_lt (hfirst.given x hx).2 hheld
      exact step.attached_reached hstep hr hpaired hprior hkeeps x hx hheld'
    · exact attachedBy_reached rest hrest (hfirst.ready hr) hpaired' hlast hkeeps' x hx hheld

end

end MemberRules
