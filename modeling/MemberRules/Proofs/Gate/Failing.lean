/-
# Blocks that fail

A block attaches its rules first, and puts its guard in front of their gates when it ends.  A block
that fails on the way does not end: what it attached until then stays with the builder, and no guard
of the block will ever be put in front of it, since a later block only looks at its own rules.  The
next build registers these rules.

So that a block fails makes a rule out of a part of it that applies to objects which the block was
to leave out.  This is so exactly if the guards of the blocks nested in it, which had ended by then,
let such an object through.

* `leftBy`: what steps leave attached, whether they end or fail.
* `runBuilderSteps_left`: what the builder holds after steps that may have failed.
* `build_builds`: a build registers the rules of a builder with the gates that they have.
* `failed_block_heeds_iff`: when the rules of a block that failed heed its guard.
* `failed_block_not_heeds`: a block that fails and leaves a rule without its guard.
-/
import MemberRules.Attribute.Build
import MemberRules.Proofs.Configuration.Aside
import MemberRules.Proofs.Declared.Building
import MemberRules.Proofs.Gate.Applies

namespace MemberRules

open MemberRules.Computation Engine

variable {b c : Nat} {e e' e₁ e₂ e₃ : Engine}

/-! ## 1. What steps leave attached -/

/-- The rule that a step attached, if it ended. -/
def attachedIn : Except Fault Unit × Engine → List Attachment
  | (.ok _, e) => [{ id := e.lastId }]
  | (.error _, _) => []

/-- The rules that the guard of a block reaches: those that the block found, if it ended. -/
def reachedIn (b : Nat) (e e₁ : Engine) : Except Fault Unit × Engine → List Nat
  | (.ok _, _) => Engine.found b e e₁
  | (.error _, _) => []

mutual

/-- What a step leaves attached that is run where an engine is, whether it ends or fails. -/
def BuilderStep.left (b : Nat) : BuilderStep → Engine → List Attachment
  | .check (.attach a), e => attachedIn (BuilderStep.run b (.check (.attach a)) e)
  | .check _, _ => []
  | .whenBlock g steps, e =>
    (leftBy b steps e).map (Attachment.within (g, true) (reachedIn b e
      (runBuilderSteps b steps e).2 (BuilderStep.run b (.whenBlock g steps) e)))
  | .otherwise steps, e =>
    match (e.builder b).lastGuard with
    | some g =>
      (leftBy b steps e).map (Attachment.within (g, false) (reachedIn b e
        (runBuilderSteps b steps e).2 (BuilderStep.run b (.otherwise steps) e)))
    | none => []
  | .childRules steps element, e =>
    attachedIn (BuilderStep.run b (.childRules steps element) e)
  | .rules, _ => []

/-- What steps leave attached that are run one after the other until one fails. -/
def leftBy (b : Nat) : List BuilderStep → Engine → List Attachment
  | [], _ => []
  | step :: rest, e =>
    step.left b e ++ match step.run b e with
      | (.ok _, e₁) => leftBy b rest e₁
      | (.error _, _) => []

end

/-! ## 2. Attaching that may fail -/

namespace Attaches

variable {xs : List Attachment}

/-- A step that attaches after one that stays in every area. -/
theorem after {α : Type} {x : Action α} {P : α → Prop} {f : α → Action Unit}
    (hx : ∀ s, Action.StaysIn s x P) (hr : Ready b e)
    (hf : ∀ a e, Ready b e → Attaches b (attachedIn (f a e)) e (f a e).2) :
    Attaches b (attachedIn ((x >>= f) e)) e ((x >>= f) e).2 := by
  have hfirst := of_staysIn hx hr
  rw [bind_apply]
  rcases hrun : x e with ⟨fault | a, e₁⟩ <;> rw [hrun] at hfirst
  · exact hfirst
  · exact hfirst.trans (hf a e₁ (hfirst.ready hr))

/-- Attaching a check fails only while the rule for it is made. -/
theorem attachTo_left (a : Attribute) (hr : Ready b e) :
    Attaches b (attachedIn (Action.attachTo b a e)) e (Action.attachTo b a e).2 := by
  rcases hrun : Action.attachTo b a e with ⟨fault | done, e₁⟩
  · have hrule : Action.attachTo b a e = (Action.newRule (e.configuration (e.builder b).owner).type
        (e.builder b).member a (e.builder b).forEach >>= fun r => modify (Engine.updateBuilder b
          fun builder => { builder with rules := builder.rules ++ [r] })) e := rfl
    rw [hrule, bind_apply] at hrun
    have hfirst := of_staysIn (fun s => (Action.StaysIn.newRule (s := s)
      (e.configuration (e.builder b).owner).type (e.builder b).member a
      (e.builder b).forEach).weaken) hr
    rcases hnew : Action.newRule (e.configuration (e.builder b).owner).type
      (e.builder b).member a (e.builder b).forEach e with ⟨fault | r, e'⟩ <;>
        rw [hnew] at hrun hfirst <;> cases hrun
    exact hfirst
  · exact of_attachTo hr hrun

/-- A guard that reaches no rule leaves the rules as they were attached. -/
theorem unreached (h : Attaches b xs e e') (k : Guard × Bool) :
    Attaches b (xs.map (Attachment.within k [])) e e' := by
  have hgated : (xs.map (Attachment.within k [])).map Attachment.gated =
      xs.map Attachment.gated := by
    rw [List.map_map]
    refine List.map_congr_left fun x _ => ?_
    simp [Attachment.within, Attachment.gated]
  refine ⟨h.builders, h.ids, fun x hx => ?_, ?_, ?_⟩
  · obtain ⟨y, hy, rfl⟩ := List.mem_map.mp hx
    exact h.given y hy
  · rw [Attachment.map_id_within]
    exact h.nodup
  · rw [hgated]
    exact h.held

end Attaches

/-! ## 3. Blocks that end or fail -/

/-- A step that is a block, with the guard that it is to put in front of its rules: the one that it
names, or the opposite of that of the block before. -/
inductive BuilderStep.IsBlock (b : Nat) (e : Engine) :
    BuilderStep → Guard × Bool → List BuilderStep → Prop
  | when (g : Guard) (steps : List BuilderStep) : IsBlock b e (.whenBlock g steps) (g, true) steps
  | otherwise {g : Guard} (steps : List BuilderStep) (h : (e.builder b).lastGuard = some g) :
    IsBlock b e (.otherwise steps) (g, false) steps

namespace BuilderStep.IsBlock

variable {step : BuilderStep} {k : Guard × Bool} {steps : List BuilderStep} {f : Fault}

/-- A block whose steps fail fails with them, and leaves what they leave. -/
theorem run_of_error (h : step.IsBlock b e k steps)
    (hfails : runBuilderSteps b steps e = (.error f, e₁)) : step.run b e = (.error f, e₁) := by
  have hblock : Action.block b (runBuilderSteps b steps) e = (.error f, e₁) :=
    (bind_ok rfl).trans (bind_error hfails)
  cases h with
  | when g => exact bind_error hblock
  | otherwise _ hlast =>
    show (Action.builder b >>= fun x => _) e = _
    rw [bind_ok (show Action.builder b e = (.ok (e.builder b), e) from rfl), hlast]
    exact bind_error hblock

/-- **What a block leaves**: its guard in front of the rules that it found, if it ends, and else
just what its steps leave. -/
theorem run_of_ok (h : step.IsBlock b e k steps)
    (hends : runBuilderSteps b steps e = (.ok (), e₁)) :
    (∃ f, step.run b e = (.error f, e₁)) ∨
      ∃ last, step.run b e = (.ok (), guardedBlock b (Guards.wanted k) last e e₁) := by
  have hblock : Action.block b (runBuilderSteps b steps) e = (.ok (blockRules b e e₁), e₁) :=
    (bind_ok rfl).trans ((bind_ok hends).trans rfl)
  cases h with
  | when g =>
    have hwhole : BuilderStep.run b (.whenBlock g steps) e = _ := bind_ok hblock
    cases hempty : (blockRules b e e₁).isEmpty with
    | true =>
      rw [hempty] at hwhole
      exact .inl ⟨_, hwhole⟩
    | false =>
      rw [hempty] at hwhole
      exact .inr ⟨some g, hwhole.trans (guardRules_bind g (some g) e e₁)⟩
  | @otherwise g _ hlast =>
    have hwhole : BuilderStep.run b (.otherwise steps) e =
        (Action.block b (runBuilderSteps b steps) >>= fun added =>
          Action.guardRules g.negate added >>= fun _ => modify (Engine.updateBuilder b
            fun builder => { builder with lastGuard := none })) e := by
      show (Action.builder b >>= fun x => _) e = _
      rw [bind_ok (show Action.builder b e = (.ok (e.builder b), e) from rfl), hlast]
    exact .inr ⟨none, hwhole.trans ((bind_ok hblock).trans (guardRules_bind _ none e e₁))⟩

/-- The rules of a block, with its guard in front of those that it reached. -/
theorem left_eq (h : step.IsBlock b e k steps) : step.left b e =
    (leftBy b steps e).map (Attachment.within k
      (reachedIn b e (runBuilderSteps b steps e).2 (step.run b e))) := by
  cases h with
  | when => rw [BuilderStep.left]
  | otherwise _ hlast => rw [BuilderStep.left, hlast]

/-- What a block leaves attached, from what its steps leave. -/
theorem attaches (h : step.IsBlock b e k steps) (hr : Ready b e)
    (hsteps : Attaches b (leftBy b steps e) e (runBuilderSteps b steps e).2) :
    Attaches b (step.left b e) e (step.run b e).2 := by
  rw [h.left_eq]
  rcases hrun : runBuilderSteps b steps e with ⟨f | _, e₁⟩ <;> rw [hrun] at hsteps
  · rw [h.run_of_error hrun]
    exact hsteps.unreached k
  · rcases h.run_of_ok hrun with ⟨f, hrefused⟩ | ⟨last, hended⟩
    · rw [hrefused]
      exact hsteps.unreached k
    · rw [hended]
      exact (hsteps.guardedBlock hr k last).1

end BuilderStep.IsBlock

/-! ## 4. Steps that end or fail -/

mutual

/-- A step leaves attached what it attached until it ended or failed. -/
theorem BuilderStep.run_left (step : BuilderStep) {e : Engine} (hr : Ready b e) :
    Attaches b (step.left b e) e (step.run b e).2 := by
  match step with
  | .check (.attach a) =>
    exact .after (fun s => Action.StaysIn.builderType b) hr fun t e hr =>
      .after (fun s => Action.StaysIn.usable t a) hr fun a e hr => .attachTo_left a hr
  | .check (.message _) | .check (.code _) | .check (.resourceKey _) | .check (.provide _) =>
    exact .of_staysIn (fun s => .builderCheckStep_of_ne b fun _ h => by cases h) hr
  | .whenBlock g steps =>
    exact (BuilderStep.IsBlock.when g steps).attaches hr (runBuilderSteps_left steps hr)
  | .otherwise steps =>
    cases hlast : (e.builder b).lastGuard with
    | some g =>
      exact (BuilderStep.IsBlock.otherwise steps hlast).attaches hr (runBuilderSteps_left steps hr)
    | none =>
      have hrefused : BuilderStep.run b (.otherwise steps) e =
          (.error (.configuration AppError.needsBlock), e) := by
        show (Action.builder b >>= fun x => _) e = _
        rw [bind_ok (show Action.builder b e = (.ok (e.builder b), e) from rfl), hlast]
        rfl
      rw [hrefused, BuilderStep.left, hlast]
      exact .refl hr
  | .childRules steps element =>
    have hrun : BuilderStep.run b (.childRules steps element) = _ :=
      Action.childRules_eq b element _
    rw [BuilderStep.left, hrun]
    exact .after (fun s => .nestedRules b element fun child => runTypeSteps_staysIn steps child) hr
      fun t e hr => .attachTo_left _ hr
  | .rules =>
    have hstays : ∀ s, Action.StaysIn s (BuilderStep.run b .rules) := fun s =>
      .andThen (.readBuilder b) fun x => .andThen (.view x.rules) fun _ => .report _
    exact .of_staysIn hstays hr

/-- **What a builder holds after steps that may have failed**: what it held before, or some of it,
and then what the steps left attached, or some of it, each gated by the guards that reached it. -/
theorem runBuilderSteps_left (steps : List BuilderStep) {e : Engine} (hr : Ready b e) :
    Attaches b (leftBy b steps e) e (runBuilderSteps b steps e).2 := by
  match steps with
  | [] => exact .refl hr
  | step :: rest =>
    have hfirst := step.run_left hr
    unfold leftBy runBuilderSteps
    rw [bind_apply]
    rcases hrun : step.run b e with ⟨f | _, e₁⟩ <;> rw [hrun] at hfirst
    · dsimp only
      rw [List.append_nil]
      exact hfirst
    · exact hfirst.trans (runBuilderSteps_left rest (hfirst.ready hr))

end

/-! ## 5. Building the rules of a builder -/

instance (builders : List Builder) : Stable fun e => e.builders = builders where
  of_sameWork hsame he := hsame.builders.trans he

namespace Action

variable {cfg : Configuration} {again rs : List Rule} {r : Rule}

/-- A listed builder that is there is one of those that a configuration builds. -/
theorem mem_buildersOf (hlisted : b ∈ cfg.builders) (hmade : b < e.builders.length) :
    (b, e.builder b) ∈ e.buildersOf cfg := by
  refine List.mem_filterMap.mpr ⟨b, hlisted, ?_⟩
  rw [List.getElem?_eq_getElem hmade, Option.map_some, Engine.builder,
    List.getElem?_eq_getElem hmade, Option.getD_some]

/-- What is gathered has the rules of the listed builders, with the settings for all rules. -/
theorem gatherAfter_builds (h : gatherAfter cfg again e = (.ok rs, e'))
    (hlisted : b ∈ cfg.builders) (hmade : b < e.builders.length) (hr : r ∈ (e.builder b).rules) :
    cfg.complete r ∈ rs := by
  obtain ⟨gathered, e₁, hgathered, h⟩ := bind_eq_ok.mp h
  have hkeeps : Keeps (fun e' => e'.builders = e.builders) (cfg.pending.mapM (pendingRules cfg)) :=
    (Keeps.mapM (Q := fun _ => True) fun p _ => pendingRules_keeps cfg p).weaken
  have hbuilders := (hkeeps e rfl).1
  rw [hgathered] at hbuilders
  obtain ⟨built, e₂, hbuilt, h⟩ := bind_eq_ok.mp h
  obtain ⟨providers, e₃, -, h⟩ := bind_eq_ok.mp h
  cases h
  obtain ⟨_, e₄, hget, hbuilt⟩ := bind_eq_ok.mp hbuilt
  cases hget
  obtain ⟨_, e₅, -, hbuilt⟩ := bind_eq_ok.mp hbuilt
  cases hbuilt
  have hmem := mem_buildersOf (e := e) hlisted hmade
  have hsame : e₁.buildersOf cfg = e.buildersOf cfg := by
    unfold Engine.buildersOf
    rw [hbuilders]
  refine List.mem_append_left _ (List.mem_append_right _ (List.mem_map_of_mem ?_))
  rw [hsame]
  exact List.mem_flatMap.mpr ⟨_, hmem, hr⟩

theorem gather_builds (h : gather cfg e = (.ok rs, e'))
    (hlisted : b ∈ cfg.builders) (hmade : b < e.builders.length) (hr : r ∈ (e.builder b).rules) :
    cfg.complete r ∈ rs := by
  have hbusy : cfg.isIdle = false := by
    unfold Configuration.isIdle
    rw [List.isEmpty_eq_false_iff.mpr (List.ne_nil_of_mem hlisted)]
    simp
  rw [gather_eq, hbusy] at h
  cases hchanged : cfg.settingsChanged with
  | false =>
    rw [hchanged] at h
    exact gatherAfter_builds h hlisted hmade hr
  | true =>
    rw [hchanged] at h
    obtain ⟨again, e₁, hagain, h⟩ := bind_eq_ok.mp h
    have hbuilders : e₁.builders = e.builders := by
      have hkept := (recompleted_keeps (I := fun e' => e'.builders = e.builders) cfg e rfl).1
      rwa [hagain] at hkept
    refine gatherAfter_builds h hlisted (hbuilders ▸ hmade) ?_
    rwa [Engine.builder, hbuilders, ← Engine.builder]

/-- **A build registers the rules of a builder that is listed**, with the settings for all rules. -/
theorem build_builds (h : build c e = (.ok rs, e'))
    (hlisted : b ∈ (e.configuration c).builders) (hmade : b < e.builders.length)
    (hr : r ∈ (e.builder b).rules) : (e.configuration c).complete r ∈ rs := by
  rw [build_eq] at h
  obtain ⟨done, e₁, hput, h⟩ := bind_eq_ok.mp h
  have hcommitted := commit_apply (congrArg Prod.fst hput)
  rw [hput] at hcommitted
  obtain rfl : e₁ = e.committed c := congrArg Prod.snd hcommitted
  rw [configuration_bind] at h
  have hcfg : ((e.committed c).configuration c).builders = (e.configuration c).builders ∧
      ((e.committed c).configuration c).complete r = (e.configuration c).complete r := by
    rcases configuration_updateConfiguration (e := e) c c _ with heq | heq <;>
      rw [Engine.committed, heq] <;> exact ⟨rfl, rfl⟩
  have hbusy : ((e.committed c).configuration c).isIdle = false := by
    unfold Configuration.isIdle
    rw [hcfg.1, List.isEmpty_eq_false_iff.mpr (List.ne_nil_of_mem hlisted)]
    simp
  rw [hbusy] at h
  obtain ⟨rs', e₂, hgather, h⟩ := bind_eq_ok.mp h
  obtain ⟨_, e₃, -, h⟩ := bind_eq_ok.mp h
  obtain ⟨_, e₄, -, h⟩ := bind_eq_ok.mp h
  obtain ⟨_, e₅, -, h⟩ := bind_eq_ok.mp h
  cases h
  rw [← hcfg.2]
  exact gather_builds hgather (hcfg.1 ▸ hlisted) hmade hr

end Action

/-! ## 6. Rules that heed a guard -/

/-- Guards that do not hold of an object of which another guard does not give the wanted answer. -/
def Guards.Heed (k : Guard × Bool) (ks : Guards) : Prop :=
  ∀ d o w w' answer, k.1.holds d o w = (.ok answer, w') → answer ≠ k.2 →
    (ks.hold d o w).1 = .ok false

/-- A rule that does not apply to an object of which a guard does not give the wanted answer. -/
def Rule.Heeds (k : Guard × Bool) (r : Rule) : Prop :=
  ∀ d o w w' answer, k.1.holds d o w = (.ok answer, w') → answer ≠ k.2 →
    (r.applies d o w).1 = .ok false

/-- Guards of which the first one is the guard heed it. -/
theorem Guards.heed_cons (k : Guard × Bool) (ks : Guards) : Guards.Heed k (k :: ks) :=
  fun _ _ _ _ _ hk hne => congrArg Prod.fst (Guards.hold_of_not_wanted hk hne ks)

/-- A rule that the guard of a block reached heeds it. -/
theorem BuilderStep.IsBlock.heed_of_reached {step : BuilderStep} {k : Guard × Bool}
    {steps : List BuilderStep} (h : step.IsBlock b e k steps) {x : Attachment}
    (hx : x ∈ step.left b e)
    (hid : x.id ∈ reachedIn b e (runBuilderSteps b steps e).2 (step.run b e)) :
    x.reached.Heed k := by
  rw [h.left_eq] at hx
  obtain ⟨y, -, rfl⟩ := List.mem_map.mp hx
  have hreached : (y.within k (reachedIn b e (runBuilderSteps b steps e).2
      (step.run b e))).reached = k :: y.reached := if_pos hid
  rw [hreached]
  exact Guards.heed_cons k _

theorem Rule.heeds_iff {k : Guard × Bool} {ks : Guards} {r : Rule} (h : r.gate = ks.gate) :
    r.Heeds k ↔ ks.Heed k := by
  unfold Rule.Heeds Guards.Heed Rule.applies
  simp only [h, Guards.isOpen_gate]

namespace Engine

/-- The rules that a build of a configuration makes of those of a builder. -/
def builtFor (c b : Nat) (e : Engine) : List Rule :=
  (e.builder b).rules.map (e.configuration c).complete

/-- Engines that come after one another by steps on types, and by steps of a builder, which may have
ended or failed. -/
inductive Later (b : Nat) : Engine → Engine → Prop
  | refl (e : Engine) : Later b e e
  | types {e e' : Engine} (c : Nat) (steps : List TypeStep) (h : Later b e e') :
    Later b e (runTypeSteps c steps e').2
  | builder {e e' : Engine} (steps : List BuilderStep) (h : Later b e e') :
    Later b e (runBuilderSteps b steps e').2

/-- Later on, a builder holds what it held before, or some of it, and what was attached since. -/
theorem Later.attaches (h : Later b e e') (hr : Ready b e) : ∃ ys, Attaches b ys e e' := by
  induction h with
  | refl => exact ⟨[], .refl hr⟩
  | types c steps _ ih =>
    obtain ⟨ys, hys⟩ := ih
    exact ⟨_, hys.trans (.of_staysIn (fun s => runTypeSteps_staysIn steps c) (hys.ready hr))⟩
  | builder steps _ ih =>
    obtain ⟨ys, hys⟩ := ih
    exact ⟨_, hys.trans (runBuilderSteps_left steps (hys.ready hr))⟩

/-- Whatever steps are run later on, the builder stays there to be built. -/
theorem Later.ready (h : Later b e e') (hr : Ready b e) : Ready b e' := by
  obtain ⟨ys, hys⟩ := h.attaches hr
  exact hys.ready hr

end Engine

/-- **A block that fails leaves its rules without its guard.**  What it attached until then is
registered by any later build, as long as the builder holds it, with the gate of the guards that
reached it: those of the blocks nested in it that had ended.  So the rules of the block heed its
guard exactly if these guards do. -/
theorem failed_block_heeds_iff {step : BuilderStep} {k : Guard × Bool} {steps : List BuilderStep}
    {f : Fault} {rs : List Rule} (hr : Ready b e) (hblock : step.IsBlock b e k steps)
    (hfails : runBuilderSteps b steps e = (.error f, e₁)) (hlater : Later b e₁ e₂)
    (hbuild : Action.build c e₂ = (.ok rs, e₃)) (hlisted : b ∈ (e₂.configuration c).builders) :
    step.run b e = (.error f, e₁) ∧
      (∀ x ∈ leftBy b steps e, x.id ∈ e₂.heldIds b →
        ∃ r ∈ rs, r ∈ e₂.builtFor c b ∧ r.id = x.id ∧ r.gate = x.reached.gate) ∧
      ((∀ r ∈ rs, r ∈ e₂.builtFor c b → (∃ x ∈ leftBy b steps e, x.id = r.id) → r.Heeds k) ↔
        ∀ x ∈ leftBy b steps e, x.id ∈ e₂.heldIds b → x.reached.Heed k) := by
  have hleft := runBuilderSteps_left steps hr
  rw [hfails] at hleft
  obtain ⟨ys, hys⟩ := hlater.attaches (hleft.ready hr)
  have hwhole := hleft.trans hys
  have hregistered : ∀ x ∈ leftBy b steps e, x.id ∈ e₂.heldIds b →
      ∃ r ∈ rs, r ∈ e₂.builtFor c b ∧ r.id = x.id ∧ r.gate = x.reached.gate := by
    intro x hx hheld
    rw [heldIds_eq] at hheld
    obtain ⟨r, hmem, hid⟩ := List.mem_map.mp hheld
    have hgate := hwhole.gate_eq hr hmem (List.mem_append_left ys hx) hid.symm
    have hmade := (hlater.ready (hleft.ready hr)).made
    exact ⟨_, Action.build_builds hbuild hlisted hmade hmem, List.mem_map_of_mem hmem, hid, hgate⟩
  refine ⟨hblock.run_of_error hfails, hregistered, ?_, ?_⟩
  · intro hheeds x hx hheld
    obtain ⟨r, hmem, hbuilt, hid, hgate⟩ := hregistered x hx hheld
    exact (Rule.heeds_iff hgate).mp (hheeds r hmem hbuilt ⟨x, hx, hid.symm⟩)
  · rintro hheeds r - hbuilt ⟨x, hx, hid⟩
    obtain ⟨r₀, hmem, rfl⟩ := List.mem_map.mp hbuilt
    have hheld : x.id ∈ e₂.heldIds b := by
      rw [heldIds_eq, hid]
      exact List.mem_map.mpr ⟨r₀, hmem, rfl⟩
    have hgate := hwhole.gate_eq hr hmem (List.mem_append_left ys hx) hid
    exact (Rule.heeds_iff hgate).mpr (hheeds x hx hheld)

/-! ### A block of rules of the note of an order that fails

The last step of each of these blocks asks for a length of at least five and at most two, and is
refused. -/

namespace Order

def whileDraft : Guard := .plain (.test isDraft)

def badLength : BuilderStep :=
  .check (.attach ((Check.lengthBetween (.int 5) (.int 2)).map fun c => { check := c }))

/-- A block that attaches a rule and fails. -/
def failing : List BuilderStep := [attach (.required false), badLength]

def within : BuilderStep := .whenBlock whileDraft [attach (.required false)]

/-- A block that attaches a rule in a block of its own guard, and fails. -/
def failingWithin : List BuilderStep := [within, badLength]

theorem builder_ready : Ready 0 builder := (newBuilder_ready newBuilder_ok).1

/-- The steps of both blocks fail. -/
theorem failing_fails : ∀ steps ∈ [failing, failingWithin], ∃ f,
    runBuilderSteps 0 steps builder = (.error f, (runBuilderSteps 0 steps builder).2) := by
  have hfails : [failing, failingWithin].all (fun steps =>
      (runBuilderSteps 0 steps builder).1.toOption.isNone) = true := by decide +kernel
  intro steps hsteps
  have hnone := List.all_eq_true.mp hfails steps hsteps
  rcases hrun : runBuilderSteps 0 steps builder with ⟨f | done, e⟩
  · exact ⟨f, rfl⟩
  · rw [hrun] at hnone
    cases hnone

/-- And what they leave can be built. -/
theorem failing_builds : ∀ steps ∈ [failing, failingWithin], ∃ rs,
    Action.build 0 (runBuilderSteps 0 steps builder).2 =
      (.ok rs, (Action.build 0 (runBuilderSteps 0 steps builder).2).2) := by
  have hbuilds : [failing, failingWithin].all (fun steps =>
      (Action.build 0 (runBuilderSteps 0 steps builder).2).1.toOption.isSome) = true := by
    decide +kernel
  intro steps hsteps
  obtain ⟨rs, hrs⟩ := Option.isSome_iff_exists.mp (List.all_eq_true.mp hbuilds steps hsteps)
  exact ⟨rs, eq_ok_of_toOption hrs⟩

theorem within_isBlock : within.IsBlock 0 builder (whileDraft, true) [attach (.required false)] :=
  .when _ _

/-- What the second block leaves is reached by the guard of the block in it. -/
theorem within_heeds : ∀ x ∈ leftBy 0 failingWithin builder,
    Guards.Heed (whileDraft, true) x.reached := by
  have hlast : (match within.run 0 builder with
      | (.ok _, e) => leftBy 0 [badLength] e
      | (.error _, _) => []).isEmpty = true := by decide +kernel
  have hreached : (within.left 0 builder).all (fun x => (reachedIn 0 builder
      (runBuilderSteps 0 [attach (.required false)] builder).2 (within.run 0 builder)).contains
        x.id) = true := by decide +kernel
  intro x hx
  have hx : x ∈ within.left 0 builder := by
    have hall : leftBy 0 failingWithin builder = within.left 0 builder ++ _ := rfl
    rw [hall, List.isEmpty_iff.mp hlast, List.append_nil] at hx
    exact hx
  exact within_isBlock.heed_of_reached hx
    (List.contains_iff_mem.mp (List.all_eq_true.mp hreached x hx))

end Order

/-- The rule in a block of the same guard heeds it. -/
theorem failed_block_heeds_within : ∃ rs,
    Action.build 0 (runBuilderSteps 0 Order.failingWithin Order.builder).2 =
      (.ok rs, (Action.build 0 (runBuilderSteps 0 Order.failingWithin Order.builder).2).2) ∧
    ∀ r ∈ rs, r ∈ (runBuilderSteps 0 Order.failingWithin Order.builder).2.builtFor 0 0 →
      (∃ x ∈ leftBy 0 Order.failingWithin Order.builder, x.id = r.id) →
        r.Heeds (Order.whileDraft, true) := by
  obtain ⟨f, hfails⟩ := Order.failing_fails Order.failingWithin (by simp)
  obtain ⟨rs, hbuild⟩ := Order.failing_builds Order.failingWithin (by simp)
  refine ⟨rs, hbuild, (failed_block_heeds_iff Order.builder_ready (.when Order.whileDraft _) hfails
    (.refl _) hbuild (by decide +kernel)).2.2.mpr fun x hx _ => ?_⟩
  exact Order.within_heeds x hx

/-- **A block that fails leaves a rule without its guard**: a rule that is to apply to drafts alone
applies to all orders. -/
theorem failed_block_not_heeds :
    ¬ ∀ {b c : Nat} {e e₁ e₂ : Engine} {step : BuilderStep} {k : Guard × Bool}
      {steps : List BuilderStep} {f : Fault} {rs : List Rule},
      Ready b e → step.IsBlock b e k steps → runBuilderSteps b steps e = (.error f, e₁) →
      Action.build c e₁ = (.ok rs, e₂) → b ∈ (e₁.configuration c).builders →
      ∀ r ∈ rs, r ∈ e₁.builtFor c b → (∃ x ∈ leftBy b steps e, x.id = r.id) → r.Heeds k := by
  intro h
  obtain ⟨f, hfails⟩ := Order.failing_fails Order.failing (by simp)
  obtain ⟨rs, hbuild⟩ := Order.failing_builds Order.failing (by simp)
  have hheeds := h Order.builder_ready (.when Order.whileDraft _) hfails hbuild (by decide +kernel)
  have hdraft : Order.whileDraft.holds .patient (.object 0) Order.engine.world = (.ok false, _) :=
    eq_ok_of_toOption (by decide +kernel)
  have hleaks : ((runBuilderSteps 0 Order.failing Order.builder).2.builder 0).rules.any (fun r =>
      (leftBy 0 Order.failing Order.builder).any (fun x => x.id == r.id) &&
        (r.applies .patient (.object 0) Order.engine.world).1.toOption == some true) = true := by
    decide +kernel
  obtain ⟨r, hr, hleaks⟩ := List.any_eq_true.mp hleaks
  simp only [Bool.and_eq_true, List.any_eq_true, beq_iff_eq] at hleaks
  obtain ⟨hleft, happlies⟩ := hleaks
  have hrule := Action.build_builds hbuild (by decide +kernel) (by decide +kernel) hr
  have hrefuses : (r.applies .patient (.object 0) Order.engine.world).1 = .ok false :=
    hheeds _ hrule (List.mem_map_of_mem hr) hleft .patient (.object 0) _ _ false hdraft (by decide)
  rw [hrefuses] at happlies
  cases happlies

end MemberRules
