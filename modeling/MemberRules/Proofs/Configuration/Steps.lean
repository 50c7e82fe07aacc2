/-
# Configuration steps stay in their area

Every configuration step stays in the area of the builder it is about, and so does a whole block of
steps with the blocks nested in it.  A step on a type stays in every area, whatever its configuration
is: of the rules that builders hold, it can only drop some.

* `runTypeSteps_staysIn`, `runBuilderSteps_staysIn`: blocks of steps stay in their area.
* `Engine.newArea`: the area of what is made from an engine on, in which nested blocks work.
-/
import MemberRules.Proofs.Configuration.Area
import MemberRules.Proofs.Configuration.Parts

namespace MemberRules

open MemberRules.Computation Engine

variable {α β : Type} {s : Area} {c b : Nat}

namespace Action.StaysIn

/-! ## 1. The registry -/

theorem declaredRules (t : TypeId) : Action.StaysIn s (Action.declaredRules t) :=
  andThen (members t) fun _ => andThen schema fun _ => andThen (lift _) fun _ =>
    andThen (numbered _) fun _ => andThen (note _ _ _) fun _ => pure trivial

theorem noteAdded (t : TypeId) (count : Nat) (built : Bool) :
    Action.StaysIn s (Action.noteAdded t count built) := by
  cases built
  · exact note _ _ _
  · exact andThen (updateRegistry _) fun _ => note _ _ _

theorem addRules (t : TypeId) (rs : List Rule) (built : Bool) :
    Action.StaysIn s (Action.addRules t rs built) :=
  andThen (updateRegistry _) fun _ => noteAdded t rs.length built

theorem removeRules (t : TypeId) (member : Option MemberRef) (doomed : Rule → Bool) :
    Action.StaysIn s (Action.removeRules t member doomed) := by
  refine get_bind fun e he => ?_
  refine andThen (updateRegistry _) (fun _ => andThen ?_ fun _ => pure trivial) e he
  unfold Action.noteRemoved
  split
  · exact pure trivial
  · exact note _ _ _

theorem ensureWithin (n : Nat) (t : TypeId) : Action.StaysIn s (Action.ensureWithin n t) := by
  induction n generalizing t with
  | zero => exact throw _
  | succ n ih =>
    refine get_bind fun e he => ?_
    cases e.registry.knows t with
    | true => exact pure (P := fun _ => True) trivial e he
    | false =>
      exact andThen (declaredRules t) (fun _ => andThen (addRules t _ true) fun _ =>
        forM fun u _ => ih u) e he

theorem ensure (t : TypeId) : Action.StaysIn s (Action.ensure t) :=
  andThen schema fun _ => ensureWithin _ t

/-! ## 2. Parts of a configuration -/

theorem refuse (err : AppError) {P : α → Prop} : Action.StaysIn s (Action.refuse err) P := throw _

theorem updateCurrent (c : Nat) (f : PendingRule → PendingRule) :
    Action.StaysIn s (Action.updateCurrent c f) :=
  updateConfiguration c fun _ => by rfl

theorem start (c : Nat) (p : PendingRule) : Action.StaysIn s (Action.start c p) :=
  updateConfiguration c fun _ => by rfl

theorem readConfiguration (c : Nat) : Action.StaysIn s (Action.configuration c) :=
  aside fun _ => ⟨rfl, rfl, rfl⟩

theorem readBuilder (b : Nat) : Action.StaysIn s (Action.builder b) :=
  aside fun _ => ⟨rfl, rfl, rfl⟩

theorem touch (c : Nat) : Action.StaysIn s (Action.touch c) :=
  andThen (readConfiguration c) fun _ => updateRegistry _

theorem commit (c : Nat) : Action.StaysIn s (Action.commit c) := by
  refine andThen (readConfiguration c) fun cfg => ?_
  cases cfg.current with
  | none => exact pure trivial
  | some p =>
    refine andThen (updateConfiguration c fun _ => by rfl) fun _ => ?_
    have hlast : Action.StaysIn s (Action.updateConfiguration c fun cfg =>
        { cfg with pending := cfg.pending ++ [p] }) := updateConfiguration c fun _ => by rfl
    split
    · refine andThen (aside fun _ => ⟨rfl, rfl, rfl⟩) fun found => ?_
      cases found with
      | false => exact andThen (refuse _) fun _ => hlast
      | true => exact hlast
    · exact hlast

theorem begin (c : Nat) (sel : Selector) : Action.StaysIn s (Action.begin c sel) :=
  andThen (commit c) fun _ => andThen (touch c) fun _ => andThen (readConfiguration c) fun _ =>
    select _ sel

theorem displayName (t : TypeId) (name : String) : Action.StaysIn s (Action.displayName t name) := by
  refine andThen (members t) fun ms => ?_
  split <;> exact pure trivial

theorem newRule (t : TypeId) (m : MemberRef) (a : Attribute) (forEach : Bool) :
    Action.StaysIn s (Action.newRule t m a forEach) fun r => s.ids ≤ r.id :=
  andThen (displayName t m.name) fun _ => bind freshId fun _ hid => pure hid

theorem newCarrier (t : TypeId) (m : MemberRef) (kind : String) :
    Action.StaysIn s (Action.newCarrier t m kind) := andThen freshId.weaken fun _ => pure trivial

theorem copied (r : Rule) : Action.StaysIn s (Action.copied r) :=
  andThen freshId.weaken fun _ => pure trivial

theorem usable (t : TypeId) (a : Except Fault Attribute) : Action.StaysIn s (Action.usable t a) :=
  andThen (lift _) fun _ => andThen schema fun _ => andThen (lift _) fun _ => pure trivial

theorem provide (c : Nat) (m : MemberRef) (e : Expr) : Action.StaysIn s (Action.provide c m e) := by
  have hlast : Action.StaysIn s (do
      if !m.isWritable (← Action.schema) then Action.refuse (AppError.unwritable m)
      Action.updateConfiguration c fun cfg => { cfg with providers := cfg.providers ++ [(m, e)] }) := by
    refine andThen schema fun _ => ?_
    have hset : Action.StaysIn s (Action.updateConfiguration c fun cfg =>
        { cfg with providers := cfg.providers ++ [(m, e)] }) :=
      updateConfiguration c fun _ => by rfl
    split
    · exact andThen (refuse _) fun _ => hset
    · exact hset
  refine andThen (readConfiguration c) fun cfg => get_bind fun e he => ?_
  dsimp only
  split
  · exact andThen (refuse _) (fun _ => hlast) e he
  · exact hlast e he

/-! ## 3. Starting a configuration -/

theorem newConfiguration (t : TypeId) : Action.StaysIn s (Action.newConfiguration t) := by
  refine andThen (ensure t) fun _ => get_bind fun e he => ?_
  exact andThen (change fun e he => he.newConfiguration _) (fun _ => pure trivial) e he

theorem newChild (c : Nat) (t : TypeId) : Action.StaysIn s (Action.newChild c t) :=
  andThen (newConfiguration t) fun child => andThen (readConfiguration c) fun cfg =>
    andThen (updateConfiguration child fun _ => by rfl) fun _ => pure trivial

theorem configure (t : TypeId) : Action.StaysIn s (Action.configure t) := by
  refine get_bind fun e he => ?_
  cases e.configured.lookup t with
  | some c => exact pure (P := fun _ => True) trivial e he
  | none =>
    exact andThen (newConfiguration t) (fun c => andThen (aside fun _ => ⟨rfl, rfl, rfl⟩)
      fun _ => pure trivial) e he

/-! ## 4. Steps on a type -/

theorem requireCurrent (c : Nat) (operation : String) :
    Action.StaysIn s (Action.requireCurrent c operation) := by
  refine andThen (readConfiguration c) fun cfg => ?_
  split
  · exact pure trivial
  · exact refuse _

theorem attach (c : Nat) (a : Attribute) : Action.StaysIn s (Action.attach c a) :=
  andThen (requireCurrent c _) fun _ => updateCurrent c _

theorem checkStep (c : Nat) (step : CheckStep) : Action.StaysIn s (Action.checkStep c step) := by
  cases step with
  | attach a =>
    exact andThen (readConfiguration c) fun _ => andThen (usable _ a) fun _ => attach c _
  | message m => exact andThen (requireCurrent c _) fun _ => updateCurrent c _
  | code key => exact andThen (requireCurrent c _) fun _ => updateCurrent c _
  | resourceKey key => exact andThen (requireCurrent c _) fun _ => updateCurrent c _
  | provide e => exact andThen (requireCurrent c _) fun _ => provide c _ e

theorem drop (c : Nat) (m : MemberRef) : Action.StaysIn s (Action.drop c m) :=
  andThen (readConfiguration c) fun _ => andThen (removeRules _ _ _) fun _ =>
    updateConfiguration c fun _ => by rfl

/-- A member is selected, and with `replace` its rules are dropped, before a step is about it. -/
theorem beginWith (c : Nat) (sel : Selector) (replace : Bool) {f : MemberRef → Action Unit}
    (hf : ∀ m, Action.StaysIn s (f m)) : Action.StaysIn s (do
      let m ← Action.begin c sel
      if replace then Action.drop c m
      f m) := by
  refine andThen (begin c sel) fun m => ?_
  cases replace with
  | true => exact andThen (drop c m) fun _ => hf m
  | false => exact hf m

theorem furnish (c : Nat) (must : Option Expr) (message : Option MessageSource) :
    Action.StaysIn s (Action.furnish c must message) := by
  have hmessage : Action.StaysIn s
      (message.elim (Pure.pure ()) fun t => Action.checkStep c (.message (some t))) := by
    cases message with
    | none => exact pure trivial
    | some t => exact checkStep c (.message (some t))
  cases must with
  | none => exact andThen (pure (P := fun _ => True) trivial) fun _ => hmessage
  | some e => exact andThen (attach c _) fun _ => hmessage

theorem startRule (c : Nat) (sel : Selector) (must : Option Expr) (message : Option MessageSource)
    (replace : Bool) : Action.StaysIn s (Action.startRule c sel must message replace) := by
  rw [startRule_eq]
  exact beginWith c sel replace fun m => andThen (start c _) fun _ => furnish c must message

theorem newBuilder (c : Nat) (sel : Selector) (forEach : Bool) (name : Option String) :
    Action.StaysIn s (Action.newBuilder c sel forEach name) fun b => s.builders ≤ b := by
  refine andThen (begin c sel) fun m => get_bind fun e he => ?_
  exact andThen (change fun e he => he.newBuilder rfl _) (fun _ =>
    andThen (updateConfiguration c fun _ => by rfl) fun _ => pure he.builders) e he

theorem startGated (c : Nat) (sel : Option Selector) :
    Action.StaysIn s (Action.startGated c sel) := by
  cases sel with
  | none =>
    refine andThen (readConfiguration c) fun cfg => ?_
    cases cfg.current.isNone with
    | true => exact andThen (refuse _) fun _ => updateCurrent c _
    | false => exact updateCurrent c _
  | some sel =>
    refine andThen (touch c) fun _ => andThen (readConfiguration c) fun _ =>
      andThen (select _ sel) fun m => andThen (readConfiguration c) fun cfg => ?_
    cases cfg.current.any fun p => !p.checks.isEmpty && p.member.key == m.key with
    | true => exact updateCurrent c _
    | false => exact andThen (commit c) fun _ => start c _

theorem exclude (c : Nat) (sel : Selector) : Action.StaysIn s (Action.exclude c sel) := by
  refine andThen (begin c sel) fun m => andThen (drop c m) fun _ => get_bind fun e he => ?_
  exact andThen (updateConfiguration c fun _ => by rfl) (fun _ => start c _) e he

theorem always (c : Nat) (sel : Selector) : Action.StaysIn s (Action.always c sel) :=
  andThen (begin c sel) fun _ => start c _

theorem dropMember (c : Nat) (sel : Selector) (kind : Option String) :
    Action.StaysIn s (Action.dropMember c sel kind) := by
  refine andThen (begin c sel) fun m => andThen (touch c) fun _ =>
    andThen (readConfiguration c) fun cfg => andThen (removeRules _ _ _) fun _ =>
    andThen (updateConfiguration c fun _ => by rfl) fun _ => forM fun b _ => dropFrom b fun x => ?_
  split
  · exact List.filter_sublist
  · exact .refl _

theorem keepOnly (c : Nat) (sel : Selector) : Action.StaysIn s (Action.keepOnly c sel) := by
  refine andThen (begin c sel) fun m => andThen (touch c) fun _ => andThen (readConfiguration c)
    fun _ => andThen (removeRules _ _ _) fun _ => get_bind fun e he => ?_
  exact updateConfiguration c (fun _ => by rfl) e he

theorem clear (c : Nat) : Action.StaysIn s (Action.clear c) :=
  andThen (commit c) fun _ => andThen (touch c) fun _ => andThen (readConfiguration c) fun _ =>
    andThen (removeRules _ _ _) fun _ => updateConfiguration c fun _ => by rfl

/-! ## 5. Building -/

theorem pendingRules (cfg : Configuration) (p : PendingRule) :
    Action.StaysIn s (Action.pendingRules cfg p) := by
  unfold Action.pendingRules
  split
  · refine get_bind fun e he => ?_
    exact andThen (mapM (Q := fun _ => True) fun r _ => copied r).weaken (fun _ =>
      andThen (newCarrier _ _ _) fun _ => pure trivial) e he
  · refine (mapM (Q := fun _ => True) fun k _ => ?_).weaken
    exact andThen (newRule _ _ _ _).weaken fun _ => pure trivial

theorem recompleted (cfg : Configuration) : Action.StaysIn s (Action.recompleted cfg) :=
  get_bind fun e he => (mapM (Q := fun _ => True) fun r _ => copied r).weaken e he

/-- Settings for all rules do not change the gates of the rules of builders. -/
theorem builderRules (cfg : Configuration) : Action.StaysIn s (Action.builderRules cfg) := by
  refine get_bind fun e he => ?_
  have hcomplete : ∀ r : Rule,
      Action.StaysIn s (modify (Engine.amend r.id cfg.complete) : Action Unit) := fun r =>
    amendBesideGate r.id (f := cfg.complete) (fun _ => rfl) fun _ => rfl
  exact andThen (forM fun r _ => hcomplete r) (fun _ => pure (P := fun _ => True) trivial) e he

theorem gather (cfg : Configuration) : Action.StaysIn s (Action.gather cfg) := by
  have hafter (again : List Rule) : Action.StaysIn s (Action.gatherAfter cfg again) :=
    andThen (mapM (Q := fun _ => True) fun p _ => pendingRules cfg p).weaken fun _ =>
    andThen (builderRules cfg) fun _ =>
    andThen (mapM (Q := fun _ => True) fun p _ => andThen (newCarrier _ _ _) fun _ =>
      pure trivial).weaken fun _ => pure trivial
  rw [gather_eq]
  cases cfg.isIdle with
  | true => exact pure trivial
  | false =>
    cases cfg.settingsChanged with
    | true => exact andThen (recompleted cfg) hafter
    | false => exact hafter []

theorem finish (c : Nat) (cfg : Configuration) (rs : List Rule) :
    Action.StaysIn s (Action.finish c cfg rs) :=
  andThen (addRules _ _ _) fun _ => andThen (note _ _ _) fun _ =>
    andThen (updateConfiguration c fun _ => by rfl) fun _ => pure trivial

theorem build (c : Nat) : Action.StaysIn s (Action.build c) := by
  rw [build_eq]
  refine andThen (commit c) fun _ => andThen (readConfiguration c) fun cfg => ?_
  cases cfg.isIdle with
  | true => exact andThen (updateRegistry _) fun _ => pure trivial
  | false => exact andThen (gather cfg) fun rs => finish c cfg rs

/-! ## 6. Steps of a builder -/

end Action.StaysIn

/-- The part of nested rules before a check by them is attached: they are configured and built. -/
def Action.nestedRules (b : Nat) (element : Option TypeId) (steps : Nat → Action Unit) :
    Action TypeId := do
  let t ← Action.nestedType b element
  let child ← Action.newChild (← Action.builder b).owner t
  steps child
  let _ ← Action.build child
  return t

theorem Action.childRules_eq (b : Nat) (element : Option TypeId) (steps : Nat → Action Unit) :
    Action.childRules b element steps =
      Action.nestedRules b element steps >>= fun t => Action.attachTo b { check := .childRules t } := by
  simp only [Action.childRules, Action.nestedRules, bind_assoc, pure_bind]

namespace Action.StaysIn

theorem builderType (b : Nat) : Action.StaysIn s (Action.builderType b) :=
  aside fun _ => ⟨rfl, rfl, rfl⟩

theorem attachTo (hb : s.builders ≤ b) (a : Attribute) : Action.StaysIn s (Action.attachTo b a) := by
  refine andThen (readBuilder b) fun x => andThen (builderType b) fun t =>
    bind (newRule t _ a _) fun r hr => updateBuilder hb fun x hx r' hr' => ?_
  rcases List.mem_append.mp hr' with hr' | hr'
  · exact hx r' hr'
  · obtain rfl := List.mem_singleton.mp hr'
    exact hr

theorem amendLast (b : Nat) (operation : String) {f : Rule → Rule} (hf : ∀ r, (f r).id = r.id)
    (hgate : ∀ r, (f r).gate = r.gate) : Action.StaysIn s (Action.amendLast b operation f) := by
  refine andThen (readBuilder b) fun x => ?_
  cases x.rules.getLast? with
  | none => exact refuse _
  | some r => exact amendBesideGate r.id hf hgate

/-- A step on the rule that was attached last leaves the gates of all rules. -/
theorem builderCheckStep_of_ne (b : Nat) {step : CheckStep} (h : ∀ a, step ≠ .attach a) :
    Action.StaysIn s (Action.builderCheckStep b step) := by
  cases step with
  | attach a => exact absurd rfl (h a)
  | message m => exact amendLast b _ (fun _ => rfl) fun _ => rfl
  | code key => exact amendLast b _ (fun _ => rfl) fun _ => rfl
  | resourceKey key => exact amendLast b _ (fun _ => rfl) fun _ => rfl
  | provide v => exact andThen (readBuilder b) fun x => Action.StaysIn.provide _ _ v

theorem builderCheckStep (hb : s.builders ≤ b) (step : CheckStep) :
    Action.StaysIn s (Action.builderCheckStep b step) := by
  cases step with
  | attach a =>
    exact andThen (builderType b) fun _ => andThen (usable _ a) fun a => attachTo hb a
  | message | code | resourceKey | provide => exact builderCheckStep_of_ne b fun _ h => by cases h

/-- The rules that a block attaches are of the area. -/
theorem block (hb : s.builders ≤ b) {steps : Action Unit} (hsteps : Action.StaysIn s steps) :
    Action.StaysIn s (Action.block b steps) fun rs => ∀ r ∈ rs, s.ids ≤ r.id :=
  andThen (readBuilder b) fun _ => andThen hsteps fun _ => bind (builder hb) fun _ hx =>
    pure fun r hr => hx r (List.mem_of_mem_drop hr)

theorem guardRules (g : Guard) {rs : List Rule} (hrs : ∀ r ∈ rs, s.ids ≤ r.id) :
    Action.StaysIn s (Action.guardRules g rs) :=
  forM fun r hr => amend (hrs r hr) fun _ => rfl

theorem setLastGuard (b : Nat) (g : Option Guard) : Action.StaysIn s
    (modify (Engine.updateBuilder b fun builder => { builder with lastGuard := g }) : Action Unit) :=
  dropFrom b fun _ => .refl _

theorem whenBlock (hb : s.builders ≤ b) (g : Guard) {steps : Action Unit}
    (hsteps : Action.StaysIn s steps) : Action.StaysIn s (Action.whenBlock b g steps) := by
  refine bind (block hb hsteps) fun added hadded => ?_
  have hlast := andThen (guardRules g hadded) fun _ => setLastGuard b (some g)
  cases added.isEmpty with
  | true => exact andThen (readBuilder b) fun _ => andThen (refuse _) fun _ => hlast
  | false => exact hlast

theorem otherwise (hb : s.builders ≤ b) {steps : Action Unit}
    (hsteps : Action.StaysIn s steps) : Action.StaysIn s (Action.otherwise b steps) := by
  refine andThen (readBuilder b) fun x => ?_
  cases x.lastGuard with
  | none => exact refuse _
  | some g =>
    exact bind (block hb hsteps) fun added hadded =>
      andThen (guardRules g.negate hadded) fun _ => setLastGuard b none

/-- A step with something that may be missing. -/
theorem ofOption {f : Option β → Action α} (hnone : Action.StaysIn s (f none))
    (hsome : ∀ x, Action.StaysIn s (f (some x))) (x : Option β) : Action.StaysIn s (f x) := by
  cases x with
  | none => exact hnone
  | some x => exact hsome x

theorem nestedType (b : Nat) (element : Option TypeId) :
    Action.StaysIn s (Action.nestedType b element) := by
  refine andThen (readBuilder b) fun x => andThen (builderType b) fun t => andThen schema fun sch => ?_
  cases element with
  | some u => exact andThen (pure trivial) (ofOption (refuse _) fun _ => pure trivial)
  | none =>
    cases x.forEach with
    | true =>
      exact andThen (lift _) fun h =>
        andThen (pure trivial) (ofOption (refuse _) fun _ => pure trivial)
    | false => exact andThen (lift _) (ofOption (refuse _) fun _ => pure trivial)

/-- Nested rules are configured and built in every area. -/
theorem nestedRules (b : Nat) (element : Option TypeId) {steps : Nat → Action Unit}
    (hsteps : ∀ child, Action.StaysIn s (steps child)) :
    Action.StaysIn s (Action.nestedRules b element steps) :=
  andThen (nestedType b element) fun t => andThen (readBuilder b) fun x =>
    andThen (newChild x.owner t) fun child => andThen (hsteps child) fun _ =>
      andThen (build child) fun _ => pure trivial

theorem childRules (hb : s.builders ≤ b) (element : Option TypeId) {steps : Nat → Action Unit}
    (hsteps : ∀ child, Action.StaysIn s (steps child)) :
    Action.StaysIn s (Action.childRules b element steps) :=
  Action.childRules_eq b element steps ▸
    andThen (nestedRules b element hsteps) fun _ => attachTo hb _

/-- A step that goes on with the configuration it is about. -/
theorem goesOn {x : Action Unit} (h : Action.StaysIn s x) (c : Nat) :
    Action.StaysIn s (do x; return c) :=
  andThen h fun _ => pure trivial

end Action.StaysIn

/-! ## 7. Blocks of steps -/

open Action.StaysIn

mutual

/-- A step on a type stays in every area. -/
theorem TypeStep.run_staysIn (step : TypeStep) (c : Nat) : Action.StaysIn s (step.run c) := by
  match step with
  | .check step => exact goesOn (checkStep c step) c
  | .rule sel must message replace => exact goesOn (startRule c sel must message replace) c
  | .builder sel forEach name steps =>
    exact bind (newBuilder c sel forEach name) fun b hb =>
      goesOn (runBuilderSteps_staysIn steps hb) c
  | .gate sel g => exact andThen (startGated c sel) fun _ => goesOn (updateCurrent c _) c
  | .exclude sel => exact goesOn (exclude c sel) c
  | .always sel => exact goesOn (always c sel) c
  | .resource name => exact goesOn (updateConfiguration c fun _ => by rfl) c
  | .culture name => exact andThen (lift _) fun _ => goesOn (updateConfiguration c fun _ => by rfl) c
  | .fallback text => exact goesOn (updateConfiguration c fun _ => by rfl) c
  | .withoutConventionalKeys => exact goesOn (updateConfiguration c fun _ => by rfl) c
  | .enforce on => exact goesOn (updateConfiguration c fun _ => by rfl) c
  | .dropMember sel kind => exact goesOn (dropMember c sel kind) c
  | .keepOnly sel => exact goesOn (keepOnly c sel) c
  | .clear => exact goesOn (clear c) c
  | .switch t => exact andThen (commit c) fun _ => configure t
  | .build =>
    exact andThen (build c) fun rs => andThen (view rs) fun _ => goesOn (report _) c
  | .describe => exact andThen (readConfiguration c) fun _ => goesOn (report _) c

/-- **Steps on a type stay in every area.** -/
theorem runTypeSteps_staysIn (steps : List TypeStep) (c : Nat) :
    Action.StaysIn s (runTypeSteps c steps) := by
  match steps with
  | [] => exact pure trivial
  | step :: rest => exact andThen (step.run_staysIn c) fun c' => runTypeSteps_staysIn rest c'

/-- A step of a builder stays in the area of the builder. -/
theorem BuilderStep.run_staysIn (step : BuilderStep) {b : Nat} (hb : s.builders ≤ b) :
    Action.StaysIn s (step.run b) := by
  match step with
  | .check step => exact builderCheckStep hb step
  | .whenBlock g steps => exact whenBlock hb g (runBuilderSteps_staysIn steps hb)
  | .otherwise steps => exact otherwise hb (runBuilderSteps_staysIn steps hb)
  | .childRules steps element =>
    exact childRules hb element fun child => runTypeSteps_staysIn steps child
  | .rules =>
    exact andThen (readBuilder b) fun x => andThen (view x.rules) fun _ => report _

/-- **Steps of a builder stay in the area of the builder.** -/
theorem runBuilderSteps_staysIn (steps : List BuilderStep) {b : Nat} (hb : s.builders ≤ b) :
    Action.StaysIn s (runBuilderSteps b steps) := by
  match steps with
  | [] => exact pure trivial
  | step :: rest =>
    exact andThen (step.run_staysIn hb) fun _ => runBuilderSteps_staysIn rest hb

end

/-! ## 8. Attaching a check -/

variable {e e' : Engine}

theorem displayName_snd (t : TypeId) (name : String) (e : Engine) :
    ∃ reflected, (Action.displayName t name e).2 = { e with reflected } := by
  unfold Action.displayName
  rw [bind_apply]
  have hmembers : (Action.members t e).2 =
      { e with reflected := (Action.members t e).2.reflected } := rfl
  rcases hm : Action.members t e with ⟨f | ms, e₁⟩ <;> rw [hm] at hmembers
  · exact ⟨_, hmembers⟩
  · cases hfind : ms.find? fun m => m.member.name == name <;> simp only [hfind] <;>
      exact ⟨_, hmembers⟩

/-- Checking an attribute changes nothing. -/
theorem usable_snd (t : TypeId) (a : Except Fault Attribute) (e : Engine) :
    (Action.usable t a e).2 = e := by
  unfold Action.usable
  rw [bind_apply, Action.lift_apply]
  cases a with
  | error f => rfl
  | ok a =>
    have hschema : Action.schema e = (.ok e.world.schema, e) := rfl
    show ((Action.schema >>= _) e).2 = e
    rw [bind_ok hschema, bind_apply, Action.lift_apply]
    cases a.check.requireResolvable e.world.schema t <;> rfl

/-- An attribute that can be used is given as it is. -/
theorem usable_eq_ok {t : TypeId} {a a' : Attribute}
    (h : Action.usable t (.ok a) e = (.ok a', e')) : a' = a ∧ e' = e := by
  have hsame := usable_snd t (.ok a) e
  rw [h] at hsame
  obtain ⟨_, _, hgiven, h⟩ := bind_eq_ok.mp h
  cases hgiven
  obtain ⟨_, _, hschema, h⟩ := bind_eq_ok.mp h
  cases hschema
  obtain ⟨_, _, -, h⟩ := bind_eq_ok.mp h
  cases h
  exact ⟨rfl, hsame⟩

/-- A new rule has a new identity, and no gate. -/
theorem newRule_eq_ok {t : TypeId} {m : MemberRef} {a : Attribute} {forEach : Bool} {r : Rule}
    (h : Action.newRule t m a forEach e = (.ok r, e')) :
    (r.id, r.gate) = (e.nextId, {}) ∧
      ∃ reflected, e' = { e with reflected, nextId := e.nextId + 1 } := by
  obtain ⟨display, e₁, hdisplay, h⟩ := bind_eq_ok.mp h
  obtain ⟨reflected, hkept⟩ := displayName_snd t m.name e
  rw [hdisplay] at hkept
  obtain rfl : e₁ = { e with reflected } := hkept
  obtain ⟨id, e₂, hid, h⟩ := bind_eq_ok.mp h
  cases hid
  cases h
  exact ⟨rfl, reflected, rfl⟩

/-- Attaching a check makes a rule, and adds it to the builder. -/
theorem attachTo_eq_ok {a : Attribute} (h : Action.attachTo b a e = (.ok (), e')) :
    ∃ r reflected, (r.id, r.gate) = (e.nextId, ({} : Gate)) ∧
      e' = { e with reflected, nextId := e.nextId + 1 }.updateBuilder b fun builder =>
        { builder with rules := builder.rules ++ [r] } := by
  obtain ⟨x, e₁, hbuilder, h⟩ := bind_eq_ok.mp h
  cases hbuilder
  obtain ⟨t, e₁, htype, h⟩ := bind_eq_ok.mp h
  cases htype
  obtain ⟨r, e₁, hrule, h⟩ := bind_eq_ok.mp h
  cases h
  obtain ⟨hgate, reflected, rfl⟩ := newRule_eq_ok hrule
  exact ⟨r, reflected, hgate, rfl⟩

/-- What a builder holds after a check has been attached: one rule more, without a gate. -/
theorem held_attachTo {a : Attribute} (hmade : b < e.builders.length)
    (h : Action.attachTo b a e = (.ok (), e')) :
    e'.held b = e.held b ++ [(e.nextId, ({} : Gate))] := by
  obtain ⟨r, reflected, hgate, rfl⟩ := attachTo_eq_ok h
  unfold held
  rw [builder_updateBuilder, if_pos ⟨rfl, hmade⟩, List.map_append, ← hgate]
  rfl

/-! ## 9. What is made for nested values -/

/-- The area of what is made from an engine on. -/
def Engine.newArea (e : Engine) : Area := ⟨e.builders.length, e.nextId⟩

theorem Engine.inArea_newArea (e : Engine) : e.InArea e.newArea where
  builders := le_rfl
  ids := le_rfl
  numbered := by
    intro b hb x hx
    have hnone : e.builders[b]? = none := List.getElem?_eq_none hb
    rw [Engine.held, Engine.builder, hnone] at hx
    cases hx

end MemberRules
