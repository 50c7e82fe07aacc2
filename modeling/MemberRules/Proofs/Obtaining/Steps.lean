/-
# Configuration steps and the validators obtained

Which validators have been obtained makes no difference to configuring rules.  No configuration step
looks there, and none makes a type unknown that was known: rules may be dropped, but the type stays.

* `build_obtained`, `configure_obtained`: starting and building a configuration.
* `runTypeSteps_obtained`, `runBuilderSteps_obtained`: blocks of steps.
* `configureUntilFault_obtained`: steps up to the first that fails.
-/
import MemberRules.Proofs.Configuration.Parts
import MemberRules.Proofs.Obtaining.Obtained

namespace MemberRules

open MemberRules.Computation
open Engine (Obtained)

namespace Action

variable {α : Type} {S : Set TypeId} {c b : Nat}

/-! ## 1. Parts of a configuration -/

theorem configuration_obtained (c : Nat) : Respects (Obtained S) (configuration c) :=
  aside_obtained (fun _ _ => rfl) fun _ => rfl

theorem updateConfiguration_obtained (c : Nat) (f : Configuration → Configuration) :
    Respects (Obtained S) (updateConfiguration c f) := modify_obtained (fun _ _ => rfl) fun _ => rfl

theorem updateCurrent_obtained (c : Nat) (f : PendingRule → PendingRule) :
    Respects (Obtained S) (updateCurrent c f) := updateConfiguration_obtained c _

theorem start_obtained (c : Nat) (p : PendingRule) : Respects (Obtained S) (start c p) :=
  updateConfiguration_obtained c _

theorem builder_obtained (b : Nat) : Respects (Obtained S) (builder b) :=
  aside_obtained (fun _ _ => rfl) fun _ => rfl

theorem updateBuilder_obtained (b : Nat) (f : Builder → Builder) :
    Respects (Obtained S) (modify (Engine.updateBuilder b f) : Action Unit) :=
  modify_obtained (fun _ _ => rfl) fun _ => rfl

theorem amend_obtained (id : Nat) (f : Rule → Rule) :
    Respects (Obtained S) (modify (Engine.amend id f) : Action Unit) :=
  change_obtained (fun _ _ => rfl) fun e t h => Registry.retains_amend id f e.registry t h

theorem touch_obtained (c : Nat) : Respects (Obtained S) (touch c) :=
  .bind (configuration_obtained c) fun cfg =>
    updateRegistry_obtained (Registry.retains_mark cfg.type false)

theorem hasChecks_obtained (cfg : Configuration) (m : MemberRef) :
    Respects (Obtained S) (hasChecks cfg m) := aside_obtained (fun _ _ => rfl) fun _ => rfl

theorem putAway_obtained (c : Nat) (cfg : Configuration) (p : PendingRule) :
    Respects (Obtained S) (putAway c cfg p) := by
  unfold putAway
  split
  · refine .bind (hasChecks_obtained cfg _) fun found => ?_
    cases found with
    | false => exact .bind (.throw _) fun _ => updateConfiguration_obtained c _
    | true => exact updateConfiguration_obtained c _
  · exact updateConfiguration_obtained c _

theorem commit_obtained (c : Nat) : Respects (Obtained S) (commit c) := by
  refine .bind (configuration_obtained c) fun cfg => ?_
  cases cfg.current with
  | none => exact .pure _
  | some p =>
    have hput : Respects (Obtained S) (putAway c cfg p) := putAway_obtained c cfg p
    exact .bind (updateConfiguration_obtained c _) fun _ => hput

theorem begin_obtained (c : Nat) (sel : Selector) : Respects (Obtained S) (begin c sel) :=
  .bind (commit_obtained c) fun _ => .bind (touch_obtained c) fun _ =>
    .bind (configuration_obtained c) fun _ => select_obtained _ sel

theorem displayName_obtained (t : TypeId) (name : String) :
    Respects (Obtained S) (displayName t name) := by
  refine .bind (members_obtained t) fun _ => ?_
  split <;> exact .pure _

theorem newRule_obtained (t : TypeId) (m : MemberRef) (a : Attribute) (forEach : Bool) :
    Respects (Obtained S) (newRule t m a forEach) :=
  .bind (displayName_obtained t m.name) fun _ => .bind freshId_obtained fun _ => .pure _

theorem newCarrier_obtained (t : TypeId) (m : MemberRef) (kind : String) :
    Respects (Obtained S) (newCarrier t m kind) := .bind freshId_obtained fun _ => .pure _

theorem copied_obtained (r : Rule) : Respects (Obtained S) (copied r) :=
  .bind freshId_obtained fun _ => .pure _

theorem usable_obtained (t : TypeId) (a : Except Fault Attribute) :
    Respects (Obtained S) (usable t a) :=
  .bind (.lift _) fun _ => .bind schema_obtained fun _ => .bind (.lift _) fun _ => .pure _

theorem provide_obtained (c : Nat) (m : MemberRef) (x : Expr) :
    Respects (Obtained S) (provide c m x) := by
  have hlast : Respects (Obtained S) (do
      if !m.isWritable (← schema) then refuse (AppError.unwritable m)
      updateConfiguration c fun cfg => { cfg with providers := cfg.providers ++ [(m, x)] }) := by
    refine .bind schema_obtained fun _ => ?_
    split
    · exact .bind (.throw _) fun _ => updateConfiguration_obtained c _
    · exact updateConfiguration_obtained c _
  refine .bind (configuration_obtained c) fun cfg => look_obtained (fun _ _ => rfl) fun e => ?_
  dsimp only
  split
  · exact .bind (.throw _) fun _ => hlast
  · exact hlast

/-! ## 2. Starting a configuration -/

theorem newConfiguration_obtained (t : TypeId) : Respects (Obtained S) (newConfiguration t) :=
  .bind (ensure_obtained t) fun _ => look_obtained (fun _ _ => rfl) fun _ =>
    .bind (modify_obtained (fun _ _ => rfl) fun _ => rfl) fun _ => .pure _

theorem newChild_obtained (c : Nat) (t : TypeId) : Respects (Obtained S) (newChild c t) :=
  .bind (newConfiguration_obtained t) fun child => .bind (configuration_obtained c) fun _ =>
    .bind (updateConfiguration_obtained child _) fun _ => .pure _

/-- **Starting a configuration respects the validators obtained.** -/
theorem configure_obtained (t : TypeId) : Respects (Obtained S) (configure t) := by
  refine look_obtained (fun _ _ => rfl) fun e => ?_
  cases e.configured.lookup t with
  | some c => exact .pure _
  | none =>
    exact .bind (newConfiguration_obtained t) fun _ =>
      .bind (modify_obtained (fun _ _ => rfl) fun _ => rfl) fun _ => .pure _

/-! ## 3. Steps on a type -/

theorem requireCurrent_obtained (c : Nat) (operation : String) :
    Respects (Obtained S) (requireCurrent c operation) := by
  refine .bind (configuration_obtained c) fun cfg => ?_
  split
  · exact .pure _
  · exact .throw _

theorem attach_obtained (c : Nat) (a : Attribute) : Respects (Obtained S) (attach c a) :=
  .bind (requireCurrent_obtained c _) fun _ => updateCurrent_obtained c _

theorem checkStep_obtained (c : Nat) (step : CheckStep) :
    Respects (Obtained S) (checkStep c step) := by
  cases step with
  | attach a =>
    exact .bind (configuration_obtained c) fun _ => .bind (usable_obtained _ a) fun _ =>
      attach_obtained c _
  | message m => exact .bind (requireCurrent_obtained c _) fun _ => updateCurrent_obtained c _
  | code key => exact .bind (requireCurrent_obtained c _) fun _ => updateCurrent_obtained c _
  | resourceKey key => exact .bind (requireCurrent_obtained c _) fun _ => updateCurrent_obtained c _
  | provide x => exact .bind (requireCurrent_obtained c _) fun _ => provide_obtained c _ x

theorem drop_obtained (c : Nat) (m : MemberRef) : Respects (Obtained S) (drop c m) :=
  .bind (configuration_obtained c) fun _ => .bind (removeRules_obtained _ _ _) fun _ =>
    updateConfiguration_obtained c _

theorem furnish_obtained (c : Nat) (must : Option Expr) (message : Option MessageSource) :
    Respects (Obtained S) (furnish c must message) := by
  refine .bind ?_ fun _ => ?_
  · cases must with
    | none => exact .pure _
    | some x => exact attach_obtained c _
  · cases message with
    | none => exact .pure _
    | some s => exact checkStep_obtained c (.message (some s))

theorem startRule_obtained (c : Nat) (sel : Selector) (must : Option Expr)
    (message : Option MessageSource) (replace : Bool) :
    Respects (Obtained S) (startRule c sel must message replace) := by
  have hlast : ∀ m, Respects (Obtained S) (do
      start c { member := m }
      furnish c must message) := fun m =>
    .bind (start_obtained c _) fun _ => furnish_obtained c must message
  rw [startRule_eq]
  refine .bind (begin_obtained c sel) fun m => ?_
  cases replace with
  | true => exact .bind (drop_obtained c m) fun _ => hlast m
  | false => exact hlast m

theorem newBuilder_obtained (c : Nat) (sel : Selector) (forEach : Bool) (name : Option String) :
    Respects (Obtained S) (newBuilder c sel forEach name) :=
  .bind (begin_obtained c sel) fun _ => look_obtained (fun _ _ => rfl) fun _ =>
    .bind (modify_obtained (fun _ _ => rfl) fun _ => rfl) fun _ =>
    .bind (updateConfiguration_obtained c _) fun _ => .pure _

theorem startGated_obtained (c : Nat) (sel : Option Selector) :
    Respects (Obtained S) (startGated c sel) := by
  cases sel with
  | none =>
    refine .bind (configuration_obtained c) fun cfg => ?_
    cases cfg.current.isNone with
    | true => exact .bind (.throw _) fun _ => updateCurrent_obtained c _
    | false => exact updateCurrent_obtained c _
  | some sel =>
    refine .bind (touch_obtained c) fun _ => .bind (configuration_obtained c) fun _ =>
      .bind (select_obtained _ sel) fun m => .bind (configuration_obtained c) fun cfg => ?_
    cases cfg.current.any fun p => !p.checks.isEmpty && p.member.key == m.key with
    | true => exact updateCurrent_obtained c _
    | false => exact .bind (commit_obtained c) fun _ => start_obtained c _

theorem exclude_obtained (c : Nat) (sel : Selector) : Respects (Obtained S) (exclude c sel) :=
  .bind (begin_obtained c sel) fun m => .bind (drop_obtained c m) fun _ =>
    look_obtained (fun _ _ => rfl) fun _ => .bind (updateConfiguration_obtained c _) fun _ =>
      start_obtained c _

theorem always_obtained (c : Nat) (sel : Selector) : Respects (Obtained S) (always c sel) :=
  .bind (begin_obtained c sel) fun _ => start_obtained c _

theorem dropMember_obtained (c : Nat) (sel : Selector) (kind : Option String) :
    Respects (Obtained S) (dropMember c sel kind) :=
  .bind (begin_obtained c sel) fun _ => .bind (touch_obtained c) fun _ =>
    .bind (configuration_obtained c) fun _ => .bind (removeRules_obtained _ _ _) fun _ =>
    .bind (updateConfiguration_obtained c _) fun _ => .forM fun b =>
      updateBuilder_obtained b _

theorem keepOnly_obtained (c : Nat) (sel : Selector) : Respects (Obtained S) (keepOnly c sel) :=
  .bind (begin_obtained c sel) fun _ => .bind (touch_obtained c) fun _ =>
    .bind (configuration_obtained c) fun _ => .bind (removeRules_obtained _ _ _) fun _ =>
    look_obtained (fun _ _ => rfl) fun _ => updateConfiguration_obtained c _

theorem clear_obtained (c : Nat) : Respects (Obtained S) (clear c) :=
  .bind (commit_obtained c) fun _ => .bind (touch_obtained c) fun _ =>
    .bind (configuration_obtained c) fun _ => .bind (removeRules_obtained _ _ _) fun _ =>
    updateConfiguration_obtained c _

/-! ## 4. Building -/

theorem pendingRules_obtained (cfg : Configuration) (p : PendingRule) :
    Respects (Obtained S) (pendingRules cfg p) := by
  unfold pendingRules
  split
  · exact look_obtained (fun _ _ => rfl) fun _ => .bind (.mapM copied_obtained) fun _ =>
      .bind (newCarrier_obtained _ _ _) fun _ => .pure _
  · exact .mapM fun _ => .bind (newRule_obtained _ _ _ _) fun _ => .pure _

theorem recompleted_obtained (cfg : Configuration) : Respects (Obtained S) (recompleted cfg) :=
  look_obtained (fun _ _ => rfl) fun _ => .mapM copied_obtained

theorem builderRules_obtained (cfg : Configuration) : Respects (Obtained S) (builderRules cfg) :=
  look_obtained (fun _ _ => rfl) fun _ => .bind (.forM fun r => amend_obtained r.id _)
    fun _ => .pure _

theorem providerRule_obtained (cfg : Configuration) (p : MemberRef × Expr) :
    Respects (Obtained S) (providerRule cfg p) :=
  .bind (newCarrier_obtained _ _ _) fun _ => .pure _

theorem gatherAfter_obtained (cfg : Configuration) (again : List Rule) :
    Respects (Obtained S) (gatherAfter cfg again) :=
  .bind (.mapM (pendingRules_obtained cfg)) fun _ => .bind (builderRules_obtained cfg)
    fun _ => .bind (.mapM (providerRule_obtained cfg)) fun _ => .pure _

theorem gather_obtained (cfg : Configuration) : Respects (Obtained S) (gather cfg) := by
  rw [gather_eq]
  cases cfg.isIdle with
  | true => exact .pure _
  | false =>
    cases cfg.settingsChanged with
    | true => exact .bind (recompleted_obtained cfg) fun again => gatherAfter_obtained cfg again
    | false => exact gatherAfter_obtained cfg []

theorem finish_obtained (c : Nat) (cfg : Configuration) (rs : List Rule) :
    Respects (Obtained S) (finish c cfg rs) :=
  .bind (addRules_obtained _ _ _) fun _ => .bind (note_obtained _ _ _) fun _ =>
    .bind (updateConfiguration_obtained c _) fun _ => .pure _

/-- **Building respects the validators obtained.** -/
theorem build_obtained (c : Nat) : Respects (Obtained S) (build c) := by
  rw [build_eq]
  refine .bind (commit_obtained c) fun _ => .bind (configuration_obtained c) fun cfg => ?_
  cases cfg.isIdle with
  | true =>
    exact .bind (updateRegistry_obtained (Registry.retains_mark cfg.type true)) fun _ => .pure _
  | false => exact .bind (gather_obtained cfg) fun rs => finish_obtained c cfg rs

/-- **So does building all types.** -/
theorem buildAll_obtained : Respects (Obtained S) buildAll :=
  look_obtained (fun _ _ => rfl) fun _ => .forM fun x =>
    .bind (build_obtained x.2) fun _ => .pure _

/-! ## 5. Steps of a builder -/

theorem builderType_obtained (b : Nat) : Respects (Obtained S) (builderType b) :=
  .bind (builder_obtained b) fun _ => .bind (configuration_obtained _) fun _ => .pure _

theorem attachTo_obtained (b : Nat) (a : Attribute) : Respects (Obtained S) (attachTo b a) :=
  .bind (builder_obtained b) fun _ => .bind (builderType_obtained b) fun t =>
    .bind (newRule_obtained t _ a _) fun _ => updateBuilder_obtained b _

theorem amendLast_obtained (b : Nat) (operation : String) (f : Rule → Rule) :
    Respects (Obtained S) (amendLast b operation f) := by
  refine .bind (builder_obtained b) fun x => ?_
  cases x.rules.getLast? with
  | none => exact .throw _
  | some r => exact amend_obtained r.id f

theorem builderCheckStep_obtained (b : Nat) (step : CheckStep) :
    Respects (Obtained S) (builderCheckStep b step) := by
  cases step with
  | attach a =>
    exact .bind (builderType_obtained b) fun _ => .bind (usable_obtained _ a) fun _ =>
      attachTo_obtained b _
  | message m => exact amendLast_obtained b _ _
  | code key => exact amendLast_obtained b _ _
  | resourceKey key => exact amendLast_obtained b _ _
  | provide x => exact .bind (builder_obtained b) fun _ => provide_obtained _ _ x

theorem block_obtained (b : Nat) {steps : Action Unit} (hsteps : Respects (Obtained S) steps) :
    Respects (Obtained S) (block b steps) :=
  .bind (builder_obtained b) fun _ => .bind hsteps fun _ => .bind (builder_obtained b) fun _ =>
    .pure _

theorem guardRules_obtained (g : Guard) (rs : List Rule) :
    Respects (Obtained S) (guardRules g rs) := .forM fun r => amend_obtained r.id _

theorem whenBlock_obtained (b : Nat) (g : Guard) {steps : Action Unit}
    (hsteps : Respects (Obtained S) steps) : Respects (Obtained S) (whenBlock b g steps) := by
  refine .bind (block_obtained b hsteps) fun added => ?_
  have hlast := Respects.bind (guardRules_obtained (S := S) g added) fun _ =>
    updateBuilder_obtained b fun builder => { builder with lastGuard := some g }
  cases added.isEmpty with
  | true => exact .bind (builder_obtained b) fun _ => .bind (.throw _) fun _ => hlast
  | false => exact hlast

theorem otherwise_obtained (b : Nat) {steps : Action Unit} (hsteps : Respects (Obtained S) steps) :
    Respects (Obtained S) (otherwise b steps) := by
  refine .bind (builder_obtained b) fun x => ?_
  cases x.lastGuard with
  | none => exact .throw _
  | some g =>
    exact .bind (block_obtained b hsteps) fun added =>
      .bind (guardRules_obtained g.negate added) fun _ => updateBuilder_obtained b _

theorem nestedType_obtained (b : Nat) (element : Option TypeId) :
    Respects (Obtained S) (nestedType b element) := by
  refine .bind (builder_obtained b) fun x => .bind (builderType_obtained b) fun t =>
    .bind schema_obtained fun s => ?_
  cases element with
  | some t => exact .bind (.pure _) (.ofOption (.throw _) fun _ => .pure _)
  | none =>
    cases x.forEach with
    | true =>
      exact .bind (.lift _) fun hint => .bind (.pure _) (.ofOption (.throw _) fun _ => .pure _)
    | false => exact .bind (.lift _) (.ofOption (.throw _) fun _ => .pure _)

theorem childRules_obtained (b : Nat) (element : Option TypeId) {steps : Nat → Action Unit}
    (hsteps : ∀ child, Respects (Obtained S) (steps child)) :
    Respects (Obtained S) (childRules b element steps) :=
  .bind (nestedType_obtained b element) fun t => .bind (builder_obtained b) fun x =>
    .bind (newChild_obtained x.owner t) fun child => .bind (hsteps child) fun _ =>
      .bind (build_obtained child) fun _ => attachTo_obtained b _

/-- A step that goes on with the configuration it is about. -/
theorem goesOn_obtained {x : Action Unit} (h : Respects (Obtained S) x) (c : Nat) :
    Respects (Obtained S) (do x; return c) := .bind h fun _ => .pure _

end Action

/-! ## 6. Blocks of steps -/

open Action

variable {S : Set TypeId}

mutual

/-- A step on a type respects the validators obtained. -/
theorem TypeStep.run_obtained (step : TypeStep) (c : Nat) :
    Action.Respects (Obtained S) (step.run c) := by
  match step with
  | .check step => exact goesOn_obtained (checkStep_obtained c step) c
  | .rule sel must message replace =>
    exact goesOn_obtained (startRule_obtained c sel must message replace) c
  | .builder sel forEach name steps =>
    exact .bind (newBuilder_obtained c sel forEach name) fun b =>
      goesOn_obtained (runBuilderSteps_obtained steps b) c
  | .gate sel g =>
    exact .bind (startGated_obtained c sel) fun _ => goesOn_obtained (updateCurrent_obtained c _) c
  | .exclude sel => exact goesOn_obtained (exclude_obtained c sel) c
  | .always sel => exact goesOn_obtained (always_obtained c sel) c
  | .resource name => exact goesOn_obtained (updateConfiguration_obtained c _) c
  | .culture name =>
    exact .bind (.lift _) fun _ => goesOn_obtained (updateConfiguration_obtained c _) c
  | .fallback text => exact goesOn_obtained (updateConfiguration_obtained c _) c
  | .withoutConventionalKeys => exact goesOn_obtained (updateConfiguration_obtained c _) c
  | .enforce on => exact goesOn_obtained (updateConfiguration_obtained c _) c
  | .dropMember sel kind => exact goesOn_obtained (dropMember_obtained c sel kind) c
  | .keepOnly sel => exact goesOn_obtained (keepOnly_obtained c sel) c
  | .clear => exact goesOn_obtained (clear_obtained c) c
  | .switch t => exact .bind (commit_obtained c) fun _ => configure_obtained t
  | .build =>
    exact .bind (build_obtained c) fun rs => .bind (view_obtained rs) fun _ =>
      goesOn_obtained (report_obtained _) c
  | .describe => exact .bind (configuration_obtained c) fun _ => goesOn_obtained (report_obtained _) c

/-- **Steps on a type respect the validators obtained.** -/
theorem runTypeSteps_obtained (steps : List TypeStep) (c : Nat) :
    Action.Respects (Obtained S) (runTypeSteps c steps) := by
  match steps with
  | [] => exact .pure _
  | step :: rest => exact .bind (step.run_obtained c) fun c' => runTypeSteps_obtained rest c'

/-- A step of a builder respects the validators obtained. -/
theorem BuilderStep.run_obtained (step : BuilderStep) (b : Nat) :
    Action.Respects (Obtained S) (step.run b) := by
  match step with
  | .check step => exact builderCheckStep_obtained b step
  | .whenBlock g steps => exact whenBlock_obtained b g (runBuilderSteps_obtained steps b)
  | .otherwise steps => exact otherwise_obtained b (runBuilderSteps_obtained steps b)
  | .childRules steps element =>
    exact childRules_obtained b element fun child => runTypeSteps_obtained steps child
  | .rules =>
    exact .bind (builder_obtained b) fun x => .bind (view_obtained x.rules) fun _ =>
      report_obtained _

/-- **Steps of a builder respect the validators obtained.** -/
theorem runBuilderSteps_obtained (steps : List BuilderStep) (b : Nat) :
    Action.Respects (Obtained S) (runBuilderSteps b steps) := by
  match steps with
  | [] => exact .pure _
  | step :: rest => exact .bind (step.run_obtained b) fun _ => runBuilderSteps_obtained rest b

end

/-- **Steps up to the first that fails respect the validators obtained**: the same step fails, in the
same way. -/
theorem configureUntilFault_obtained (steps : List TypeStep) (c place : Nat) :
    Action.Respects (Obtained S) (configureUntilFault c place steps) := by
  induction steps generalizing c place with
  | nil => exact .pure _
  | cons step rest ih =>
    intro e e' he
    obtain ⟨hresult, hleft⟩ := step.run_obtained c e e' he
    unfold configureUntilFault
    rcases hrun : step.run c e with ⟨f | next, e₁⟩ <;>
      rcases hrun' : step.run c e' with ⟨f' | next', e₁'⟩ <;>
      rw [hrun, hrun'] at hresult hleft <;> cases hresult
    · exact ⟨rfl, hleft⟩
    · exact ih next (place + 1) e₁ e₁' hleft

end MemberRules
