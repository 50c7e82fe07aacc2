/-
# Steps aside

Much of what a configuration step does is to look things up, to make rules that are not held
anywhere yet, and to write to the log.  This changes neither the configurations nor the builders
nor the registry, so it keeps every property of these.  Here this is said once for all such
properties.

* `Engine.SameWork`: engines with the same configurations, builders and registry.
* `Engine.Stable`: a property that such engines share.
* `Engine.Steady`: one that they share if they also list the same configurations.
* `Engine.KeptAside`: one that is kept by what makes rules which are not held anywhere yet, and by what
  is written to the log.  Every steady one is.
* `…_keeps`: the parts of configuration steps that keep every property, or every one that is kept
  aside, and those that keep a property if what they are made of does.
-/
import MemberRules.Proofs.Configuration.Area
import MemberRules.Proofs.Configuration.Parts

namespace MemberRules

open MemberRules.Computation

/-- Two engines with the same configurations, builders and registry. -/
structure Engine.SameWork (e e' : Engine) : Prop where
  configurations : e'.configurations = e.configurations
  builders : e'.builders = e.builders
  registry : e'.registry = e.registry

/-- A property of the configurations, the builders and the registry. -/
class Engine.Stable (I : Engine → Prop) : Prop where
  of_sameWork : ∀ {e e'}, Engine.SameWork e e' → I e → I e'

/-- Two engines that also list the same configurations. -/
structure Engine.SameBooks (e e' : Engine) : Prop extends SameWork e e' where
  configured : e'.configured = e.configured

/-- A property of these and of the configurations that are listed. -/
class Engine.Steady (I : Engine → Prop) : Prop where
  of_sameBooks : ∀ {e e'}, Engine.SameBooks e e' → I e → I e'

/-- A property that is kept when something is noted or reported, when numbers are taken, and when types
are read. -/
class Engine.KeptAside (I : Engine → Prop) : Prop where
  note : ∀ logger name fields, Action.Keeps I (Action.note logger name fields)
  report : ∀ r, Action.Keeps I (Action.report r)
  freshId : Action.Keeps I Action.freshId
  numbered : ∀ rs, Action.Keeps I (Action.numbered rs)
  members : ∀ t, Action.Keeps I (Action.members t)

open Engine

instance (I : Engine → Prop) [Stable I] : Steady I where
  of_sameBooks h he := Stable.of_sameWork h.toSameWork he

instance (e : Engine) : Stable (SameWork e) where
  of_sameWork hsame he := ⟨hsame.configurations.trans he.configurations,
    hsame.builders.trans he.builders, hsame.registry.trans he.registry⟩

theorem Engine.SameWork.configuration {e e' : Engine} (h : SameWork e e') (c : Nat) :
    e'.configuration c = e.configuration c := by
  rw [Engine.configuration, h.configurations, Engine.configuration]

theorem Engine.SameWork.builder {e e' : Engine} (h : SameWork e e') (b : Nat) :
    e'.builder b = e.builder b := by
  rw [Engine.builder, h.builders, Engine.builder]

/-- A rule that says the same in other words. -/
def Rule.Reworded (r r' : Rule) : Prop :=
  r' = { r with message := r'.message, errorKey := r'.errorKey, resourceKey := r'.resourceKey }

/-- A configuration without a member that was started last. -/
def Engine.Settled (c : Nat) (e : Engine) : Prop := (e.configuration c).current = none

instance (c : Nat) : Stable (Settled c) where
  of_sameWork hsame he := by
    unfold Settled
    rwa [hsame.configuration]

namespace Action

variable {α β : Type} {I : Engine → Prop}

/-! ## 1. Steps that only read -/

theorem reads_keep {x : Action α} (h : ∀ e, (x e).2 = e) : Keeps I x := fun e he => by
  refine ⟨?_, fun _ _ => trivial⟩
  rw [h e]
  exact he

theorem schema_keeps : Keeps I schema := reads_keep fun _ => rfl

theorem configuration_keeps (c : Nat) : Keeps I (configuration c) := reads_keep fun _ => rfl

theorem builder_keeps (b : Nat) : Keeps I (builder b) := reads_keep fun _ => rfl

theorem builderType_keeps (b : Nat) : Keeps I (builderType b) := reads_keep fun _ => rfl

theorem select_keeps (t : TypeId) (sel : Selector) : Keeps I (select t sel) := reads_keep fun _ => rfl

theorem hasChecks_keeps (cfg : Configuration) (m : MemberRef) : Keeps I (hasChecks cfg m) :=
  reads_keep fun _ => rfl

theorem refuse_keeps (err : AppError) : Keeps I (refuse err : Action α) := .throw _

theorem view_keeps (rs : List Rule) : Keeps I (view rs) :=
  .get_bind fun e he => (Keeps.mapM (Q := fun _ => True) fun _ _ =>
    .andThen (.lift _) fun _ => .pure trivial).weaken e he

theorem requireCurrent_keeps (c : Nat) (operation : String) : Keeps I (requireCurrent c operation) :=
  .andThen (configuration_keeps c) fun cfg => by
    split
    · exact .pure trivial
    · exact .throw _

theorem usable_keeps (t : TypeId) (a : Except Fault Attribute) : Keeps I (usable t a) :=
  .andThen (.lift _) fun _ => .andThen schema_keeps fun _ => .andThen (.lift _) fun _ =>
    .pure trivial

theorem nestedType_keeps (b : Nat) (element : Option TypeId) : Keeps I (nestedType b element) := by
  refine .andThen (builder_keeps b) fun current => .andThen (builderType_keeps b) fun t =>
    .andThen schema_keeps fun s => ?_
  cases element with
  | some t =>
    exact .andThen (.pure (P := fun _ => True) trivial)
      (.ofOption (.throw _) fun _ => .pure trivial)
  | none =>
    cases current.forEach with
    | true =>
      exact .andThen (.lift _) fun hint => .andThen (.pure (P := fun _ => True) trivial)
        (.ofOption (.throw _) fun _ => .pure trivial)
    | false => exact .andThen (.lift _) (.ofOption (.throw _) fun _ => .pure trivial)

/-! ## 2. Steps aside -/

theorem aside_keeps [Stable I] {x : Action α} (h : ∀ e, SameWork e (x e).2) : Keeps I x :=
  fun e he => ⟨Stable.of_sameWork (h e) he, fun _ _ => trivial⟩

theorem books_keep [Steady I] {x : Action α} (h : ∀ e, SameBooks e (x e).2) : Keeps I x :=
  fun e he => ⟨Steady.of_sameBooks (h e) he, fun _ _ => trivial⟩

instance [Steady I] : KeptAside I where
  note _ _ _ := books_keep fun _ => ⟨⟨rfl, rfl, rfl⟩, rfl⟩
  report _ := books_keep fun _ => ⟨⟨rfl, rfl, rfl⟩, rfl⟩
  freshId := books_keep fun _ => ⟨⟨rfl, rfl, rfl⟩, rfl⟩
  numbered _ := books_keep fun _ => ⟨⟨rfl, rfl, rfl⟩, rfl⟩
  members _ := .andThen schema_keeps fun _ => books_keep fun _ => ⟨⟨rfl, rfl, rfl⟩, rfl⟩

section

variable [KeptAside I]

theorem note_keeps (logger name : String) (fields : Details) : Keeps I (note logger name fields) :=
  KeptAside.note logger name fields

theorem report_keeps (r : Report) : Keeps I (report r) := KeptAside.report r

theorem freshId_keeps : Keeps I freshId := KeptAside.freshId

theorem members_keeps (t : TypeId) : Keeps I (members t) := KeptAside.members t

theorem declaredRules_keeps (t : TypeId) : Keeps I (declaredRules t) :=
  .andThen (members_keeps t) fun _ => .andThen schema_keeps fun _ => .andThen (.lift _) fun _ =>
    .andThen (KeptAside.numbered _) fun _ => .andThen (note_keeps _ _ _) fun _ => .pure trivial

/-! ## 3. Rules that are not held anywhere yet -/

theorem displayName_keeps (t : TypeId) (name : String) : Keeps I (displayName t name) := by
  refine .andThen (members_keeps t) fun ms => ?_
  split <;> exact .pure trivial

theorem newRule_keeps (t : TypeId) (m : MemberRef) (a : Attribute) (forEach : Bool) :
    Keeps I (newRule t m a forEach) :=
  .andThen (displayName_keeps t m.name) fun _ => .andThen freshId_keeps fun _ => .pure trivial

theorem newCarrier_keeps (t : TypeId) (m : MemberRef) (kind : String) :
    Keeps I (newCarrier t m kind) := .andThen freshId_keeps fun _ => .pure trivial

theorem copied_keeps (r : Rule) : Keeps I (copied r) :=
  .andThen freshId_keeps fun _ => .pure trivial

theorem recompleted_keeps (cfg : Configuration) : Keeps I (recompleted cfg) :=
  .get_bind fun e he => (Keeps.mapM (Q := fun _ => True) fun r _ => copied_keeps r).weaken e he

theorem pendingRules_keeps (cfg : Configuration) (p : PendingRule) :
    Keeps I (pendingRules cfg p) := by
  unfold pendingRules
  cases p.checks.isEmpty with
  | true =>
    refine .get_bind fun e he => Keeps.andThen
      (Keeps.mapM (Q := fun _ => True) fun r _ => copied_keeps r).weaken (fun _ => ?_) e he
    exact .andThen (newCarrier_keeps _ _ _) fun _ => .pure trivial
  | false =>
    exact (Keeps.mapM (Q := fun _ => True) fun k _ =>
      .andThen (newRule_keeps _ _ _ _) fun _ => .pure trivial).weaken

/-- Gathering rules changes rules of builders only, which it completes. -/
theorem gather_keeps (cfg : Configuration)
    (hcomplete : ∀ id, Keeps I (modify (Engine.amend id cfg.complete) : Action Unit)) :
    Keeps I (gather cfg) := by
  have hgathered : Keeps I (cfg.pending.mapM (pendingRules cfg)) :=
    (Keeps.mapM (Q := fun _ => True) fun p _ => pendingRules_keeps cfg p).weaken
  have hbuilders : Keeps I (builderRules cfg) := .get_bind fun e he =>
    Keeps.andThen (.forM fun r _ => hcomplete r.id) (fun _ => .pure trivial) e he
  have hproviders : Keeps I (cfg.providers.mapM (providerRule cfg)) :=
    (Keeps.mapM (Q := fun _ => True) fun p _ =>
      .andThen (newCarrier_keeps _ _ _) fun _ => .pure trivial).weaken
  have hafter (again : List Rule) : Keeps I (gatherAfter cfg again) :=
    .andThen hgathered fun _ => .andThen hbuilders fun _ =>
      .andThen hproviders fun _ => .pure trivial
  rw [gather_eq]
  cases cfg.isIdle with
  | true => exact .pure trivial
  | false =>
    cases cfg.settingsChanged with
    | true => exact .andThen (recompleted_keeps cfg) hafter
    | false => exact hafter []

end

/-! ## 4. Steps that are kept by what they are made of -/

/-- Putting a member away keeps what adding it to those that were put away before keeps. -/
theorem putAway_keeps {c : Nat} {cfg : Configuration} {p : PendingRule}
    (h : Keeps I (updateConfiguration c fun cfg => { cfg with pending := cfg.pending ++ [p] })) :
    Keeps I (putAway c cfg p) := by
  unfold putAway
  split
  · refine .andThen (hasChecks_keeps cfg p.member) fun found => ?_
    cases found with
    | false => exact .andThen (.throw (P := fun _ => True) _) fun _ => h
    | true => exact h
  · exact h

/-- Putting away the member that was started last, where it does not matter whether there is one. -/
theorem commit_keeps {c : Nat}
    (hclear : Keeps I (updateConfiguration c fun cfg => { cfg with current := none }))
    (hput : ∀ p, Keeps I (updateConfiguration c fun cfg => { cfg with pending := cfg.pending ++ [p] })) :
    Keeps I (commit c) := by
  refine .andThen (configuration_keeps c) fun cfg => ?_
  cases cfg.current with
  | none => exact .pure trivial
  | some p =>
    have hlast : Keeps I (putAway c cfg p) := putAway_keeps (hput p)
    exact .andThen hclear fun _ => hlast

/-- Setting a value provider keeps what adding it to those of the configuration keeps. -/
theorem provide_keeps {c : Nat} {m : MemberRef} {x : Expr}
    (hset : Keeps I (updateConfiguration c fun cfg =>
      { cfg with providers := cfg.providers ++ [(m, x)] })) : Keeps I (provide c m x) := by
  have hlast : Keeps I (do
      if !m.isWritable (← schema) then refuse (AppError.unwritable m)
      updateConfiguration c fun cfg => { cfg with providers := cfg.providers ++ [(m, x)] }) := by
    refine .andThen schema_keeps fun _ => ?_
    split
    · exact .andThen (refuse_keeps _) fun _ => hset
    · exact hset
  refine .andThen (configuration_keeps c) fun cfg => .get_bind fun e he => ?_
  dsimp only
  split
  · exact Keeps.andThen (refuse_keeps _) (fun _ => hlast) e he
  · exact hlast e he

/-- A step on the member that was started last changes this member, or sets its value provider. -/
theorem checkStep_keeps {c : Nat} (hupdate : ∀ f, Keeps I (updateCurrent c f))
    (hprovide : ∀ m x, Keeps I (provide c m x)) (step : CheckStep) : Keeps I (checkStep c step) := by
  cases step with
  | attach a =>
    exact .andThen (configuration_keeps c) fun _ => .andThen (usable_keeps _ a) fun _ =>
      .andThen (requireCurrent_keeps c _) fun _ => hupdate _
  | message m => exact .andThen (requireCurrent_keeps c _) fun _ => hupdate _
  | code key => exact .andThen (requireCurrent_keeps c _) fun _ => hupdate _
  | resourceKey key => exact .andThen (requireCurrent_keeps c _) fun _ => hupdate _
  | provide x => exact .andThen (requireCurrent_keeps c _) fun _ => hprovide _ x

/-- A builder may amend the rule that it attached last, if there is one. -/
theorem amendLast_keeps {b : Nat} {operation : String} {f : Rule → Rule}
    (hamend : ∀ id, Keeps I (modify (Engine.amend id f) : Action Unit)) :
    Keeps I (amendLast b operation f) := by
  refine .andThen (builder_keeps b) fun current => ?_
  split
  · exact hamend _
  · exact refuse_keeps _

/-- A step of a builder attaches a check, rewords the rule that was attached last, or sets a value
provider. -/
theorem builderCheckStep_keeps {b : Nat} (hattach : ∀ a, Keeps I (attachTo b a))
    (hamend : ∀ id {f : Rule → Rule}, (∀ r : Rule, r.Reworded (f r)) →
      Keeps I (modify (Engine.amend id f) : Action Unit))
    (hprovide : ∀ c m x, Keeps I (provide c m x)) (step : CheckStep) :
    Keeps I (builderCheckStep b step) := by
  cases step with
  | attach a =>
    exact .andThen (builderType_keeps b) fun _ => .andThen (usable_keeps _ a) fun _ => hattach _
  | message m => exact amendLast_keeps fun id => hamend id fun _ => rfl
  | code key => exact amendLast_keeps fun id => hamend id fun _ => rfl
  | resourceKey key => exact amendLast_keeps fun id => hamend id fun _ => rfl
  | provide x => exact .andThen (builder_keeps b) fun _ => hprovide _ _ x

/-- Registering the declared rules of types keeps what adding those of a type keeps that is not
known. -/
theorem ensureWithin_keeps_of [KeptAside I]
    (hadd : ∀ {t : TypeId} {rs : List Rule} {e e' : Engine}, I e → declaredRules t e = (.ok rs, e') →
      SameWork e e' → e.registry.knows t = false → I e' → I (addRules t rs true e').2)
    (depth : Nat) (t : TypeId) : Keeps I (ensureWithin depth t) := by
  induction depth generalizing t with
  | zero => exact .throw _
  | succ depth ih =>
    refine .get_bind fun e he => ?_
    cases hknown : e.registry.knows t with
    | true => exact Keeps.pure (P := fun _ => True) trivial e he
    | false =>
      simp only [Bool.false_eq_true, if_false]
      have hderived := (declaredRules_keeps t e he).1
      have hsame := (declaredRules_keeps (I := SameWork e) t e ⟨rfl, rfl, rfl⟩).1
      unfold KeepsFrom
      rcases hrun : declaredRules t e with ⟨f | rs, e'⟩ <;> rw [hrun] at hderived hsame
      · rw [bind_error hrun]
        exact ⟨hderived, fun _ h => by cases h⟩
      · rw [bind_ok hrun]
        exact KeepsFrom.bind (P := fun _ => True)
          ⟨hadd he hrun hsame hknown hderived, fun _ _ => trivial⟩ fun _ _ => .forM fun u _ => ih u

/-- Removing rules keeps what taking them from the registry keeps. -/
theorem removeRules_keeps_of [KeptAside I] {t : TypeId} {member : Option MemberRef}
    {doomed : Rule → Bool} (hremove : Keeps I (updateRegistry fun reg =>
      reg.removeWhere t (member.map MemberRef.key) doomed)) :
    Keeps I (removeRules t member doomed) := by
  have hnoted : ∀ count, Keeps I (noteRemoved t member count) := fun count => by
    unfold noteRemoved
    split
    · exact .pure trivial
    · exact note_keeps _ _ _
  exact .get_bind fun e he => Keeps.andThen hremove
    (fun _ => .andThen (hnoted _) fun _ => .pure trivial) e he

/-- A type that has a configuration already gets no other one. -/
theorem configure_keeps_of {t : TypeId} (hmake : Keeps I (newConfiguration t))
    (hlist : ∀ c, Keeps I (modify fun e => { e with configured := e.configured ++ [(t, c)] } :
      Action Unit)) : Keeps I (configure t) := by
  refine .get_bind fun e he => ?_
  cases e.configured.lookup t with
  | some c => exact Keeps.pure (P := fun _ => True) trivial e he
  | none => exact Keeps.andThen hmake (fun c => .andThen (hlist c) fun _ => .pure trivial) e he

/-- A gate is for a member that goes on or for one that is started. -/
theorem startGated_keeps {c : Nat} {sel : Option Selector}
    (hgoes : Keeps I (updateCurrent c fun p => { p with conditioned := true }))
    (htouch : Keeps I (touch c))
    (hstart : ∀ m : MemberRef, Keeps I (do
      commit c
      start c { member := m, conditioned := true })) : Keeps I (startGated c sel) := by
  cases sel with
  | none =>
    refine .andThen (configuration_keeps c) fun cfg => ?_
    cases cfg.current.isNone with
    | true => exact .andThen (refuse_keeps _) fun _ => hgoes
    | false => exact hgoes
  | some sel =>
    refine .andThen htouch fun _ => .andThen (configuration_keeps c) fun _ =>
      .andThen (select_keeps _ sel) fun m => .andThen (configuration_keeps c) fun cfg => ?_
    cases cfg.current.any fun p => !p.checks.isEmpty && p.member.key == m.key with
    | true => exact hgoes
    | false => exact hstart m

/-! ## 5. Putting a member away -/

/-- Putting away the member that was started last leaves none. -/
theorem settled_of_commit {c : Nat} {e e' : Engine} (h : commit c e = (.ok (), e')) :
    e'.Settled c := by
  cases hcurrent : (e.configuration c).current with
  | none =>
    rw [commit_of_current_eq_none hcurrent] at h
    cases h
    exact hcurrent
  | some p =>
    rw [commit_of_current_eq_some hcurrent] at h
    have hnone : (e.updateConfiguration c fun cfg => { cfg with current := none }).Settled c := by
      unfold Settled
      rcases updateConfiguration_self_or_default e c _ with heq | ⟨-, heq⟩ <;> rw [heq]
      rfl
    have hput : Keeps (Settled c) (putAway c (e.configuration c) p) := by
      refine putAway_keeps (.change fun e he => ?_)
      unfold Settled
      rcases configuration_updateConfiguration (e := e) c c _ with heq | heq <;> rw [heq] <;>
        exact he
    have hkept := (hput _ hnone).1
    rwa [h] at hkept

end Action
end MemberRules
