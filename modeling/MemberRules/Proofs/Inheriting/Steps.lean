/-
# Steps that are blind to settings

A configuration step looks at members, checks and gates, but not at settings for all rules, and it
changes rules without looking at theirs.  So from two engines that differ in hidden settings only,
it leaves such.  A block of nested rules is the exception: its configuration takes the settings
around it.  So it is hidden itself, or the settings around it must not be.

* `…_veiled`: the parts of the steps, and the steps.
* `newChild_veiled`: the configuration of a block of nested rules.
-/
import MemberRules.Proofs.Inheriting.Veiled

namespace MemberRules

open MemberRules.Computation Engine

variable {α : Type} {K : List SettingKind} {H L : Set Nat} {b c : Nat} {e e' : Engine}

theorem Engine.getElem?_builders (e : Engine) (b : Nat) :
    e.builders[b]? = if b < e.builders.length then some (e.builder b) else none := by
  unfold Engine.builder
  split
  · rename_i hlt
    rw [List.getElem?_eq_getElem hlt]
    rfl
  · exact List.getElem?_eq_none (by omega)

/-- The builders of a configuration are the same, but for the settings of their rules. -/
theorem Engine.Veiled.buildersOf (h : e.Veiled K H L e') (cfg : Configuration) :
    (e'.buildersOf cfg).map (fun x => (x.1, x.2.bare K)) =
      (e.buildersOf cfg).map fun x => (x.1, x.2.bare K) := by
  unfold Engine.buildersOf
  rw [List.map_filterMap, List.map_filterMap]
  refine List.filterMap_congr fun b _ => ?_
  rw [getElem?_builders, getElem?_builders, h.size]
  split
  · exact congrArg (fun x => some (b, x)) (h.builder b).bare
  · rfl

namespace Action

/-! ## 1. Parts of the engine -/

theorem schema_veiled : Respects (Veiled K H L) schema := aside_veiled fun _ => rfl

theorem note_veiled (logger name : String) (fields : Details) :
    Respects (Veiled K H L) (note logger name fields) := aside_veiled fun _ => rfl

theorem freshId_veiled : Respects (Veiled K H L) freshId := aside_veiled fun _ => rfl

theorem members_veiled (t : TypeId) : Respects (Veiled K H L) (members t) :=
  .bind schema_veiled fun _ => aside_veiled fun _ => rfl

theorem select_veiled (t : TypeId) (sel : Selector) : Respects (Veiled K H L) (select t sel) :=
  aside_veiled fun _ => rfl

theorem mark_veiled (t : TypeId) (built : Bool) :
    Respects (Veiled K H L) (updateRegistry fun reg => reg.mark t built) :=
  .change fun _ _ he => he.updateRegistry (he.registry.mark t built)

theorem removeRules_veiled (t : TypeId) (member : Option MemberRef) {doomed : Rule → Bool}
    (hdoomed : ∀ r : Rule, doomed (r.bare K) = doomed r) :
    Respects (Veiled K H L) (removeRules t member doomed) := by
  have hnote : ∀ count, Respects (Veiled K H L) (noteRemoved t member count) := fun count => by
    unfold noteRemoved
    split
    · exact .pure _
    · exact note_veiled _ _ _
  have hremove : Respects (Veiled K H L) (updateRegistry fun reg =>
      reg.removeWhere t (member.map MemberRef.key) doomed) :=
    .change fun _ _ he => he.updateRegistry (he.registry.removeWhere t _ hdoomed)
  refine .get_bind fun e e' he => ?_
  rw [he.registry.countWhere t _ hdoomed]
  exact Respects.bind hremove (fun _ => .bind (hnote _) fun _ => .pure _) e e' he

theorem declaredRules_veiled (t : TypeId) : Respects (Veiled K H L) (declaredRules t) :=
  .bind (members_veiled t) fun _ => .bind schema_veiled fun _ => .bind (.lift _) fun _ =>
    .bind (aside_veiled fun _ => rfl) fun _ => .bind (note_veiled _ _ _) fun _ => .pure _

theorem addRules_veiled (t : TypeId) (rs : List Rule) : Respects (Veiled K H L) (addRules t rs) :=
  .bind (.change fun _ _ he => he.updateRegistry (he.registry.addAll t
    (rulesVeiled_of_bare rfl fun _ => rfl)))
    fun _ => .bind (mark_veiled t true) fun _ => note_veiled _ _ _

theorem ensureWithin_veiled (depth : Nat) (t : TypeId) :
    Respects (Veiled K H L) (ensureWithin depth t) := by
  induction depth generalizing t with
  | zero => exact .throw _
  | succ depth ih =>
    refine look_veiled (fun e e' he => by rw [he.registry.known]) fun e => ?_
    cases e.registry.knows t with
    | true => exact .pure _
    | false =>
      exact .bind (declaredRules_veiled t) fun rs => .bind (addRules_veiled t rs) fun _ =>
        .forM fun u => ih u

theorem ensure_veiled (t : TypeId) : Respects (Veiled K H L) (ensure t) :=
  .bind schema_veiled fun _ => ensureWithin_veiled _ t

/-! ## 2. Parts of a configuration -/

/-- A change of a configuration that neither looks at its settings nor touches them. -/
theorem updateConfiguration_veiled (c : Nat) {f : Configuration → Configuration}
    (htype : ∀ cfg, (f cfg).type = cfg.type)
    (hf : ∀ cfg : Configuration, f cfg = (f (cfg.bare K)).withSettings cfg) :
    Respects (Veiled K H L) (updateConfiguration c f) := by
  refine .change fun e e' he => he.updateConfiguration c htype ?_
  have hcfg := he.configuration c
  rw [hf (e.configuration c), hf (e'.configuration c), hcfg.bare]
  let kept := (f ((e.configuration c).bare K)).withSettings
  exact ⟨congrArg kept hcfg.bare, hcfg.changed, fun hloose hhidden =>
    have hsame := hcfg.settings hloose hhidden
    ⟨rfl, hsame.culture, hsame.resource, hsame.fallback, hsame.conventionalKeys,
      hsame.settingsChanged⟩⟩

theorem updateCurrent_veiled (c : Nat) (f : PendingRule → PendingRule) :
    Respects (Veiled K H L) (updateCurrent c f) :=
  updateConfiguration_veiled c (fun _ => rfl) fun _ => rfl

theorem start_veiled (c : Nat) (p : PendingRule) : Respects (Veiled K H L) (start c p) :=
  updateConfiguration_veiled c (fun _ => rfl) fun _ => rfl

theorem touch_veiled (c : Nat) : Respects (Veiled K H L) (touch c) :=
  configuration_veiled (fun _ => rfl) fun cfg => mark_veiled cfg.type false

theorem hasChecks_veiled (cfg : Configuration) (m : MemberRef) :
    Respects (Veiled K H L) (hasChecks cfg m) := by
  refine look_veiled (fun e e' he => ?_) fun e => .pure _
  have hrules : (e'.registry.rulesOfMember cfg.type m.key).any Rule.hasCheck =
      (e.registry.rulesOfMember cfg.type m.key).any Rule.hasCheck := by
    have hbare : ∀ rs : List Rule,
        (rs.map (Rule.bare K)).any Rule.hasCheck = rs.any Rule.hasCheck :=
      fun rs => List.any_map
    rw [← hbare, he.registry.rulesOfMember, hbare]
  have hbuilders :
      ((e'.buildersOf cfg).any fun b => b.2.member.key == m.key && !b.2.rules.isEmpty) =
        (e.buildersOf cfg).any fun b => b.2.member.key == m.key && !b.2.rules.isEmpty := by
    have hbare : ∀ xs : List (Nat × Builder), ((xs.map fun x => (x.1, x.2.bare K)).any fun b =>
        b.2.member.key == m.key && !b.2.rules.isEmpty) =
          xs.any fun b => b.2.member.key == m.key && !b.2.rules.isEmpty := fun xs => by
      rw [List.any_map]
      refine List.any_congr rfl fun x => ?_
      simp [Builder.bare]
    rw [← hbare, he.buildersOf, hbare]
  rw [hrules, hbuilders]

theorem putAway_veiled (c : Nat) {cfg cfg' : Configuration} (h : cfg'.bare K = cfg.bare K)
    (p : PendingRule) (he : e.Veiled K H L e') :
    Agree (Veiled K H L) (putAway c cfg p e) (putAway c cfg' p e') := by
  have hput : Respects (Veiled K H L) (updateConfiguration c fun cfg =>
      { cfg with pending := cfg.pending ++ [p] }) :=
    updateConfiguration_veiled c (fun _ => rfl) fun _ => rfl
  have hsame : putAway c cfg' p = putAway c cfg p :=
    Configuration.read_eq (f := fun cfg => putAway c cfg p) (fun _ => rfl) h
  rw [hsame]
  refine (?_ : Respects (Veiled K H L) (putAway c cfg p)) e e' he
  unfold putAway
  split
  · refine .bind (hasChecks_veiled cfg _) fun found => ?_
    cases found with
    | false => exact .bind (.throw _) fun _ => hput
    | true => exact hput
  · exact hput

theorem commit_veiled (c : Nat) : Respects (Veiled K H L) (commit c) := by
  refine configuration_veiled (fun _ => rfl) fun cfg => ?_
  cases cfg.current with
  | none => exact .pure _
  | some p =>
    exact .bind (updateConfiguration_veiled c (fun _ => rfl) fun _ => rfl) fun _ _ _ he =>
      putAway_veiled c rfl p he

theorem begin_veiled (c : Nat) (sel : Selector) : Respects (Veiled K H L) (begin c sel) :=
  .bind (commit_veiled c) fun _ => .bind (touch_veiled c) fun _ =>
    configuration_veiled (fun _ => rfl) fun _ => select_veiled _ sel

theorem newRule_veiled (t : TypeId) (m : MemberRef) (a : Attribute) (forEach : Bool) :
    Respects (Veiled K H L) (newRule t m a forEach) := by
  refine .bind (.bind (members_veiled t) fun _ => ?_) fun _ => .bind freshId_veiled fun _ => .pure _
  split <;> exact .pure _

theorem usable_veiled (t : TypeId) (a : Except Fault Attribute) :
    Respects (Veiled K H L) (usable t a) :=
  .bind (.lift _) fun _ => .bind schema_veiled fun _ => .bind (.lift _) fun _ => .pure _

theorem provide_veiled (c : Nat) (m : MemberRef) (x : Expr) :
    Respects (Veiled K H L) (provide c m x) := by
  have hset : Respects (Veiled K H L) (updateConfiguration c fun cfg =>
      { cfg with providers := cfg.providers ++ [(m, x)] }) :=
    updateConfiguration_veiled c (fun _ => rfl) fun _ => rfl
  have hlast : Respects (Veiled K H L) (do
      if !m.isWritable (← schema) then refuse (AppError.unwritable m)
      updateConfiguration c fun cfg => { cfg with providers := cfg.providers ++ [(m, x)] }) := by
    refine .bind schema_veiled fun _ => ?_
    split
    · exact .bind (.throw _) fun _ => hset
    · exact hset
  refine configuration_veiled (fun _ => rfl) fun cfg => .get_bind fun e e' he => ?_
  have hrules : ((e'.registry.rulesOfMember cfg.type m.key).any fun r => r.provider.isSome) =
      (e.registry.rulesOfMember cfg.type m.key).any fun r => r.provider.isSome := by
    have hbare : ∀ rs : List Rule, ((rs.map (Rule.bare K)).any fun r => r.provider.isSome) =
        rs.any fun r => r.provider.isSome := fun rs => List.any_map
    rw [← hbare, he.registry.rulesOfMember, hbare]
  dsimp only
  rw [hrules]
  split
  · exact Respects.bind (.throw _) (fun _ => hlast) e e' he
  · exact hlast e e' he

/-! ## 3. Starting a configuration -/

/-- Configurations of the outside are made from the schema and the options. -/
theorem newConfiguration_veiled (t : TypeId) : Respects (Veiled K H L) (newConfiguration t) := by
  refine .bind (ensure_veiled t) fun _ => look_veiled (fun e e' he => ?_) fun e =>
    .bind (.change fun e e' he => ?_) fun _ => .pure _
  · rw [he.length]
  · have hworld : e'.world = e.world := congrArg (fun e => e.world) he.rest
    have hoptions : e'.options = e.options := congrArg (fun e => e.options) he.rest
    refine he.newConfiguration ?_
    rw [hworld, hoptions]
    exact ⟨rfl, fun _ => rfl, fun _ _ => .refl _⟩

theorem configure_veiled (t : TypeId) : Respects (Veiled K H L) (configure t) := by
  refine look_veiled (fun e e' he => ?_) fun e => ?_
  · have hconfigured : e'.configured = e.configured := congrArg (fun e => e.configured) he.rest
    rw [hconfigured]
  · cases e.configured.lookup t with
    | some c => exact .pure _
    | none =>
      refine .bind (newConfiguration_veiled t) fun c => .bind (.change fun e e' he => ?_) fun _ =>
        .pure _
      have hconfigured : e'.configured = e.configured := congrArg (fun e => e.configured) he.rest
      refine ⟨?_, he.registry, he.length, he.configuration, he.size, he.builder⟩
      have hrest := congrArg (fun e : Engine => { e with configured := e.configured ++ [(t, c)] })
        he.rest
      exact hrest

/-- **The configuration of a block** takes the settings around it: it is hidden, or these are
not. -/
theorem newChild_veiled {t : TypeId} (he : e.Veiled K H L e')
    (h : ∀ child e₁, newConfiguration t e = (.ok child, e₁) → child ∈ H ∨ c ∉ H ∧ c ∉ L) :
    Agree (Veiled K H L) (newChild c t e) (newChild c t e') := by
  obtain ⟨hresult, hleft⟩ := newConfiguration_veiled t e e' he
  unfold newChild
  rw [bind_apply, bind_apply]
  rcases hx : newConfiguration t e with ⟨f | child, e₁⟩ <;>
    rcases hy : newConfiguration t e' with ⟨f' | child', e₁'⟩ <;>
    rw [hx, hy] at hresult hleft <;> cases hresult
  · exact ⟨rfl, hleft⟩
  · refine ⟨rfl, hleft.updateConfiguration child (fun _ => rfl) ?_⟩
    have houter := hleft.configuration c
    have hinner := hleft.configuration child
    refine ⟨?_, fun _ => rfl, fun hloose hhidden => ?_⟩
    · show ((e₁'.configuration c).within (e₁'.configuration child)).bare K =
        ((e₁.configuration c).within (e₁.configuration child)).bare K
      rw [Configuration.bare_within, houter.bare, hinner.bare, ← Configuration.bare_within]
    · obtain ⟨hc, hc'⟩ := (h child e₁ hx).resolve_left hhidden
      have hsame := houter.settings hc' hc
      have hsame' := hinner.settings hloose hhidden
      exact ⟨hsame'.type, hsame.culture, by rw [hsame'.resource, hsame.resource], hsame.fallback,
        hsame.conventionalKeys, rfl⟩

/-! ## 4. Steps on a type -/

theorem requireCurrent_veiled (c : Nat) (operation : String) :
    Respects (Veiled K H L) (requireCurrent c operation) := by
  refine configuration_veiled (fun _ => rfl) fun cfg => ?_
  split
  · exact .pure _
  · exact .throw _

theorem attach_veiled (c : Nat) (a : Attribute) : Respects (Veiled K H L) (attach c a) :=
  .bind (requireCurrent_veiled c _) fun _ => updateCurrent_veiled c _

theorem checkStep_veiled (c : Nat) (step : CheckStep) :
    Respects (Veiled K H L) (checkStep c step) := by
  cases step with
  | attach a =>
    exact configuration_veiled (fun _ => rfl) fun _ => .bind (usable_veiled _ a) fun _ =>
      attach_veiled c _
  | message m => exact .bind (requireCurrent_veiled c _) fun _ => updateCurrent_veiled c _
  | code key => exact .bind (requireCurrent_veiled c _) fun _ => updateCurrent_veiled c _
  | resourceKey key => exact .bind (requireCurrent_veiled c _) fun _ => updateCurrent_veiled c _
  | provide x => exact .bind (requireCurrent_veiled c _) fun _ => provide_veiled c _ x

theorem drop_veiled (c : Nat) (m : MemberRef) : Respects (Veiled K H L) (drop c m) :=
  configuration_veiled (fun _ => rfl) fun _ =>
    .bind (removeRules_veiled _ _ fun _ => rfl) fun _ =>
      updateConfiguration_veiled c (fun _ => rfl) fun _ => rfl

theorem furnish_veiled (c : Nat) (must : Option Expr) (message : Option MessageSource) :
    Respects (Veiled K H L) (furnish c must message) := by
  refine .bind ?_ fun _ => ?_
  · cases must with
    | none => exact .pure _
    | some x => exact attach_veiled c _
  · cases message with
    | none => exact .pure _
    | some s => exact checkStep_veiled c (.message (some s))

theorem startRule_veiled (c : Nat) (sel : Selector) (must : Option Expr)
    (message : Option MessageSource) (replace : Bool) :
    Respects (Veiled K H L) (startRule c sel must message replace) := by
  have hlast : ∀ m, Respects (Veiled K H L) (do
      start c { member := m }
      furnish c must message) := fun m =>
    .bind (start_veiled c _) fun _ => furnish_veiled c must message
  rw [startRule_eq]
  refine .bind (begin_veiled c sel) fun m => ?_
  cases replace with
  | true => exact .bind (drop_veiled c m) fun _ => hlast m
  | false => exact hlast m

theorem newBuilder_veiled (c : Nat) (sel : Selector) (forEach : Bool) (name : Option String) :
    Respects (Veiled K H L) (newBuilder c sel forEach name) := by
  refine .bind (begin_veiled c sel) fun m => look_veiled (fun e e' he => by rw [he.size]) fun e =>
    .bind (.change fun e₁ e₁' he => ?_) fun _ =>
      .bind (updateConfiguration_veiled c (fun _ => rfl) fun _ => rfl) fun _ => .pure _
  have hnamed : e₁'.named = e₁.named := congrArg (fun e => e.named) he.rest
  rw [hnamed]
  exact he.newBuilder _ _

theorem startGated_veiled (c : Nat) (sel : Option Selector) :
    Respects (Veiled K H L) (startGated c sel) := by
  cases sel with
  | none =>
    refine configuration_veiled (fun _ => rfl) fun cfg => ?_
    cases cfg.current.isNone with
    | true => exact .bind (.throw _) fun _ => updateCurrent_veiled c _
    | false => exact updateCurrent_veiled c _
  | some sel =>
    refine .bind (touch_veiled c) fun _ => configuration_veiled (fun _ => rfl) fun _ =>
      .bind (select_veiled _ sel) fun m => configuration_veiled (fun _ => rfl) fun cfg => ?_
    cases cfg.current.any fun p => !p.checks.isEmpty && p.member.key == m.key with
    | true => exact updateCurrent_veiled c _
    | false => exact .bind (commit_veiled c) fun _ => start_veiled c _

/-- The member of a builder is no setting. -/
theorem member_veiled (he : e.Veiled K H L e') (b : Nat) :
    (e'.builder b).member = (e.builder b).member :=
  Builder.read_eq (f := Builder.member) (fun _ => rfl) (he.builder b).bare

theorem exclude_veiled (c : Nat) (sel : Selector) : Respects (Veiled K H L) (exclude c sel) :=
  .bind (begin_veiled c sel) fun m => .bind (drop_veiled c m) fun _ =>
    look_veiled (fun e e' he => by simp only [member_veiled he]) fun _ =>
      .bind (updateConfiguration_veiled c (fun _ => rfl) fun _ => rfl) fun _ => start_veiled c _

theorem always_veiled (c : Nat) (sel : Selector) : Respects (Veiled K H L) (always c sel) :=
  .bind (begin_veiled c sel) fun _ => start_veiled c _

theorem dropMember_veiled (c : Nat) (sel : Selector) (kind : Option String) :
    Respects (Veiled K H L) (dropMember c sel kind) := by
  refine .bind (begin_veiled c sel) fun m => .bind (touch_veiled c) fun _ =>
    configuration_veiled (fun _ => rfl) fun cfg => .bind (removeRules_veiled _ _ fun _ => rfl)
      fun _ => .bind (updateConfiguration_veiled c (fun _ => rfl) fun _ => rfl) fun _ =>
        .forM fun b => .change fun e e' he => he.updateBuilder b (fun x => ?_)
          fun x x' hx => ?_
  · split <;> rfl
  · obtain ⟨howner, hmember, hforEach, hrules, hguard⟩ := Builder.mk.inj hx
    rw [hmember]
    split
    · have hfilter : ∀ rs : List Rule,
          (rs.filter fun r => !r.validator.all (isDropped kind)).map (Rule.bare K) =
            (rs.map (Rule.bare K)).filter fun r => !r.validator.all (isDropped kind) := fun rs => by
        rw [List.filter_map]
        rfl
      unfold Builder.bare
      rw [hfilter, hfilter, hrules, howner, hforEach, hguard]
    · exact hx

theorem keepOnly_veiled (c : Nat) (sel : Selector) : Respects (Veiled K H L) (keepOnly c sel) :=
  .bind (begin_veiled c sel) fun _ => .bind (touch_veiled c) fun _ =>
    configuration_veiled (fun _ => rfl) fun _ => .bind (removeRules_veiled _ _ fun _ => rfl)
      fun _ => look_veiled (fun e e' he => by simp only [member_veiled he]) fun _ =>
        updateConfiguration_veiled c (fun _ => rfl) fun _ => rfl

theorem clear_veiled (c : Nat) : Respects (Veiled K H L) (clear c) :=
  .bind (commit_veiled c) fun _ => .bind (touch_veiled c) fun _ =>
    configuration_veiled (fun _ => rfl) fun _ => .bind (removeRules_veiled _ _ fun _ => rfl)
      fun _ => updateConfiguration_veiled c (fun _ => rfl) fun _ => rfl

theorem switch_veiled (c : Nat) (t : TypeId) : Respects (Veiled K H L) (switch c t) :=
  .bind (commit_veiled c) fun _ => configure_veiled t

/-! ## 5. Steps of a builder -/

theorem builderType_veiled (b : Nat) : Respects (Veiled K H L) (builderType b) :=
  builder_veiled (fun _ => rfl) fun _ => configuration_veiled (fun _ => rfl) fun _ => .pure _

theorem attachTo_veiled (b : Nat) (a : Attribute) : Respects (Veiled K H L) (attachTo b a) :=
  builder_veiled (fun _ => rfl) fun _ => .bind (builderType_veiled b) fun t =>
    .bind (newRule_veiled t _ a _) fun r => .change fun e e' he =>
      he.updateBuilder b (fun _ => rfl) fun x x' hx => by
        obtain ⟨howner, hmember, hforEach, hrules, hguard⟩ := Builder.mk.inj hx
        unfold Builder.bare
        rw [List.map_append, List.map_append, hrules, howner, hmember, hforEach, hguard]

/-- A change of a rule that neither looks at its settings nor touches them. -/
theorem amend_veiled (id : Nat) {f : Rule → Rule} (hf : ∀ r : Rule, (f r).bare K = f (r.bare K)) :
    Respects (Veiled K H L) (modify (Engine.amend id f) : Action Unit) :=
  .change fun e e' he => he.amend id (fun r r' h => by rw [hf, hf, h]) (.inl rfl)

theorem amendLast_veiled (b : Nat) (operation : String) {f : Rule → Rule}
    (hf : ∀ r : Rule, (f r).bare K = f (r.bare K)) :
    Respects (Veiled K H L) (amendLast b operation f) := by
  refine builder_veiled (fun x => ?_) fun x => ?_
  · have hlast : (x.bare K).rules.getLast? = x.rules.getLast?.map (Rule.bare K) :=
      List.getLast?_map
    rw [hlast]
    cases x.rules.getLast? <;> rfl
  · cases x.rules.getLast? with
    | none => exact .throw _
    | some r => exact amend_veiled r.id hf

theorem builderCheckStep_veiled (b : Nat) (step : CheckStep) :
    Respects (Veiled K H L) (builderCheckStep b step) := by
  cases step with
  | attach a =>
    exact .bind (builderType_veiled b) fun _ => .bind (usable_veiled _ a) fun _ =>
      attachTo_veiled b _
  | message m => exact amendLast_veiled b _ fun _ => rfl
  | code key => exact amendLast_veiled b _ fun _ => rfl
  | resourceKey key => exact amendLast_veiled b _ fun _ => rfl
  | provide x => exact builder_veiled (fun _ => rfl) fun _ => provide_veiled _ _ x

theorem guardRules_veiled (g : Guard) (rs : List Rule) :
    Respects (Veiled K H L) (guardRules g rs) := .forM fun r => amend_veiled r.id fun _ => rfl

theorem nestedType_veiled (b : Nat) (element : Option TypeId) :
    Respects (Veiled K H L) (nestedType b element) := by
  refine builder_veiled (fun _ => rfl) fun x => .bind (builderType_veiled b) fun t =>
    .bind schema_veiled fun s => ?_
  cases element with
  | some t => exact .bind (.pure _) (.ofOption (.throw _) fun _ => .pure _)
  | none =>
    cases x.forEach with
    | true =>
      exact .bind (.lift _) fun hint => .bind (.pure _) (.ofOption (.throw _) fun _ => .pure _)
    | false => exact .bind (.lift _) (.ofOption (.throw _) fun _ => .pure _)

end Action
end MemberRules
