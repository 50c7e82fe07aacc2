/-
# Configuring keeps rules apart by their numbers

Whatever is called to configure rules, and whether it ends well or not, the numbers of all rules stay
in order: no number is given out twice, a builder is listed by its owner until this one is built, and
what a listed builder holds is registered by no one else.

Only three things make rules that stay.  The declared rules of a type are made when the type is first
asked for, a builder makes a rule for each check that is attached, and building registers what was
gathered.  Everything else takes rules away, or changes them but for their numbers and places.

* `Engine.Tidy`: rules in their places, and apart by their numbers.
* `…_numbered`: what the parts of calls keep.
* `Engine.Call.after_tidy`, `Engine.Tidy.afterCalls`: what calls keep.
-/
import MemberRules.Proofs.Configuration.Making
import MemberRules.Proofs.Registry.Adaptation

namespace MemberRules

open MemberRules.Computation MemberRules.Engine

/-- An engine whose rules keep to their places, and are apart by their numbers. -/
structure Engine.Tidy (e : Engine) : Prop where
  keyed : e.Keyed
  numbered : e.Numbered

/-- Nothing is out of order before anything has been configured. -/
theorem Engine.tidy_of_nothing {e : Engine} (hregistry : e.registry = {}) (hbuilders : e.builders = [])
    (hconfigurations : e.configurations = [])
    (hfaithful : e.world.schema.Faithful e.reflected) : e.Tidy := by
  have hnone : ∀ t k, e.registry.rulesOfMember t k = [] := fun t k => by
    rw [hregistry]
    rfl
  have hholds : ∀ b, (e.builder b).rules = [] := fun b => by
    rw [builder, hbuilders]
    rfl
  have hlists : ∀ c, (e.configuration c).builders = [] := fun c => by
    rw [configuration, hconfigurations]
    rfl
  constructor
  · refine ⟨hregistry ▸ Registry.keyed_empty, fun b r hr => ?_⟩
    rw [hholds] at hr
    cases hr
  · constructor
    · exact hfaithful
    · simp [hnone]
    · simp [hholds]
    · simp [hholds]
    · simp [hholds]
    · simp [hholds]
    · simp [hlists]
    · simp [Owned, hlists]
    · simp [hlists]

namespace Action

variable {α β : Type} {b c : Nat} {e : Engine}

/-! ## 1. Steps aside -/

/-- A step that makes no rule. -/
theorem sheds_numbered {x : Action α} (h : ∀ e : Engine, e.Sheds (x e).2) : Keeps Numbered x :=
  fun e he => ⟨he.sheds (h e), fun _ _ => trivial⟩

/-- A step that changes neither rules nor what lists them, and reads nothing. -/
theorem aside_numbered {x : Action α} (h : ∀ e, SameWork e (x e).2 ∧ (x e).2.world = e.world ∧
    (x e).2.reflected = e.reflected ∧ e.nextId ≤ (x e).2.nextId) : Keeps Numbered x := by
  refine sheds_numbered fun e => ?_
  obtain ⟨hsame, hworld, hreflected, hids⟩ := h e
  exact sheds_aside hsame hids (by rw [hworld, hreflected]; exact id)

instance : KeptAside Numbered where
  note _ _ _ := aside_numbered fun _ => ⟨⟨rfl, rfl, rfl⟩, rfl, rfl, le_rfl⟩
  report _ := aside_numbered fun _ => ⟨⟨rfl, rfl, rfl⟩, rfl, rfl, le_rfl⟩
  freshId := aside_numbered fun _ => ⟨⟨rfl, rfl, rfl⟩, rfl, rfl, Nat.le_succ _⟩
  numbered _ := aside_numbered fun _ => ⟨⟨rfl, rfl, rfl⟩, rfl, rfl, Nat.le_add_right _ _⟩
  members t := sheds_numbered fun e => sheds_aside ⟨rfl, rfl, rfl⟩ le_rfl fun hfaithful =>
    (Schema.faithful_reflect e.world.schema t hfaithful).1

/-! ## 2. Steps that take away -/

theorem updateConfiguration_numbered (c : Nat) {f : Configuration → Configuration}
    (hf : ∀ cfg, (f cfg).builders.Sublist cfg.builders) :
    Keeps Numbered (updateConfiguration c f) :=
  sheds_numbered fun _ => sheds_updateConfiguration hf c

theorem updateCurrent_numbered (c : Nat) (f : PendingRule → PendingRule) :
    Keeps Numbered (updateCurrent c f) := updateConfiguration_numbered c fun _ => .refl _

theorem start_numbered (c : Nat) (p : PendingRule) : Keeps Numbered (start c p) :=
  updateConfiguration_numbered c fun _ => .refl _

theorem mark_numbered (t : TypeId) (built : Bool) :
    Keeps Numbered (updateRegistry fun reg => reg.mark t built) :=
  sheds_numbered fun _ => sheds_registry _ fun _ _ => .refl _

theorem removeRules_numbered (t : TypeId) (member : Option MemberRef) (doomed : Rule → Bool) :
    Keeps Numbered (removeRules t member doomed) :=
  removeRules_keeps_of (sheds_numbered fun _ => sheds_registry _ fun _ _ =>
    Registry.rulesOfMember_removeWhere _ doomed)

theorem updateBuilder_numbered (b : Nat) {f : Builder → Builder}
    (hf : ∀ x, (f x).rules.Sublist x.rules ∧ (f x).member = x.member ∧ (f x).owner = x.owner) :
    Keeps Numbered (modify (Engine.updateBuilder b f) : Action Unit) :=
  sheds_numbered fun _ => sheds_updateBuilder hf b

theorem amend_numbered (id : Nat) {f : Rule → Rule} (hf : ∀ r, (f r).tag = r.tag) :
    Keeps Numbered (modify (Engine.amend id f) : Action Unit) :=
  sheds_numbered fun _ => sheds_amend hf id

/-! ## 3. Parts of a configuration -/

theorem touch_numbered (c : Nat) : Keeps Numbered (touch c) :=
  .andThen (configuration_keeps c) fun cfg => mark_numbered cfg.type false

theorem commit_numbered (c : Nat) : Keeps Numbered (commit c) :=
  commit_keeps (updateConfiguration_numbered c fun _ => .refl _) fun _ =>
    updateConfiguration_numbered c fun _ => .refl _

theorem begin_numbered (c : Nat) (sel : Selector) : Keeps Numbered (begin c sel) :=
  .andThen (commit_numbered c) fun _ => .andThen (touch_numbered c) fun _ =>
    .andThen (configuration_keeps c) fun _ => select_keeps _ sel

theorem provide_numbered (c : Nat) (m : MemberRef) (v : Expr) :
    Keeps Numbered (provide c m v) := provide_keeps (updateConfiguration_numbered c fun _ => .refl _)

theorem attach_numbered (c : Nat) (a : Attribute) : Keeps Numbered (attach c a) :=
  .andThen (requireCurrent_keeps c _) fun _ => updateCurrent_numbered c _

theorem checkStep_numbered (c : Nat) (step : CheckStep) : Keeps Numbered (checkStep c step) :=
  checkStep_keeps (updateCurrent_numbered c) (provide_numbered c) step

theorem drop_numbered (c : Nat) (m : MemberRef) : Keeps Numbered (drop c m) :=
  .andThen (configuration_keeps c) fun _ => .andThen (removeRules_numbered _ _ _) fun _ =>
    updateConfiguration_numbered c fun _ => .refl _

theorem startRule_numbered (c : Nat) (sel : Selector) (must : Option Expr)
    (message : Option MessageSource) (replace : Bool) :
    Keeps Numbered (startRule c sel must message replace) := by
  rw [startRule_eq]
  have hlast : ∀ m, Keeps Numbered (do start c { member := m }; furnish c must message) := fun m =>
    .andThen (start_numbered c _) fun _ =>
      furnish_keeps (attach_numbered c) (checkStep_numbered c) must message
  refine .andThen (begin_numbered c sel) fun m => ?_
  cases replace with
  | true => exact .andThen (drop_numbered c m) fun _ => hlast m
  | false => exact hlast m

theorem startGated_numbered (c : Nat) (sel : Option Selector) :
    Keeps Numbered (startGated c sel) :=
  startGated_keeps (updateCurrent_numbered c _) (touch_numbered c) fun _ =>
    .andThen (commit_numbered c) fun _ => start_numbered c _

theorem exclude_numbered (c : Nat) (sel : Selector) : Keeps Numbered (exclude c sel) := by
  refine .andThen (begin_numbered c sel) fun m => .andThen (drop_numbered c m) fun _ =>
    .get_bind fun e he => ?_
  exact Keeps.andThen (updateConfiguration_numbered c fun _ => List.filter_sublist)
    (fun _ => start_numbered c _) e he

theorem always_numbered (c : Nat) (sel : Selector) : Keeps Numbered (always c sel) :=
  .andThen (begin_numbered c sel) fun _ => start_numbered c _

theorem dropMember_numbered (c : Nat) (sel : Selector) (kind : Option String) :
    Keeps Numbered (dropMember c sel kind) := by
  refine .andThen (begin_numbered c sel) fun m => .andThen (touch_numbered c) fun _ =>
    .andThen (configuration_keeps c) fun cfg => .andThen (removeRules_numbered _ _ _) fun _ =>
    .andThen (updateConfiguration_numbered c fun _ => .refl _) fun _ => .forM fun b _ =>
      updateBuilder_numbered b fun x => ?_
  split
  · exact ⟨List.filter_sublist, rfl, rfl⟩
  · exact ⟨.refl _, rfl, rfl⟩

theorem keepOnly_numbered (c : Nat) (sel : Selector) : Keeps Numbered (keepOnly c sel) := by
  refine .andThen (begin_numbered c sel) fun m => .andThen (touch_numbered c) fun _ =>
    .andThen (configuration_keeps c) fun _ => .andThen (removeRules_numbered _ _ _) fun _ =>
    .get_bind fun e he => ?_
  exact updateConfiguration_numbered c (fun _ => List.filter_sublist) e he

theorem clear_numbered (c : Nat) : Keeps Numbered (clear c) :=
  .andThen (commit_numbered c) fun _ => .andThen (touch_numbered c) fun _ =>
    .andThen (configuration_keeps c) fun _ => .andThen (removeRules_numbered _ _ _) fun _ =>
    updateConfiguration_numbered c fun _ => List.nil_sublist _

/-! ## 4. Steps that make rules -/

/-- A step after one whose result and engine are known. -/
theorem bind_numbered {x : Action α} {f : α → Action β} (hx : (x e).2.Numbered)
    (hf : ∀ a e₁, x e = (.ok a, e₁) → e₁.Numbered → (f a e₁).2.Numbered) :
    ((x >>= f) e).2.Numbered := by
  rw [bind_apply]
  rcases hrun : x e with ⟨r | a, e₁⟩ <;> rw [hrun] at hx
  · exact hx
  · exact hf a e₁ hrun hx

/-- Declared rules get new numbers, and keys that have none. -/
theorem uses_of_declaredRules {t : TypeId} {rs : List Rule} {e' : Engine}
    (h : declaredRules t e = (.ok rs, e')) :
    ∀ r ∈ rs, ∀ n, r.Uses n → e.nextId ≤ n ∧ n < e'.nextId := by
  rw [declaredRules_apply] at h
  rcases hread : e.world.schema.reflect t e.reflected with ⟨f | ms, known⟩ <;> rw [hread] at h
  · cases h
  obtain ⟨rs₀, e₁, hrs₀, h⟩ := bind_eq_ok.mp h
  obtain ⟨hdeclared, rfl⟩ := Prod.mk.inj hrs₀
  cases h
  rintro r hr n hn
  obtain ⟨⟨x, id⟩, hx, rfl⟩ := List.mem_map.mp hr
  have hkey : x.uniqueKey.token? = none := by
    have hmem : x ∈ rs₀ := List.fst_mem_of_mem_zipIdx hx
    rw [Schema.eq_placedRules hdeclared] at hmem
    obtain ⟨m, -, hmem⟩ := List.mem_flatMap.mp hmem
    obtain ⟨kind, ordinal, hkey⟩ := MemberInfo.key_of_mem_placedRules hmem
    rw [hkey]
    rfl
  rcases hn with rfl | hn
  · exact ⟨List.le_snd_of_mem_zipIdx hx, List.snd_lt_add_of_mem_zipIdx hx⟩
  · rw [hkey] at hn
    cases hn

/-- Rules are registered, which marks the type as complete. -/
theorem addRules_numbered {t : TypeId} {rs : List Rule}
    (h : { e with registry := e.registry.addAll t rs }.Numbered) :
    (addRules t rs true e).2.Numbered := by
  have hnote : Keeps Numbered (noteAdded t rs.length true) :=
    .andThen (mark_numbered t true) fun _ => note_keeps _ _ _
  exact (hnote _ h).1

theorem ensureWithin_numbered (n : Nat) (t : TypeId) : Keeps Numbered (ensureWithin n t) := by
  refine ensureWithin_keeps_of (fun {t rs e e'} he hrun hsame _ he' => ?_) n t
  have huses := uses_of_declaredRules hrun
  -- What builders hold was made before these rules.
  have hwaiting : ∀ c, ∀ b ∈ (e'.configuration c).builders, ∀ x ∈ (e'.builder b).rules,
      ∀ r ∈ rs, ¬ r.Uses x.id := by
    intro c b _ x hx r hr hn
    rw [hsame.builder] at hx
    have hlt := (he.held b x hx).2
    have hle := (huses r hr _ hn).1
    omega
  exact addRules_numbered (he'.registering (fun r hr n hn => (huses r hr n hn).2) hwaiting t)

theorem ensure_numbered (t : TypeId) : Keeps Numbered (ensure t) :=
  .andThen schema_keeps fun _ => ensureWithin_numbered _ t

theorem newConfiguration_numbered (t : TypeId) : Keeps Numbered (newConfiguration t) := by
  refine .andThen (ensure_numbered t) fun _ => .get_bind fun e he => ?_
  exact Keeps.andThen (sheds_numbered fun _ => sheds_newConfiguration rfl)
    (fun _ => .pure trivial) e he

theorem newChild_numbered (c : Nat) (t : TypeId) : Keeps Numbered (newChild c t) :=
  .andThen (newConfiguration_numbered t) fun child => .andThen (configuration_keeps c) fun _ =>
    .andThen (updateConfiguration_numbered child fun _ => .refl _) fun _ => .pure trivial

theorem configure_numbered (t : TypeId) : Keeps Numbered (configure t) :=
  configure_keeps_of (newConfiguration_numbered t) fun _ =>
    aside_numbered fun _ => ⟨⟨rfl, rfl, rfl⟩, rfl, rfl, le_rfl⟩

theorem newBuilder_numbered (c : Nat) (sel : Selector) (forEach : Bool) (name : Option String) :
    Keeps Numbered (newBuilder c sel forEach name) := by
  refine .andThen (begin_numbered c sel) fun m => .get_bind fun e he => ⟨?_, fun _ _ => trivial⟩
  exact he.listing (x := { owner := c, member := m, forEach }) rfl rfl _

theorem attachTo_numbered (b : Nat) (a : Attribute) : Keeps Numbered (attachTo b a) := by
  refine fun e he => ⟨?_, fun _ _ => trivial⟩
  have hbuilder : builder b e = (.ok (e.builder b), e) := rfl
  obtain ⟨t, htype⟩ : ∃ t, builderType b e = (.ok t, e) := ⟨_, rfl⟩
  unfold attachTo
  rw [bind_ok hbuilder, bind_ok htype]
  have hnew := (newRule_keeps t (e.builder b).member a (e.builder b).forEach e he).1
  refine bind_numbered hnew fun r e₁ hr _ => ?_
  obtain ⟨hmakes, -, rfl⟩ := newRule_eq_ofCheck hr
  have hread : ∃ reflected, { e with reflected }.Numbered ∧
      e₁ = { e with reflected, nextId := e.nextId + 1 } := by
    obtain ⟨reflected, rfl⟩ := hmakes.same
    have hfaithful := (hmakes.displayed he.faithful).1
    exact ⟨reflected, he.sheds (sheds_aside ⟨rfl, rfl, rfl⟩ le_rfl fun _ => hfaithful), rfl⟩
  obtain ⟨reflected, hnumbered, rfl⟩ := hread
  exact hnumbered.attaching (b := b) rfl rfl rfl rfl

theorem builderCheckStep_numbered (b : Nat) (step : CheckStep) :
    Keeps Numbered (builderCheckStep b step) :=
  builderCheckStep_keeps (attachTo_numbered b)
    (fun id _ hf => amend_numbered id fun r => (congrArg Rule.tag (hf r)).trans rfl)
    provide_numbered step

/-! ## 5. Building -/

/-- Whatever has been gathered when gathering fails, no rule has been registered. -/
theorem gather_numbered (cfg : Configuration) : Keeps Numbered (gather cfg) :=
  gather_keeps cfg fun id => amend_numbered id fun _ => rfl

theorem Keeps.tidy {x : Action α} (hkeyed : Keeps Keyed x) (hnumbered : Keeps Numbered x) :
    Keeps Tidy x := fun e he =>
  ⟨⟨(hkeyed e he.keyed).1, (hnumbered e he.numbered).1⟩, fun _ _ => trivial⟩

theorem commit_tidy (c : Nat) : Keeps Tidy (commit c) :=
  .tidy (commit_keyed c) (commit_numbered c)

theorem dropMember_tidy (c : Nat) (sel : Selector) (kind : Option String) :
    Keeps Tidy (dropMember c sel kind) :=
  .tidy (dropMember_keyed c sel kind) (dropMember_numbered c sel kind)

/-- What has been gathered is registered, and waits no longer. -/
theorem finish_numbered {again providers rs : List Rule} {xss : List (List Rule)} {mid : Engine}
    (he : e.Tidy) (hgathered : e.Gathered c again xss providers mid)
    (hrs : rs = whole c e again xss providers) : (finish c (e.configuration c) rs mid).2.Numbered := by
  let emptied : Configuration → Configuration := fun cfg =>
    { cfg.emptied with lastBuild := rs, settingsChanged := false }
  have hmid : mid.Numbered := he.numbered.sheds hgathered.sheds
  have hleft : (mid.updateConfiguration c emptied).Numbered :=
    hmid.sheds (sheds_updateConfiguration (fun _ => List.nil_sublist _) c)
  have hnone : ((mid.updateConfiguration c emptied).configuration c).builders = [] := by
    rcases updateConfiguration_self_or_default mid c emptied with heq | ⟨-, heq⟩ <;> rw [heq] <;> rfl
  -- What other configurations list is what they listed before anything was gathered.
  have hwaiting : ∀ c', ∀ b ∈ ((mid.updateConfiguration c emptied).configuration c').builders,
      ∀ x ∈ ((mid.updateConfiguration c emptied).builder b).rules, ∀ r ∈ rs, ¬ r.Uses x.id := by
    intro c' b hb x hx r hr
    by_cases hc : c = c'
    · rw [← hc, hnone] at hb
      cases hb
    · rw [configuration_updateConfiguration_of_ne hc] at hb
      obtain ⟨y, hy, htag⟩ := exists_of_mem_tags (hgathered.sheds.held b) hx
      rw [← Rule.id_of_tag htag]
      rw [hrs] at hr
      exact (hgathered.waiting he.keyed he.numbered hr).2 c' (fun heq => hc heq.symm) b
        ((hgathered.sheds.lists c').subset hb) y hy
  have hids : ∀ r ∈ rs, ∀ n, r.Uses n → n < mid.nextId := fun r hr =>
    (hgathered.waiting he.keyed he.numbered (hrs ▸ hr)).1
  have hadded := hleft.registering hids hwaiting (e.configuration c).type
  have hmarked := hadded.sheds (sheds_registry ((mid.registry.addAll (e.configuration c).type
    rs).mark (e.configuration c).type) fun _ _ => .refl _)
  exact hmarked.sheds (sheds_aside ⟨rfl, rfl, rfl⟩ le_rfl id)

/-- **Building keeps rules apart.** -/
theorem build_tidy (c : Nat) : Keeps Tidy (build c) := by
  refine fun e he => ⟨⟨(build_keyed c e he.keyed).1, ?_⟩, fun _ _ => trivial⟩
  rw [build_eq]
  have hcommit := (commit_keyed c e he.keyed).1
  refine bind_numbered (commit_numbered c e he.numbered).1 fun _ e₁ hput he₁ => ?_
  rw [hput] at hcommit
  rw [configuration_bind]
  cases hidle : (e₁.configuration c).isIdle with
  | true =>
    have hmark := (mark_numbered (e₁.configuration c).type true e₁ he₁).1
    exact hmark
  | false =>
    simp only [Bool.false_eq_true, if_false]
    have hgather := (gather_numbered (e₁.configuration c) e₁ he₁).1
    refine bind_numbered hgather fun rs e₂ hrs _ => ?_
    obtain ⟨again, xss, providers, heq, hgathered⟩ := gather_eq_ok he₁ hrs
    exact finish_numbered ⟨hcommit, he₁⟩ hgathered heq

end Action

/-! ## 6. Calls -/

namespace Engine

open Action

variable {e : Engine}

/-- A call that builds nothing keeps rules apart. -/
theorem Call.after_numbered {call : Call} (h : call.builds? = none) (he : e.Numbered) :
    (call.after e).Numbered := by
  have hkeeps : Keeps Numbered call.run → (call.after e).Numbered := fun h => (h e he).1
  cases call with
  | configure t => exact hkeeps (configure_numbered t)
  | build c => cases h
  | check b s => exact hkeeps (.andThen (builderCheckStep_numbered b s) fun _ => .pure trivial)
  | closeBlock b place g last =>
    have hguard : ∀ rs, Keeps Numbered (guardRules g rs) := fun rs =>
      .forM fun r _ => amend_numbered r.id fun _ => rfl
    exact hkeeps (.andThen (builder_keeps b) fun x => .andThen (hguard _) fun _ =>
      .andThen (updateBuilder_numbered b fun _ => ⟨.refl _, rfl, rfl⟩) fun _ => .pure trivial)
  | nest b element =>
    exact hkeeps (.andThen (nestedType_keeps b element) fun t =>
      .andThen (builder_keeps b) fun x => newChild_numbered x.owner t)
  | describe b =>
    exact hkeeps (.andThen (builder_keeps b) fun x => .andThen (view_keeps x.rules) fun _ =>
      .andThen (report_keeps _) fun _ => .pure trivial)
  | step c s =>
    -- A step on a type keeps rules apart by the lemma about it, and goes on with a configuration.
    have hgoes : ∀ {x : Action Unit}, Keeps Numbered x → Keeps Numbered (do x; return c) :=
      fun hx => .andThen hx fun _ => .pure trivial
    have hsetting : ∀ f : Configuration → Configuration,
        (∀ cfg, (f cfg).builders.Sublist cfg.builders) →
        Keeps Numbered (do Action.updateConfiguration c f; return c) := fun f hf =>
      hgoes (updateConfiguration_numbered c hf)
    cases s with
    | check s => exact hkeeps (hgoes (checkStep_numbered c s))
    | rule sel must message replace =>
      exact hkeeps (hgoes (startRule_numbered c sel must message replace))
    | builder sel forEach name steps => exact hkeeps (newBuilder_numbered c sel forEach name)
    | gate sel g =>
      exact hkeeps (.andThen (startGated_numbered c sel) fun _ =>
        hgoes (updateCurrent_numbered c _))
    | exclude sel => exact hkeeps (hgoes (exclude_numbered c sel))
    | always sel => exact hkeeps (hgoes (always_numbered c sel))
    | resource name => exact hkeeps (hsetting _ fun _ => .refl _)
    | culture name => exact hkeeps (.andThen (.lift _) fun _ => hsetting _ fun _ => .refl _)
    | fallback text => exact hkeeps (hsetting _ fun _ => .refl _)
    | withoutConventionalKeys => exact hkeeps (hsetting _ fun _ => .refl _)
    | enforce on => exact hkeeps (hsetting _ fun _ => .refl _)
    | dropMember sel kind => exact hkeeps (hgoes (dropMember_numbered c sel kind))
    | keepOnly sel => exact hkeeps (hgoes (keepOnly_numbered c sel))
    | clear => exact hkeeps (hgoes (clear_numbered c))
    | switch t =>
      exact hkeeps (.andThen (commit_numbered c) fun _ => configure_numbered t)
    | build => cases h
    | describe =>
      exact hkeeps (.andThen (configuration_keeps c) fun _ => hgoes (report_keeps _))

/-- A call keeps rules to their places. -/
theorem Call.after_keyed (call : Call) (he : e.Keyed) : (call.after e).Keyed := by
  have hkeeps : Keeps Keyed call.run → (call.after e).Keyed := fun h => (h e he).1
  cases call with
  | configure t => exact hkeeps (configure_keyed t)
  | build c => exact hkeeps (.andThen (build_keyed c) fun _ => .pure trivial)
  | check b s => exact hkeeps (.andThen (builderCheckStep_keyed b s) fun _ => .pure trivial)
  | closeBlock b place g last =>
    exact hkeeps (.andThen (builder_keeps b) fun x => .andThen (guardRules_keyed g _) fun _ =>
      .andThen (setLastGuard_keyed b last) fun _ => .pure trivial)
  | nest b element =>
    exact hkeeps (.andThen (nestedType_keeps b element) fun t => .andThen (builder_keeps b) fun x =>
      newChild_keyed x.owner t)
  | describe b =>
    exact hkeeps (.andThen (builder_keeps b) fun x => .andThen (view_keeps x.rules) fun _ =>
      .andThen (report_keeps _) fun _ => .pure trivial)
  | step c s =>
    cases s with
    | builder sel forEach name steps => exact hkeeps (newBuilder_keyed c sel forEach name)
    | _ => exact hkeeps (TypeStep.run_keyed _ c)

/-- **A call keeps rules in their places and apart.** -/
theorem Call.after_tidy (call : Call) (he : e.Tidy) : (call.after e).Tidy := by
  have hbuild : ∀ c, (Action.build c e).2.Tidy := fun c => (build_tidy c e he).1
  cases hbuilds : call.builds? with
  | none => exact ⟨call.after_keyed he.keyed, call.after_numbered hbuilds he.numbered⟩
  | some c =>
    refine ⟨call.after_keyed he.keyed, ?_⟩
    cases call with
    | build c' =>
      exact bind_numbered (hbuild c').numbered fun _ e₁ _ he₁ => he₁
    | step c' s =>
      cases s with
      | build =>
        refine bind_numbered (hbuild c').numbered fun rs e₁ _ he₁ => ?_
        have hreport : Keeps Numbered (do
            Action.report (.rules (← Action.view rs))
            return c' : Action Nat) :=
          .andThen (view_keeps rs) fun _ => .andThen (report_keeps _) fun _ => .pure trivial
        exact (hreport e₁ he₁).1
      | _ => cases hbuilds
    | _ => cases hbuilds

/-- **Calls keep rules in their places and apart**, however they end. -/
theorem Tidy.afterCalls (he : e.Tidy) (calls : List Call) : (e.afterCalls calls).Tidy := by
  induction calls generalizing e with
  | nil => exact he
  | cons call rest ih => exact ih (call.after_tidy he)

end Engine

/-- **So do steps on a type.** -/
theorem runTypeSteps_tidy {e : Engine} (he : e.Tidy) (steps : List TypeStep) (c : Nat) :
    (runTypeSteps c steps e).2.Tidy := by
  obtain ⟨calls, heq⟩ := runTypeSteps_madeOfCalls steps c e
  rw [heq]
  exact he.afterCalls calls

end MemberRules
