/-
# Work on a configuration marks its type

A configuration that selects a member marks the rules of its type as incomplete before it gathers
anything for the member.  What it gathers later needs no mark of its own: only building takes the
mark away, and what is built is gathered no longer.  So as long as configurations are not built,
the types of those that have gathered something stay marked.

This is shown for one step after the other.  Work on a configuration may open it, but leaves all
others as they are, and leaves the marks of incomplete types alone.  A step that selects a member
puts the mark before the work, and so every step is safe: a configuration is open afterwards only
if it was open before or its type is marked.

* `Configuration.IsOpen`, `Registry.Incomplete`: what has been gathered, and the mark.
* `Engine.Works`: work on some configurations.
* `Engine.Safe`: a step after which types of open configurations are marked if they were before.
* `…_works`, `…_safe`: which parts of the steps are work, and that the steps are safe.
* `Action.build_ends`: building closes a configuration and completes its type, or fails and is safe.
-/
import MemberRules.Proofs.Configuration.Aside
import MemberRules.Proofs.Registry.Adaptation

namespace MemberRules

open MemberRules.Computation

/-! ## 1. Open configurations and incomplete types -/

/-- A configuration that has gathered something for a member, or has just selected one. -/
def Configuration.IsOpen (cfg : Configuration) : Prop :=
  cfg.current ≠ none ∨ cfg.pending ≠ [] ∨ cfg.builders ≠ []

/-- A configuration that is open, or has a member started, only if another one is or has. -/
structure Configuration.Follows (cfg cfg' : Configuration) : Prop where
  opened : cfg'.IsOpen → cfg.IsOpen
  started : cfg'.current ≠ none → cfg.current ≠ none

theorem Configuration.Follows.trans {cfg cfg' cfg'' : Configuration} (h : cfg.Follows cfg')
    (h' : cfg'.Follows cfg'') : cfg.Follows cfg'' :=
  ⟨fun hopen => h.opened (h'.opened hopen), fun hstarted => h.started (h'.started hstarted)⟩

theorem Configuration.not_isOpen {cfg : Configuration} (hcurrent : cfg.current = none)
    (hpending : cfg.pending = []) (hbuilders : cfg.builders = []) : ¬ cfg.IsOpen := by
  rintro (h | h | h)
  · exact h hcurrent
  · exact h hpending
  · exact h hbuilders

/-- A type whose rules are marked as incomplete. -/
def Registry.Incomplete (reg : Registry) (t : TypeId) : Prop := reg.marks.lookup t = some false

namespace Registry

variable {reg : Registry} {t u : TypeId}

theorem Incomplete.isBuilt (h : reg.Incomplete t) : reg.isBuilt t = false := by
  unfold Registry.isBuilt
  rw [h, Option.getD_some]

theorem Incomplete.knows (h : reg.Incomplete t) : reg.knows t = true := by
  unfold Registry.knows
  rw [h, Option.isSome_some, Bool.true_or]

theorem Incomplete.of_marks {reg' : Registry} (hmarks : reg'.marks = reg.marks)
    (h : reg.Incomplete t) : reg'.Incomplete t := by
  unfold Incomplete
  rw [hmarks]
  exact h

theorem incomplete_mark (reg : Registry) (t : TypeId) : (reg.mark t false).Incomplete t :=
  lookup_updateEntry ..

theorem Incomplete.mark (h : reg.Incomplete t) (u : TypeId) : (reg.mark u false).Incomplete t := by
  by_cases hu : t = u
  · subst hu
    exact incomplete_mark reg t
  · exact (lookup_updateEntry_of_ne hu ..).trans h

/-- Completing another type leaves a type incomplete. -/
theorem Incomplete.mark_of_ne (h : reg.Incomplete t) (hu : t ≠ u) (built : Bool) :
    (reg.mark u built).Incomplete t := (lookup_updateEntry_of_ne hu ..).trans h

end Registry

/-! ## 2. Work and safe steps -/

namespace Engine

variable {e e' e'' : Engine} {busy : Nat → Prop} {c : Nat}

/-- Work on the configurations that are busy: it may open these, but no others. -/
structure Works (busy : Nat → Prop) (e e' : Engine) : Prop where
  types : ∀ c, (e'.configuration c).type = (e.configuration c).type
  follows : ∀ c, busy c ∨ (e.configuration c).Follows (e'.configuration c)
  incomplete : ∀ t, e.registry.Incomplete t → e'.registry.Incomplete t

/-- A step that leaves incomplete types incomplete, and opens a configuration only if its type is. -/
structure Safe (e e' : Engine) : Prop where
  opens : ∀ c, (e'.configuration c).IsOpen →
    (e.configuration c).IsOpen ∧ (e'.configuration c).type = (e.configuration c).type ∨
      e'.registry.Incomplete (e'.configuration c).type
  incomplete : ∀ t, e.registry.Incomplete t → e'.registry.Incomplete t

theorem Works.refl (busy : Nat → Prop) (e : Engine) : Works busy e e :=
  ⟨fun _ => rfl, fun _ => .inr ⟨id, id⟩, fun _ h => h⟩

theorem Works.trans (h : Works busy e e') (h' : Works busy e' e'') : Works busy e e'' where
  types c := (h'.types c).trans (h.types c)
  follows c := by
    rcases h.follows c with hbusy | hfollows
    · exact .inl hbusy
    · exact (h'.follows c).imp_right hfollows.trans
  incomplete t ht := h'.incomplete t (h.incomplete t ht)

theorem Works.mono {busy' : Nat → Prop} (h : Works busy e e') (hbusy : ∀ c, busy c → busy' c) :
    Works busy' e e' :=
  { h with follows := fun c => (h.follows c).imp_left (hbusy c) }

/-- Work on a configuration that had a member started opens no other one. -/
theorem Works.settle (h : Works (fun c' => busy c' ∨ c' = c) e e')
    (hc : busy c ∨ (e.configuration c).current ≠ none) : Works busy e e' where
  types := h.types
  follows c' := by
    rcases h.follows c' with (hbusy | rfl) | hfollows
    · exact .inl hbusy
    · exact hc.imp_right fun hstarted => ⟨fun _ => .inl hstarted, fun _ => hstarted⟩
    · exact .inr hfollows
  incomplete := h.incomplete

theorem Safe.refl (e : Engine) : Safe e e := ⟨fun _ h => .inl ⟨h, rfl⟩, fun _ h => h⟩

theorem Safe.trans (h : Safe e e') (h' : Safe e' e'') : Safe e e'' where
  opens c hc := by
    rcases h'.opens c hc with ⟨hopen, htype⟩ | hmarked
    · rcases h.opens c hopen with ⟨hopen, htype'⟩ | hmarked
      · exact .inl ⟨hopen, htype.trans htype'⟩
      · exact .inr (htype ▸ h'.incomplete _ hmarked)
    · exact .inr hmarked
  incomplete t ht := h'.incomplete t (h.incomplete t ht)

/-- Work on a configuration is safe if its type is marked. -/
theorem Works.safe (h : Works (· = c) e e') (hc : e.registry.Incomplete (e.configuration c).type) :
    Safe e e' where
  opens c' hc' := by
    rcases h.follows c' with rfl | hfollows
    · rw [h.types]
      exact .inr (h.incomplete _ hc)
    · exact .inl ⟨hfollows.opened hc', h.types c'⟩
  incomplete := h.incomplete

/-- Work on no configuration is safe. -/
theorem Works.follows_of_none (h : Works (fun _ => False) e e') (c : Nat) :
    (e.configuration c).Follows (e'.configuration c) := (h.follows c).resolve_left id

theorem Works.safe_of_none (h : Works (fun _ => False) e e') : Safe e e' where
  opens c hc := .inl ⟨(h.follows_of_none c).opened hc, h.types c⟩
  incomplete := h.incomplete

end Engine

open Engine

namespace Action

variable {α β : Type} {busy : Nat → Prop} {e₀ : Engine} {c b : Nat}

/-! ## 3. Parts of the engine -/

instance : Stable (Works busy e₀) where
  of_sameWork {e e'} hsame he := by
    have hfollows : ∀ c, (e.configuration c).Follows (e'.configuration c) := fun c => by
      rw [hsame.configuration]
      exact ⟨id, id⟩
    refine he.trans ⟨fun c => by rw [hsame.configuration], fun c => .inr (hfollows c), fun t ht => ?_⟩
    exact ht.of_marks (by rw [hsame.registry])

theorem updateRegistry_works {f : Registry → Registry}
    (hf : ∀ reg t, reg.Incomplete t → (f reg).Incomplete t) :
    Keeps (Works busy e₀) (updateRegistry f) :=
  .change fun e he => he.trans ⟨fun _ => rfl, fun _ => .inr ⟨id, id⟩, fun t => hf e.registry t⟩

/-- A change of a configuration that may only open it if it is busy. -/
theorem updateConfiguration_works {f : Configuration → Configuration}
    (htype : ∀ cfg, (f cfg).type = cfg.type)
    (hf : ∀ cfg : Configuration, busy c ∨ cfg.Follows (f cfg)) :
    Keeps (Works busy e₀) (updateConfiguration c f) := by
  refine .change fun e he => he.trans ⟨fun c' => ?_, fun c' => ?_, fun _ h => h⟩
  · rcases configuration_updateConfiguration (e := e) c c' f with heq | heq <;> rw [heq]
    exact htype _
  · rcases configuration_updateConfiguration_cases (e := e) c c' f with heq | ⟨rfl, heq⟩ <;>
      rw [heq]
    · exact .inr ⟨id, id⟩
    · exact hf _

theorem amend_works (id : Nat) (f : Rule → Rule) :
    Keeps (Works busy e₀) (modify (Engine.amend id f) : Action Unit) := by
  refine .change fun e he => he.trans ⟨fun c => ?_, fun c => .inr ?_, fun _ h => h⟩ <;>
    rw [configuration_amend]
  exact ⟨fun h => h, fun h => h⟩

/-- What builders there are, and what they hold, does not matter. -/
theorem builders_works {f : Engine → Engine} (h : ∀ e, (f e).configurations = e.configurations ∧
    (f e).registry = e.registry) : Keeps (Works busy e₀) (modify f : Action Unit) := by
  refine .change fun e he => he.trans ?_
  obtain ⟨hconfigurations, hregistry⟩ := h e
  have hsame : ∀ c, (f e).configuration c = e.configuration c := fun c => by
    rw [Engine.configuration, hconfigurations, Engine.configuration]
  exact ⟨fun c => by rw [hsame], fun c => .inr (by rw [hsame]; exact ⟨id, id⟩),
    fun _ ht => ht.of_marks (by rw [hregistry])⟩

theorem updateBuilder_works (b : Nat) (f : Builder → Builder) :
    Keeps (Works busy e₀) (modify (Engine.updateBuilder b f) : Action Unit) :=
  builders_works fun _ => ⟨rfl, rfl⟩

theorem updateCurrent_works (c : Nat) (f : PendingRule → PendingRule) :
    Keeps (Works busy e₀) (updateCurrent c f) := by
  refine updateConfiguration_works (fun _ => rfl) fun cfg => .inr ?_
  have hstarted : cfg.current.map f ≠ none → cfg.current ≠ none := fun h hnone => h (by simp [hnone])
  exact ⟨Or.imp_left hstarted, hstarted⟩

/-- Any change of a configuration that leaves its type is work on it. -/
theorem updateBusy_works {f : Configuration → Configuration}
    (htype : ∀ cfg, (f cfg).type = cfg.type) :
    Keeps (Works (· = c) e₀) (updateConfiguration c f) :=
  updateConfiguration_works htype fun _ => .inl rfl

theorem start_works (c : Nat) (p : PendingRule) : Keeps (Works (· = c) e₀) (start c p) :=
  updateBusy_works fun _ => by rfl

theorem removeRules_works (t : TypeId) (member : Option MemberRef) (doomed : Rule → Bool) :
    Keeps (Works busy e₀) (removeRules t member doomed) :=
  removeRules_keeps_of (updateRegistry_works fun _ _ h => h.of_marks rfl)

/-- Registering a type that is not known leaves incomplete types as they are: these are known. -/
theorem addRules_works {e : Engine} {t : TypeId} (hnew : e.registry.knows t = false)
    (rs : List Rule) : Works busy e (addRules t rs true e).2 := by
  refine ⟨fun _ => rfl, fun _ => .inr ⟨id, id⟩, fun u hu => ?_⟩
  have hne : u ≠ t := by
    rintro rfl
    rw [hu.knows] at hnew
    cases hnew
  exact (hu.of_marks (Registry.marks_addAll _ _ rs)).mark_of_ne hne true

theorem ensureWithin_works (depth : Nat) (t : TypeId) :
    Keeps (Works busy e₀) (ensureWithin depth t) :=
  ensureWithin_keeps_of (fun _ _ hsame hnew he' =>
    he'.trans (addRules_works (by rwa [hsame.registry]) _)) depth t

theorem ensure_works (t : TypeId) : Keeps (Works busy e₀) (ensure t) :=
  .andThen schema_keeps fun _ => ensureWithin_works _ t

/-! ## 4. Parts of a configuration -/

theorem touch_works (c : Nat) : Keeps (Works busy e₀) (touch c) :=
  .andThen (configuration_keeps c) fun _ => updateRegistry_works fun _ _ h => h.mark _

/-- Putting away the member that was started last opens no configuration: one with such a member is
open already. -/
theorem commit_works (c : Nat) : Keeps (Works busy e₀) (commit c) := by
  intro e he
  refine ⟨?_, fun _ _ => trivial⟩
  cases hcurrent : (e.configuration c).current with
  | none =>
    rw [commit_of_current_eq_none hcurrent]
    exact he
  | some p =>
    have hstarted : busy c ∨ (e₀.configuration c).current ≠ none :=
      (he.follows c).imp_right fun hfollows => hfollows.started (by simp [hcurrent])
    have hput : Keeps (Works (fun c' => busy c' ∨ c' = c) e₀) (putAway c (e.configuration c) p) :=
      putAway_keeps (updateConfiguration_works (fun _ => rfl) fun _ => .inl (.inr rfl))
    have htaken : Keeps (Works (fun c' => busy c' ∨ c' = c) e₀) (updateConfiguration c fun cfg =>
        { cfg with current := none }) :=
      updateConfiguration_works (fun _ => rfl) fun _ => .inl (.inr rfl)
    rw [commit_of_current_eq_some hcurrent]
    exact ((hput _ (htaken e (he.mono fun _ => .inl)).1).1).settle hstarted

theorem provide_works (c : Nat) (m : MemberRef) (x : Expr) :
    Keeps (Works busy e₀) (provide c m x) :=
  provide_keeps (updateConfiguration_works (fun _ => rfl) fun _ => .inr ⟨id, id⟩)

theorem attach_works (c : Nat) (a : Attribute) : Keeps (Works busy e₀) (attach c a) :=
  .andThen (requireCurrent_keeps c _) fun _ => updateCurrent_works c _

theorem checkStep_works (c : Nat) (step : CheckStep) : Keeps (Works busy e₀) (checkStep c step) :=
  checkStep_keeps (updateCurrent_works c) (provide_works c) step

theorem drop_works (c : Nat) (m : MemberRef) : Keeps (Works busy e₀) (drop c m) := by
  refine .andThen (configuration_keeps c) fun _ => .andThen (removeRules_works _ _ _) fun _ => ?_
  refine updateConfiguration_works (fun _ => rfl) fun cfg => .inr ⟨?_, id⟩
  have hpending : (cfg.dropPending m.key).pending ≠ [] → cfg.pending ≠ [] := fun h hnil =>
    h (by simp [Configuration.dropPending, hnil])
  exact Or.imp_right (Or.imp_left hpending)

/-! ## 5. Steps that are safe -/

/-- What work leaves the engine in, if a configuration is at work whose type is marked. -/
theorem keeps_safe_of_works {x : Action α} {e : Engine} (hx : Keeps (Works (· = c) e) x)
    (hc : e.registry.Incomplete (e.configuration c).type) : Safe e (x e).2 :=
  (hx e (.refl _ e)).1.safe hc

/-- A step that opens no configuration is safe. -/
theorem safe_of_works {x : Action α} (hx : ∀ e, Keeps (Works (fun _ => False) e) x) :
    Keeps (Safe e₀) x := fun e he =>
  ⟨he.trans ((hx e e (.refl _ e)).1.safe_of_none), fun _ _ => trivial⟩

theorem incomplete_touch (c : Nat) (e : Engine) :
    (touch c e).2.registry.Incomplete ((touch c e).2.configuration c).type :=
  Registry.incomplete_mark _ _

/-- **A step that selects a member first is safe**, whatever it does with the configuration then. -/
theorem touch_safe {f : Unit → Action α} (hf : ∀ e, Keeps (Works (· = c) e) (f ())) :
    Keeps (Safe e₀) (touch c >>= f) := by
  intro e he
  unfold KeepsFrom
  rw [bind_ok (show touch c e = (.ok (), (touch c e).2) from rfl)]
  have htouched : Safe e (touch c e).2 := ((touch_works c e (.refl _ e)).1).safe_of_none
  have hworked := keeps_safe_of_works (hf _) (incomplete_touch c e)
  exact ⟨he.trans (htouched.trans hworked), fun _ _ => trivial⟩

theorem begin_safe {sel : Selector} {f : MemberRef → Action α}
    (hf : ∀ e m, Keeps (Works (· = c) e) (f m)) : Keeps (Safe e₀) (begin c sel >>= f) := by
  have hbegin : begin c sel >>= f = (do
      commit c
      touch c
      let m ← select (← configuration c).type sel
      f m) := by
    unfold begin
    simp only [bind_assoc]
  rw [hbegin]
  refine .andThen (safe_of_works fun e => commit_works c) fun _ => touch_safe fun e => ?_
  exact .andThen (configuration_keeps c) fun _ => .andThen (select_keeps _ sel) fun m => hf e m

theorem startRule_safe (c : Nat) (sel : Selector) (must : Option Expr)
    (message : Option MessageSource) (replace : Bool) :
    Keeps (Safe e₀) (startRule c sel must message replace) := by
  rw [startRule_eq]
  refine begin_safe fun e m => ?_
  have hstarted : Keeps (Works (· = c) e) (do start c { member := m }; furnish c must message) :=
    .andThen (start_works c _) fun _ =>
      furnish_keeps (attach_works c) (checkStep_works c) must message
  cases replace with
  | true => exact .andThen (drop_works c m) fun _ => hstarted
  | false => exact hstarted

theorem newBuilder_safe (c : Nat) (sel : Selector) (forEach : Bool) (name : Option String) :
    Keeps (Safe e₀) (newBuilder c sel forEach name) := by
  refine begin_safe fun e m => .get_bind fun e₁ he₁ => ?_
  have hlist : Keeps (Works (· = c) e) (do
      updateConfiguration c fun cfg =>
        { cfg with builders := cfg.builders ++ [e₁.builders.length] }
      return e₁.builders.length) := .andThen (updateBusy_works fun _ => rfl) fun _ => .pure trivial
  exact Keeps.andThen (builders_works fun _ => by exact ⟨rfl, rfl⟩) (fun _ => hlist) e₁ he₁

theorem startGated_safe (c : Nat) (sel : Option Selector) : Keeps (Safe e₀) (startGated c sel) := by
  cases sel with
  | none =>
    refine safe_of_works fun e => .andThen (configuration_keeps c) fun cfg => ?_
    cases cfg.current.isNone with
    | true => exact .andThen (refuse_keeps _) fun _ => updateCurrent_works c _
    | false => exact updateCurrent_works c _
  | some sel =>
    refine touch_safe fun e => .andThen (configuration_keeps c) fun _ =>
      .andThen (select_keeps _ sel) fun m => .andThen (configuration_keeps c) fun cfg => ?_
    cases cfg.current.any fun p => !p.checks.isEmpty && p.member.key == m.key with
    | true => exact updateCurrent_works c _
    | false => exact .andThen (commit_works c) fun _ => start_works c _

theorem exclude_safe (c : Nat) (sel : Selector) : Keeps (Safe e₀) (exclude c sel) := by
  refine begin_safe fun e m => .andThen (drop_works c m) fun _ => .get_bind fun e₁ he₁ => ?_
  exact Keeps.andThen (updateBusy_works fun _ => by rfl)
    (fun _ => start_works c _) e₁ he₁

theorem always_safe (c : Nat) (sel : Selector) : Keeps (Safe e₀) (always c sel) :=
  begin_safe fun _ _ => start_works c _

theorem dropMember_safe (c : Nat) (sel : Selector) (kind : Option String) :
    Keeps (Safe e₀) (dropMember c sel kind) :=
  begin_safe fun _ _ => .andThen (touch_works c) fun _ => .andThen (configuration_keeps c) fun _ =>
    .andThen (removeRules_works _ _ _) fun _ =>
    .andThen (updateBusy_works fun _ => by rfl) fun _ =>
    .forM fun b _ => updateBuilder_works b _

theorem keepOnly_safe (c : Nat) (sel : Selector) : Keeps (Safe e₀) (keepOnly c sel) := by
  refine begin_safe fun e m => .andThen (touch_works c) fun _ => .andThen (configuration_keeps c)
    fun _ => .andThen (removeRules_works _ _ _) fun _ => .get_bind fun e₁ he₁ => ?_
  exact updateBusy_works (fun _ => by rfl) e₁ he₁

theorem clear_safe (c : Nat) : Keeps (Safe e₀) (clear c) :=
  .andThen (safe_of_works fun _ => commit_works c) fun _ => touch_safe fun _ =>
    .andThen (configuration_keeps c) fun _ => .andThen (removeRules_works _ _ _) fun _ =>
    updateBusy_works fun _ => by rfl

/-- Changing settings opens no configuration. -/
theorem updateSetting_safe (c : Nat) {f : Configuration → Configuration}
    (htype : ∀ cfg, (f cfg).type = cfg.type)
    (hf : ∀ cfg : Configuration, cfg.Follows (f cfg)) :
    Keeps (Safe e₀) (updateConfiguration c f) :=
  safe_of_works fun _ => updateConfiguration_works htype fun cfg => .inr (hf cfg)

/-! ## 6. Starting a configuration -/

/-- A configuration starts with nothing gathered. -/
theorem newConfiguration_safe (t : TypeId) : Keeps (Safe e₀) (newConfiguration t) := by
  refine .andThen (safe_of_works fun _ => ensure_works t) fun _ => .get_bind fun e he => ?_
  refine Keeps.andThen (.change fun e he => he.trans ⟨fun c hc => ?_, fun _ h => h⟩)
    (fun _ => .pure trivial) e he
  rw [configuration_newConfiguration] at hc ⊢
  by_cases hlt : c < e.configurations.length
  · rw [if_pos hlt] at hc ⊢
    exact .inl ⟨hc, rfl⟩
  · rw [if_neg hlt] at hc
    refine absurd hc ?_
    split <;> exact Configuration.not_isOpen rfl rfl rfl

theorem configure_safe (t : TypeId) : Keeps (Safe e₀) (configure t) :=
  configure_keeps_of (newConfiguration_safe t) fun _ =>
    safe_of_works fun _ => aside_keeps fun _ => ⟨rfl, rfl, rfl⟩

theorem newChild_safe (c : Nat) (t : TypeId) : Keeps (Safe e₀) (newChild c t) :=
  .andThen (newConfiguration_safe t) fun child =>
    .andThen (safe_of_works fun _ => configuration_keeps c) fun _ =>
    .andThen (updateSetting_safe child (fun _ => by rfl) fun _ => ⟨id, id⟩) fun _ => .pure trivial

theorem switch_safe (c : Nat) (t : TypeId) : Keeps (Safe e₀) (switch c t) :=
  .andThen (safe_of_works fun _ => commit_works c) fun _ => configure_safe t

/-! ## 7. Steps of a builder -/

theorem attachTo_works (b : Nat) (a : Attribute) : Keeps (Works busy e₀) (attachTo b a) :=
  .andThen (builder_keeps b) fun _ => .andThen (builderType_keeps b) fun _ =>
    .andThen (newRule_keeps _ _ _ _) fun _ => updateBuilder_works b _

theorem builderCheckStep_works (b : Nat) (step : CheckStep) :
    Keeps (Works busy e₀) (builderCheckStep b step) :=
  builderCheckStep_keeps (attachTo_works b) (fun id _ _ => amend_works id _) provide_works step

theorem guardRules_works (g : Guard) (rs : List Rule) :
    Keeps (Works busy e₀) (guardRules g rs) := .forM fun r _ => amend_works r.id _

/-! ## 8. Building -/

theorem gather_works (cfg : Configuration) : Keeps (Works busy e₀) (gather cfg) :=
  gather_keeps cfg fun id => amend_works id _

end Action

/-- What building a configuration ends in: the configuration is closed, all others are as they were,
and all types are but its own. -/
structure Engine.Ends (c : Nat) (e e' : Engine) : Prop where
  types : ∀ c', (e'.configuration c').type = (e.configuration c').type
  closed : ¬ (e'.configuration c).IsOpen
  opened : ∀ c', c' ≠ c → (e'.configuration c').IsOpen → (e.configuration c').IsOpen
  incomplete : ∀ t, t ≠ (e.configuration c).type → e.registry.Incomplete t →
    e'.registry.Incomplete t

/-- Work on no configuration before building changes nothing about what building ends in. -/
theorem Engine.Works.ends {c : Nat} {e e' e'' : Engine} (h : Works (fun _ => False) e e')
    (h' : Ends c e' e'') : Ends c e e'' where
  types c' := (h'.types c').trans (h.types c')
  closed := h'.closed
  opened c' hne hopen := (h.follows_of_none c').opened (h'.opened c' hne hopen)
  incomplete t ht hmarked := h'.incomplete t (h.types c ▸ ht) (h.incomplete t hmarked)

/-- Work on no configuration after building changes nothing about it either. -/
theorem Engine.Ends.works {c : Nat} {e e' e'' : Engine} (h : Ends c e e')
    (h' : Works (fun _ => False) e' e'') : Ends c e e'' where
  types c' := (h'.types c').trans (h.types c')
  closed hopen := h.closed ((h'.follows_of_none c).opened hopen)
  opened c' hne hopen := h.opened c' hne ((h'.follows_of_none c').opened hopen)
  incomplete t ht hmarked := h'.incomplete t (h.incomplete t ht hmarked)

namespace Action

variable {e e' : Engine} {c : Nat}

/-- Building a configuration with nothing gathered only completes its type. -/
theorem ends_of_isIdle (hcurrent : (e.configuration c).current = none)
    (hidle : (e.configuration c).isIdle = true) :
    Ends c e (updateRegistry (fun reg => reg.mark (e.configuration c).type) e).2 where
  types _ := rfl
  closed := by
    simp only [Configuration.isIdle, Bool.and_eq_true, List.isEmpty_iff] at hidle
    exact Configuration.not_isOpen hcurrent hidle.1.1.1 hidle.1.1.2
  opened _ _ h := h
  incomplete _ ht h := h.mark_of_ne ht true

theorem finish_ends (hcurrent : (e.configuration c).current = none) {cfg : Configuration}
    (htype : cfg.type = (e.configuration c).type) (rs : List Rule) :
    Ends c e (finish c cfg rs e).2 := by
  let emptied (cfg : Configuration) : Configuration :=
    { cfg.emptied with lastBuild := rs, settingsChanged := false }
  have hconfiguration : ∀ c', (finish c cfg rs e).2.configuration c' =
      (e.updateConfiguration c emptied).configuration c' := fun _ => rfl
  refine ⟨fun c' => ?_, ?_, fun c' hne hopen => ?_, fun t ht hmarked => ?_⟩
  · rw [hconfiguration]
    rcases configuration_updateConfiguration (e := e) c c' emptied with heq | heq <;> rw [heq]
    rfl
  · rw [hconfiguration]
    rcases updateConfiguration_self_or_default e c emptied with heq | ⟨-, heq⟩ <;> rw [heq]
    · exact Configuration.not_isOpen hcurrent rfl rfl
    · exact Configuration.not_isOpen rfl rfl rfl
  · rwa [hconfiguration, configuration_updateConfiguration_of_ne hne.symm] at hopen
  · exact (hmarked.of_marks (Registry.marks_addAll _ _ rs)).mark_of_ne (htype ▸ ht) true

/-- **Building a configuration closes it and completes its type**, or fails and is safe. -/
theorem build_ends (c : Nat) (e : Engine) :
    (build c e).1.isOk = true ∧ Ends c e (build c e).2 ∨
      (build c e).1.isOk = false ∧ Safe e (build c e).2 := by
  have hcommit := (commit_works c e (.refl (fun _ => False) e)).1
  rw [build_eq]
  rcases hdone : commit c e with ⟨f | done, e₁⟩
  · rw [bind_error hdone]
    rw [hdone] at hcommit
    exact .inr ⟨rfl, hcommit.safe_of_none⟩
  rw [hdone] at hcommit
  rw [bind_ok hdone, configuration_bind]
  have hcurrent := settled_of_commit hdone
  cases hidle : (e₁.configuration c).isIdle with
  | true => exact .inl ⟨rfl, hcommit.ends (ends_of_isIdle hcurrent hidle)⟩
  | false =>
    simp only [Bool.false_eq_true, if_false]
    have hgather := ((gather_works (e₁.configuration c)) e₁ (.refl (fun _ => False) e₁)).1
    rcases hrules : gather (e₁.configuration c) e₁ with ⟨f | rs, e₂⟩
    · rw [bind_error hrules]
      rw [hrules] at hgather
      exact .inr ⟨rfl, (hcommit.trans hgather).safe_of_none⟩
    · rw [bind_ok hrules]
      rw [hrules] at hgather
      have hcurrent' : (e₂.configuration c).current = none :=
        Classical.not_not.mp fun h => (hgather.follows_of_none c).started h hcurrent
      have hends := finish_ends hcurrent' (hgather.types c).symm rs
      exact .inl ⟨rfl, (hcommit.trans hgather).ends hends⟩

end Action
end MemberRules
