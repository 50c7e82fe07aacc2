/-
# What has been gathered stays gathered

A check that has been attached is gathered by its configuration until it is registered or dropped.
Checks are gathered in two places, for a member of the configuration and in a builder that the
configuration lists, and most steps move them about: selecting a member puts the checks of the
member before away, messages and gates are set on them, blocks put guards in front of them.  No
step loses one on the way.

Dropping is said of one configuration.  A step that drops checks of another configuration leaves
those of this one alone, since a builder is listed by its owner only.

* `Engine.HasGathered`: a check that a configuration will register.
* `Engine.Owned`: builders are listed by their owners.
* `Engine.Holds`: an engine in which given checks are gathered.
* `…_holds`: what the parts of the steps keep.
* `Call.after_holds`: a call keeps what it neither drops nor registers.
-/
import MemberRules.Proofs.Configuration.Calls

namespace MemberRules

open MemberRules.Computation MemberRules.Engine

/-! ## 1. What is gathered -/

/-- A check that has been attached to a member of a configuration. -/
def Configuration.Checks (cfg : Configuration) (a : Attribute) : Prop :=
  ∃ p, (cfg.current = some p ∨ p ∈ cfg.pending) ∧ ∃ k ∈ p.checks, k.validator = a

/-- A check that a builder has attached. -/
def Builder.Checks (x : Builder) (a : Attribute) : Prop := ∃ r ∈ x.rules, r.validator = some a

/-- A configuration that lists the same builders as another one and has all of its checks. -/
structure Configuration.Retains (cfg cfg' : Configuration) : Prop where
  builders : cfg'.builders = cfg.builders
  checks : ∀ a, cfg.Checks a → cfg'.Checks a

/-- A member with all checks of another one. -/
def PendingRule.Retains (p p' : PendingRule) : Prop :=
  ∀ k ∈ p.checks, ∃ k' ∈ p'.checks, k'.validator = k.validator

namespace Engine

variable {e e' : Engine} {c : Nat} {a : Attribute} {P : Nat → Attribute → Prop}

/-- A check that a configuration will register when it is built: one that was attached to a member, or
by a builder that is listed. -/
inductive HasGathered (e : Engine) (c : Nat) (a : Attribute) : Prop
  | member (h : (e.configuration c).Checks a)
  | builder (b : Nat) (hb : b ∈ (e.configuration c).builders) (h : (e.builder b).Checks a)

/-- Configurations list builders that there are, and that they own. -/
def Owned (e : Engine) : Prop :=
  ∀ c, ∀ b ∈ (e.configuration c).builders, b < e.builders.length ∧ (e.builder b).owner = c

/-- An engine in which given checks of configurations are gathered. -/
structure Holds (P : Nat → Attribute → Prop) (e : Engine) : Prop where
  owned : e.Owned
  gathers : ∀ c a, P c a → e.HasGathered c a

/-- A property of what is gathered: of configurations and builders alone. -/
class OfGathered (I : Engine → Prop) : Prop where
  of_same : ∀ {e e'}, e'.configurations = e.configurations → e'.builders = e.builders → I e → I e'

instance (I : Engine → Prop) [OfGathered I] : Stable I where
  of_sameWork hsame he := OfGathered.of_same hsame.configurations hsame.builders he

instance (I J : Engine → Prop) [OfGathered I] [OfGathered J] : OfGathered fun e => I e ∧ J e where
  of_same hconfigurations hbuilders he :=
    ⟨OfGathered.of_same hconfigurations hbuilders he.1,
      OfGathered.of_same hconfigurations hbuilders he.2⟩

instance (c : Nat) : OfGathered (Settled c) where
  of_same hconfigurations _ he := by
    unfold Settled Engine.configuration
    rw [hconfigurations]
    exact he

theorem HasGathered.isOpen (h : e.HasGathered c a) : (e.configuration c).IsOpen := by
  cases h with
  | member h =>
    obtain ⟨p, hcurrent | hpending, -⟩ := h
    · exact .inl fun hnone => by rw [hnone] at hcurrent; cases hcurrent
    · exact .inr (.inl (List.ne_nil_of_mem hpending))
  | builder b hb h => exact .inr (.inr (List.ne_nil_of_mem hb))

instance (P : Nat → Attribute → Prop) : OfGathered (Holds P) where
  of_same {e e'} hconfigurations hbuilders he := by
    have hconfiguration : ∀ c, e'.configuration c = e.configuration c := fun c => by
      rw [Engine.configuration, hconfigurations, Engine.configuration]
    have hbuilder : ∀ b, e'.builder b = e.builder b := fun b => by
      rw [Engine.builder, hbuilders, Engine.builder]
    constructor
    · intro c b hb
      rw [hconfiguration] at hb
      rw [hbuilders, hbuilder]
      exact he.owned c b hb
    · intro c a hP
      rcases he.gathers c a hP with hmember | ⟨b, hb, hchecks⟩
      · exact .member (hconfiguration c ▸ hmember)
      · exact .builder b (hconfiguration c ▸ hb) (hbuilder b ▸ hchecks)

/-! ### Changes of a configuration -/

/-- A change of a configuration that retains its checks. -/
theorem Holds.updateConfiguration (h : e.Holds P) {f : Configuration → Configuration}
    (hf : (e.configuration c).Retains (f (e.configuration c))) :
    (e.updateConfiguration c f).Holds P := by
  have hretains : ∀ c', (e.configuration c').Retains
      ((e.updateConfiguration c f).configuration c') := fun c' => by
    by_cases hc : c = c'
    · subst hc
      rcases updateConfiguration_self_or_default e c f with heq | ⟨hdefault, heq⟩
      · rwa [heq]
      · rw [heq, hdefault]
        exact ⟨rfl, fun _ h => h⟩
    · rw [configuration_updateConfiguration_of_ne hc]
      exact ⟨rfl, fun _ h => h⟩
  constructor
  · intro c' b hb
    rw [(hretains c').builders] at hb
    exact h.owned c' b hb
  · intro c' a hP
    rcases h.gathers c' a hP with hmember | ⟨b, hb, hbuilder⟩
    · exact .member ((hretains c').checks a hmember)
    · exact .builder b ((hretains c').builders ▸ hb) hbuilder

/-- A change of a configuration of which nothing is held. -/
theorem Holds.changeFree (h : e.Holds P) (hP : ∀ a, ¬ P c a) {f : Configuration → Configuration}
    (hf : ∀ cfg, (f cfg).builders ⊆ cfg.builders) : (e.updateConfiguration c f).Holds P := by
  constructor
  · intro c' b hb
    refine h.owned c' b ?_
    rcases configuration_updateConfiguration (e := e) c c' f with heq | heq <;> rw [heq] at hb
    · exact hb
    · exact hf _ hb
  · intro c' a hPc
    have hne : c ≠ c' := fun heq => hP a (heq ▸ hPc)
    rcases h.gathers c' a hPc with hmember | ⟨b, hb, hbuilder⟩
    · refine .member ?_
      rwa [configuration_updateConfiguration_of_ne hne]
    · refine .builder b ?_ hbuilder
      rwa [configuration_updateConfiguration_of_ne hne]

/-! ### Changes of a builder -/

/-- A change of a builder: one that retains its checks, or any if nothing is held of its owner. -/
theorem Holds.updateBuilder (h : e.Holds P) {b : Nat} {f : Builder → Builder}
    (howner : ∀ x, (f x).owner = x.owner)
    (hf : (∀ a, ¬ P (e.builder b).owner a) ∨ ∀ x a, x.Checks a → (f x).Checks a) :
    (e.updateBuilder b f).Holds P := by
  have howners : ∀ b', ((e.updateBuilder b f).builder b').owner = (e.builder b').owner := by
    intro b'
    rw [builder_updateBuilder]
    split
    · exact howner _
    · rfl
  have hlength : (e.updateBuilder b f).builders.length = e.builders.length := by
    simp [Engine.updateBuilder]
  constructor
  · intro c b' hb'
    rw [howners, hlength]
    exact h.owned c b' hb'
  · intro c a hP
    rcases h.gathers c a hP with hmember | ⟨b', hb', hbuilder⟩
    · exact .member hmember
    · refine .builder b' hb' ?_
      rw [builder_updateBuilder]
      split
      · rename_i heq
        obtain ⟨rfl, -⟩ := heq
        rcases hf with hfree | hf
        · rw [(h.owned c b hb').2] at hfree
          exact absurd hP (hfree a)
        · exact hf _ a hbuilder
      · exact hbuilder

/-- A change of a rule that keeps its check. -/
theorem Holds.amend (h : e.Holds P) (id : Nat) {f : Rule → Rule}
    (hf : ∀ r, (f r).validator = r.validator) : (e.amend id f).Holds P := by
  have hchecks : ∀ b a, (e.builder b).Checks a → ((e.amend id f).builder b).Checks a := by
    rintro b a ⟨r, hr, ha⟩
    rw [builder_amend]
    refine ⟨_, List.mem_map_of_mem hr, ?_⟩
    split
    · rw [hf, ha]
    · exact ha
  constructor
  · intro c b hb
    rw [configuration_amend] at hb
    rw [builder_amend]
    refine ⟨?_, (h.owned c b hb).2⟩
    simpa [Engine.amend] using (h.owned c b hb).1
  · intro c a hP
    rcases h.gathers c a hP with hmember | ⟨b, hb, hbuilder⟩
    · refine .member ?_
      rw [configuration_amend]
      exact hmember
    · refine .builder b ?_ (hchecks b a hbuilder)
      rw [configuration_amend]
      exact hb

theorem HasGathered.lt (h : e.HasGathered c a) : c < e.configurations.length := by
  by_contra hge
  have hdefault : e.configuration c = default := by
    unfold Engine.configuration
    rw [List.getElem?_eq_none (not_lt.mp hge)]
    rfl
  refine absurd h.isOpen ?_
  rw [hdefault]
  exact Configuration.not_isOpen rfl rfl rfl

/-- A new configuration has gathered nothing. -/
theorem Holds.newConfiguration (h : e.Holds P) {cfg : Configuration} (hcfg : cfg.builders = []) :
    { e with configurations := e.configurations ++ [cfg] }.Holds P := by
  constructor
  · intro c b hb
    rw [configuration_newConfiguration] at hb
    split at hb
    · exact h.owned c b hb
    · split at hb
      · rw [hcfg] at hb
        cases hb
      · cases hb
  · intro c a hP
    have hgathers := h.gathers c a hP
    have hsame : { e with configurations := e.configurations ++ [cfg] }.configuration c =
        e.configuration c := by rw [configuration_newConfiguration, if_pos hgathers.lt]
    rcases hgathers with hmember | ⟨b, hb, hbuilder⟩
    · exact .member (hsame ▸ hmember)
    · exact .builder b (hsame ▸ hb) hbuilder

/-- A new builder is not listed yet. -/
theorem Holds.newBuilder (h : e.Holds P) (x : Builder) (named : List (String × Nat)) :
    { e with builders := e.builders ++ [x], named }.Holds P := by
  have hsame : ∀ b < e.builders.length,
      { e with builders := e.builders ++ [x], named }.builder b = e.builder b := fun b hb => by
    rw [builder_newBuilder, if_pos hb]
  constructor
  · intro c b hb
    obtain ⟨hlt, howner⟩ := h.owned c b hb
    rw [hsame b hlt]
    exact ⟨by simp only [List.length_append]; omega, howner⟩
  · intro c a hP
    rcases h.gathers c a hP with hmember | ⟨b, hb, hbuilder⟩
    · exact .member hmember
    · exact .builder b hb (by rwa [hsame b (h.owned c b hb).1])

/-- A builder may be listed by its owner. -/
theorem Holds.list (h : e.Holds P) {b : Nat} (hmade : b < e.builders.length)
    (howner : (e.builder b).owner = c) :
    (e.updateConfiguration c fun cfg => { cfg with builders := cfg.builders ++ [b] }).Holds P := by
  constructor
  · intro c' b' hb'
    rcases configuration_updateConfiguration_cases (e := e) c c' _ with heq | ⟨rfl, heq⟩ <;>
      rw [heq] at hb'
    · exact h.owned c' b' hb'
    · rcases List.mem_append.mp hb' with hlisted | hnew
      · exact h.owned c b' hlisted
      · obtain rfl := List.mem_singleton.mp hnew
        exact ⟨hmade, howner⟩
  · intro c' a hP
    rcases h.gathers c' a hP with hmember | ⟨b', hb', hbuilder⟩
    · refine .member ?_
      rcases configuration_updateConfiguration (e := e) c c' _ with heq | heq <;> rw [heq] <;>
        exact hmember
    · refine .builder b' ?_ hbuilder
      rcases configuration_updateConfiguration (e := e) c c' _ with heq | heq <;> rw [heq]
      · exact hb'
      · exact List.mem_append_left _ hb'

end Engine

/-! ## 2. The registry -/

namespace Action

variable {α β : Type} {b c : Nat} {P : Nat → Attribute → Prop}

section

variable {I : Engine → Prop} [OfGathered I]

theorem updateRegistry_keeps (f : Registry → Registry) : Keeps I (updateRegistry f) :=
  .change fun e he => OfGathered.of_same (e := e) rfl rfl he

theorem touch_keeps (c : Nat) : Keeps I (touch c) :=
  .andThen (configuration_keeps c) fun _ => updateRegistry_keeps _

theorem removeRules_keeps (t : TypeId) (member : Option MemberRef) (doomed : Rule → Bool) :
    Keeps I (removeRules t member doomed) :=
  removeRules_keeps_of (updateRegistry_keeps _)

theorem addRules_keeps (t : TypeId) (rs : List Rule) : Keeps I (addRules t rs true) :=
  .andThen (updateRegistry_keeps _) fun _ => .andThen (updateRegistry_keeps _) fun _ =>
    note_keeps _ _ _

theorem ensureWithin_keeps (depth : Nat) (t : TypeId) : Keeps I (ensureWithin depth t) :=
  ensureWithin_keeps_of (fun _ _ _ _ he' => (addRules_keeps _ _ _ he').1) depth t

theorem ensure_keeps (t : TypeId) : Keeps I (ensure t) :=
  .andThen schema_keeps fun _ => ensureWithin_keeps _ t

end

/-! ## 3. Parts of a configuration -/

/-- A change of a configuration that retains its checks. -/
theorem updateConfiguration_holds {f : Configuration → Configuration}
    (hf : ∀ cfg : Configuration, cfg.Retains (f cfg)) :
    Keeps (Holds P) (updateConfiguration c f) :=
  .change fun _ he => he.updateConfiguration (hf _)

/-- A change of a configuration of which nothing is held. -/
theorem updateFree_holds (hP : ∀ a, ¬ P c a) {f : Configuration → Configuration}
    (hf : ∀ cfg : Configuration, (f cfg).builders ⊆ cfg.builders) :
    Keeps (Holds P) (updateConfiguration c f) :=
  .change fun _ he => he.changeFree hP hf

theorem updateCurrent_holds {f : PendingRule → PendingRule}
    (hf : ∀ p : PendingRule, p.Retains (f p)) : Keeps (Holds P) (updateCurrent c f) := by
  refine updateConfiguration_holds fun cfg => ⟨rfl, ?_⟩
  rintro a ⟨p, hcurrent | hpending, k, hk, ha⟩
  · obtain ⟨k', hk', heq⟩ := hf p k hk
    exact ⟨f p, .inl (by simp [hcurrent]), k', hk', heq.trans ha⟩
  · exact ⟨p, .inr hpending, k, hk, ha⟩

theorem commit_holds (c : Nat) : Keeps (Holds P) (commit c) := by
  intro e he
  refine ⟨?_, fun _ _ => trivial⟩
  cases hcurrent : (e.configuration c).current with
  | none =>
    rw [commit_of_current_eq_none hcurrent]
    exact he
  | some p =>
    rw [commit_of_current_eq_some hcurrent]
    cases hempty : p.checks.isEmpty with
    | true =>
      have hnone : p.checks = [] := List.isEmpty_iff.mp hempty
      have htaken : (e.updateConfiguration c fun cfg => { cfg with current := none }).Holds P := by
        refine he.updateConfiguration ⟨rfl, ?_⟩
        rintro a ⟨p', hp' | hp', k, hk, ha⟩
        · rw [hcurrent] at hp'
          cases hp'
          rw [hnone] at hk
          cases hk
        · exact ⟨p', .inr hp', k, hk, ha⟩
      refine (putAway_keeps (updateConfiguration_holds fun cfg => ⟨rfl, ?_⟩) _ htaken).1
      rintro a ⟨p', hp', k, hk, ha⟩
      exact ⟨p', hp'.imp_right (List.mem_append_left _), k, hk, ha⟩
    | false =>
      -- In between, the checks of the member are nowhere.
      have hput : putAway c (e.configuration c) p
          (e.updateConfiguration c fun cfg => { cfg with current := none }) =
            (.ok (), e.updateConfiguration c fun cfg =>
              { cfg with current := none, pending := cfg.pending ++ [p] }) := by
        unfold putAway
        simp only [hempty, Bool.false_and, Bool.false_eq_true, if_false]
        exact congrArg (Prod.mk (Except.ok ())) (updateConfiguration_twice _ _)
      rw [hput]
      refine he.updateConfiguration ⟨rfl, ?_⟩
      rintro a ⟨p', hp' | hp', k, hk, ha⟩
      · rw [hcurrent] at hp'
        cases hp'
        exact ⟨p, .inr (List.mem_append_right _ List.mem_cons_self), k, hk, ha⟩
      · exact ⟨p', .inr (List.mem_append_left _ hp'), k, hk, ha⟩

/-- A step that may only be made while no member is started. -/
def Starts (P : Nat → Attribute → Prop) (c : Nat) (x : Action α) : Prop :=
  ∀ e, e.Holds P → e.Settled c → (x e).2.Holds P

theorem commit_starts {x : Action α} (hx : Starts P c x) :
    Keeps (Holds P) (commit c >>= fun _ => x) := by
  intro e he
  refine ⟨?_, fun _ _ => trivial⟩
  have hcommit := (commit_holds c e he).1
  rw [bind_apply]
  rcases hdone : commit c e with ⟨f | done, e₁⟩ <;> rw [hdone] at hcommit
  · exact hcommit
  · exact hx e₁ hcommit (settled_of_commit hdone)

/-- What comes before may leave the configuration as it is. -/
theorem Starts.after {x : Action α} {f : α → Action β}
    (hx : Keeps (fun e => e.Holds P ∧ e.Settled c) x) (hf : ∀ a, Starts P c (f a)) :
    Starts P c (x >>= f) := by
  intro e he hsettled
  have hkept := (hx e ⟨he, hsettled⟩).1
  rw [bind_apply]
  rcases hdone : x e with ⟨f | a, e₁⟩ <;> rw [hdone] at hkept
  · exact hkept.1
  · exact hf a e₁ hkept.1 hkept.2

theorem Starts.andThen {x : Action α} {f : α → Action β} (hx : Starts P c x)
    (hf : ∀ a, Keeps (Holds P) (f a)) : Starts P c (x >>= f) := by
  intro e he hsettled
  have hkept := hx e he hsettled
  rw [bind_apply]
  rcases hdone : x e with ⟨f | a, e₁⟩ <;> rw [hdone] at hkept
  · exact hkept
  · exact (hf a e₁ hkept).1

/-- No check is lost by starting a member where none is started. -/
theorem start_starts (c : Nat) (p : PendingRule) : Starts P c (start c p) := by
  intro e he hsettled
  refine he.updateConfiguration ⟨rfl, ?_⟩
  rintro a ⟨p', hp' | hp', k, hk, ha⟩
  · rw [show (e.configuration c).current = none from hsettled] at hp'
    cases hp'
  · exact ⟨p', .inr hp', k, hk, ha⟩

theorem begin_starts {sel : Selector} {f : MemberRef → Action α} (hf : ∀ m, Starts P c (f m)) :
    Keeps (Holds P) (begin c sel >>= f) := by
  unfold begin
  simp only [bind_assoc]
  exact commit_starts (.after (touch_keeps c) fun _ => .after (configuration_keeps c) fun _ =>
    .after (select_keeps _ sel) hf)

theorem begin_holds (c : Nat) (sel : Selector) : Keeps (Holds P) (begin c sel) :=
  .andThen (commit_holds c) fun _ => .andThen (touch_keeps c) fun _ =>
    .andThen (configuration_keeps c) fun _ => select_keeps _ sel

theorem attach_holds (c : Nat) (a : Attribute) : Keeps (Holds P) (attach c a) :=
  .andThen (requireCurrent_keeps c _) fun _ => updateCurrent_holds fun _ k hk =>
    ⟨k, List.mem_append_left _ hk, rfl⟩

/-- Amending the check that was attached last loses none. -/
theorem amendLast_retains {f : PendingCheck → PendingCheck}
    (hf : ∀ k, (f k).validator = k.validator) (ks : List PendingCheck) :
    ∀ k ∈ ks, ∃ k' ∈ PendingRule.amendLast f ks, k'.validator = k.validator := by
  induction ks using PendingRule.amendLast.induct with
  | case1 => exact fun k hk => by cases hk
  | case2 last =>
    intro k hk
    obtain rfl := List.mem_singleton.mp hk
    exact ⟨f k, List.mem_cons_self, hf k⟩
  | case3 first rest hrest ih =>
    intro k hk
    rw [PendingRule.amendLast.eq_3 f first rest hrest]
    rcases List.mem_cons.mp hk with rfl | hk
    · exact ⟨k, List.mem_cons_self, rfl⟩
    · obtain ⟨k', hk', heq⟩ := ih k hk
      exact ⟨k', List.mem_cons_of_mem first hk', heq⟩

theorem setMessage_retains (m : Option MessageSource) (p : PendingRule) :
    p.Retains (p.setMessage m) := by
  unfold PendingRule.setMessage
  split
  · exact fun k hk => ⟨k, hk, rfl⟩
  · exact amendLast_retains (fun _ => by rfl) p.checks

theorem setCode_retains (key : Option String) (p : PendingRule) : p.Retains (p.setCode key) := by
  unfold PendingRule.setCode
  split
  · exact fun k hk => ⟨k, hk, rfl⟩
  · exact amendLast_retains (fun _ => by rfl) p.checks

theorem setResourceKey_retains (key : Option String) (p : PendingRule) :
    p.Retains (p.setResourceKey key) := by
  unfold PendingRule.setResourceKey
  split
  · exact fun k hk => ⟨k, hk, rfl⟩
  · exact amendLast_retains (fun _ => by rfl) p.checks

theorem provide_holds (c : Nat) (m : MemberRef) (x : Expr) : Keeps (Holds P) (provide c m x) :=
  provide_keeps (updateConfiguration_holds fun _ => ⟨rfl, fun _ h => h⟩)

theorem checkStep_holds (c : Nat) (step : CheckStep) : Keeps (Holds P) (checkStep c step) := by
  cases step with
  | attach a =>
    exact .andThen (configuration_keeps c) fun _ => .andThen (usable_keeps _ a) fun _ =>
      attach_holds c _
  | message m =>
    exact .andThen (requireCurrent_keeps c _) fun _ => updateCurrent_holds (setMessage_retains m)
  | code key =>
    exact .andThen (requireCurrent_keeps c _) fun _ => updateCurrent_holds (setCode_retains key)
  | resourceKey key =>
    exact .andThen (requireCurrent_keeps c _) fun _ =>
      updateCurrent_holds (setResourceKey_retains key)
  | provide x => exact .andThen (requireCurrent_keeps c _) fun _ => provide_holds c _ x

/-! ## 4. Steps on a type -/

theorem drop_holds (hP : ∀ a, ¬ P c a) (m : MemberRef) : Keeps (Holds P) (drop c m) :=
  .andThen (configuration_keeps c) fun _ => .andThen (removeRules_keeps _ _ _) fun _ =>
    updateFree_holds hP fun _ => List.Subset.refl _

theorem startRule_holds {replace : Bool} (hP : replace = true → ∀ a, ¬ P c a) (sel : Selector)
    (must : Option Expr) (message : Option MessageSource) :
    Keeps (Holds P) (startRule c sel must message replace) := by
  rw [startRule_eq]
  have hfurnish : Keeps (Holds P) (furnish c must message) :=
    furnish_keeps (attach_holds c) (checkStep_holds c) must message
  cases replace with
  | true =>
    exact .andThen (begin_holds c sel) fun m => .andThen (drop_holds (hP rfl) m) fun _ =>
      .andThen (updateFree_holds (hP rfl) fun _ => List.Subset.refl _) fun _ => hfurnish
  | false => exact begin_starts fun m => (start_starts c _).andThen fun _ => hfurnish

theorem newBuilder_holds (c : Nat) (sel : Selector) (forEach : Bool) (name : Option String) :
    Keeps (Holds P) (newBuilder c sel forEach name) := by
  refine .andThen (begin_holds c sel) fun m => .get_bind fun e he => ⟨?_, fun _ _ => trivial⟩
  let x : Builder := { owner := c, member := m, forEach }
  refine (he.newBuilder x _).list (by simp) ?_
  rw [builder_newBuilder, if_neg (lt_irrefl _), if_pos rfl]

theorem startGated_holds (c : Nat) (sel : Option Selector) :
    Keeps (Holds P) (startGated c sel) :=
  startGated_keeps (updateCurrent_holds fun _ k hk => ⟨k, hk, rfl⟩) (touch_keeps c) fun _ =>
    commit_starts (start_starts c _)

theorem exclude_holds (hP : ∀ a, ¬ P c a) (sel : Selector) : Keeps (Holds P) (exclude c sel) := by
  refine .andThen (begin_holds c sel) fun m => .andThen (drop_holds hP m) fun _ =>
    .get_bind fun e he => ?_
  refine (?_ : Keeps (Holds P) _) e he
  exact .andThen (updateFree_holds hP fun _ => List.filter_sublist.subset) fun _ =>
    updateFree_holds hP fun _ => List.Subset.refl _

theorem always_holds (c : Nat) (sel : Selector) : Keeps (Holds P) (always c sel) :=
  begin_starts fun _ => start_starts c _

theorem KeepsFrom.left {I J : Engine → Prop} {x : Action α} {Q : α → Prop} {e : Engine}
    (h : KeepsFrom (fun e => I e ∧ J e) x Q e) : KeepsFrom I x Q e := ⟨h.1.1, h.2⟩

/-- Builders that a configuration owns. -/
def Owns (c : Nat) (bs : List Nat) (e : Engine) : Prop := ∀ b ∈ bs, (e.builder b).owner = c

instance (bs : List Nat) : OfGathered (Owns c bs) where
  of_same _ hbuilders he b hb := by
    rw [Engine.builder, hbuilders]
    exact he b hb

/-- Dropping checks of a member drops rules of builders as well, which the configuration owns. -/
theorem dropMember_holds (hP : ∀ a, ¬ P c a) (sel : Selector) (kind : Option String) :
    Keeps (Holds P) (dropMember c sel kind) := by
  refine .andThen (begin_holds c sel) fun m => .andThen (touch_keeps c) fun _ e he => ?_
  let cfg := e.configuration c
  have howns : Owns c cfg.builders e := fun b hb => (he.owned c b hb).2
  have hdrop : ∀ f : Configuration → Configuration, (∀ cfg, (f cfg).builders = cfg.builders) →
      Keeps (fun e => e.Holds P ∧ Owns c cfg.builders e) (updateConfiguration c f) := fun f hf =>
    .change fun e he => ⟨he.1.changeFree hP fun cfg => (hf cfg ▸ List.Subset.refl _), he.2⟩
  have hbuilder : ∀ b ∈ cfg.builders, ∀ f : Builder → Builder, (∀ x, (f x).owner = x.owner) →
      Keeps (fun e => e.Holds P ∧ Owns c cfg.builders e)
        (modify (Engine.updateBuilder b f) : Action Unit) := fun b hb f hf =>
    .change fun e he => ⟨he.1.updateBuilder hf (.inl (he.2 b hb ▸ hP)), fun b' hb' => by
      rw [builder_updateBuilder]
      split
      · rw [hf, he.2 b' hb']
      · exact he.2 b' hb'⟩
  refine KeepsFrom.left (J := Owns c cfg.builders) ?_
  refine KeepsFrom.bind (P := (· = cfg)) ⟨⟨he, howns⟩, fun _ h => by cases h; rfl⟩ ?_
  rintro _ rfl
  refine .andThen (removeRules_keeps _ _ _) fun _ => .andThen (hdrop _ fun _ => rfl) fun _ =>
    .forM fun b hb => hbuilder b hb _ fun x => ?_
  split <;> rfl

theorem keepOnly_holds (hP : ∀ a, ¬ P c a) (sel : Selector) :
    Keeps (Holds P) (keepOnly c sel) := by
  refine .andThen (begin_holds c sel) fun m => .andThen (touch_keeps c) fun _ =>
    .andThen (configuration_keeps c) fun _ => .andThen (removeRules_keeps _ _ _) fun _ =>
    .get_bind fun e he => ?_
  refine (?_ : Keeps (Holds P) _) e he
  exact updateFree_holds hP fun _ => List.filter_sublist.subset

theorem clear_holds (hP : ∀ a, ¬ P c a) : Keeps (Holds P) (clear c) :=
  .andThen (commit_holds c) fun _ => .andThen (touch_keeps c) fun _ =>
    .andThen (configuration_keeps c) fun _ => .andThen (removeRules_keeps _ _ _) fun _ =>
    updateFree_holds hP fun _ => List.nil_subset _

theorem newConfiguration_holds (t : TypeId) : Keeps (Holds P) (newConfiguration t) :=
  .andThen (ensure_keeps t) fun _ => .get_bind fun _ he =>
    ⟨he.newConfiguration rfl, fun _ _ => trivial⟩

theorem configure_holds (t : TypeId) : Keeps (Holds P) (configure t) :=
  configure_keeps_of (newConfiguration_holds t) fun _ => aside_keeps fun _ => ⟨rfl, rfl, rfl⟩

theorem newChild_holds (c : Nat) (t : TypeId) : Keeps (Holds P) (newChild c t) :=
  .andThen (newConfiguration_holds t) fun child => .andThen (configuration_keeps c) fun _ =>
    .andThen (updateConfiguration_holds fun _ => by exact ⟨rfl, fun _ h => h⟩) fun _ => .pure trivial

/-! ## 5. Steps of a builder -/

theorem updateBuilder_holds {f : Builder → Builder} (howner : ∀ x, (f x).owner = x.owner)
    (hf : ∀ x : Builder, ∀ a, x.Checks a → (f x).Checks a) :
    Keeps (Holds P) (modify (Engine.updateBuilder b f) : Action Unit) :=
  .change fun _ he => he.updateBuilder howner (.inr hf)

theorem amend_holds (id : Nat) {f : Rule → Rule} (hf : ∀ r, (f r).validator = r.validator) :
    Keeps (Holds P) (modify (Engine.amend id f) : Action Unit) :=
  .change fun _ he => he.amend id hf

theorem attachTo_holds (b : Nat) (a : Attribute) : Keeps (Holds P) (attachTo b a) :=
  .andThen (builder_keeps b) fun _ => .andThen (builderType_keeps b) fun _ =>
    .andThen (newRule_keeps _ _ _ _) fun _ => updateBuilder_holds (fun _ => rfl)
      fun _ _ ⟨r, hr, ha⟩ => ⟨r, List.mem_append_left _ hr, ha⟩

theorem builderCheckStep_holds (b : Nat) (step : CheckStep) :
    Keeps (Holds P) (builderCheckStep b step) :=
  builderCheckStep_keeps (attachTo_holds b)
    (fun id _ hf => amend_holds id fun r => (congrArg Rule.validator (hf r)).trans rfl)
    provide_holds step

theorem guardRules_holds (g : Guard) (rs : List Rule) : Keeps (Holds P) (guardRules g rs) :=
  .forM fun r _ => amend_holds r.id fun _ => rfl

/-! ## 6. Building -/

variable {e : Engine}

theorem gather_holds (cfg : Configuration) : Keeps (Holds P) (gather cfg) :=
  gather_keeps cfg fun id => amend_holds id fun _ => rfl

/-- Building a configuration keeps all checks but those that it registers. -/
theorem build_holds (he : e.Holds P) (hP : (build c e).1.isOk = true → ∀ a, ¬ P c a) :
    (build c e).2.Holds P := by
  rw [build_eq] at hP ⊢
  have hcommit := (commit_holds c e he).1
  rcases hdone : commit c e with ⟨f | done, e₁⟩ <;> rw [hdone] at hcommit
  · rw [bind_error hdone]
    exact hcommit
  rw [bind_ok hdone, configuration_bind] at hP ⊢
  cases hidle : (e₁.configuration c).isIdle with
  | true =>
    simp only [if_true]
    exact (Keeps.andThen (updateRegistry_keeps _)
      (fun _ => .pure (P := fun _ => True) trivial) e₁ hcommit).1
  | false =>
    simp only [hidle, Bool.false_eq_true, if_false] at hP ⊢
    have hgather := (gather_holds (e₁.configuration c) e₁ hcommit).1
    rcases hrules : gather (e₁.configuration c) e₁ with ⟨f | rs, e₂⟩ <;> rw [hrules] at hgather
    · rw [bind_error hrules]
      exact hgather
    · rw [bind_ok hrules] at hP ⊢
      have hfree : ∀ a, ¬ P c a := hP rfl
      exact (Keeps.andThen (addRules_keeps _ rs) (fun _ => .andThen (note_keeps _ _ _) fun _ =>
        .andThen (updateFree_holds hfree fun _ => List.nil_subset _) fun _ =>
          .pure (P := fun _ => True) trivial) e₂ hgather).1

theorem build_andThen_holds (he : e.Holds P) (hP : (build c e).1.isOk = true → ∀ a, ¬ P c a)
    {f : List Rule → Action α} (hf : ∀ rs, Keeps (Holds P) (f rs)) :
    ((build c >>= f) e).2.Holds P := by
  have hbuild := build_holds he hP
  rw [bind_apply]
  rcases hdone : build c e with ⟨r | rs, e₁⟩ <;> rw [hdone] at hbuild
  · exact hbuild
  · exact (hf rs e₁ hbuild).1

end Action

/-! ## 7. Calls -/

namespace Engine

open Action

variable {P : Nat → Attribute → Prop} {e : Engine} {c : Nat} {a : Attribute}

/-- A call that drops checks of a configuration: it replaces, excludes or removes rules. -/
def Call.Drops (c : Nat) : Call → Prop
  | step c' (.rule _ _ _ true) | step c' (.exclude _) | step c' (.dropMember _ _)
  | step c' (.keepOnly _) | step c' .clear => c' = c
  | _ => False

/-- A call that registers the checks of a configuration. -/
def Call.Registers (call : Call) (e : Engine) (c : Nat) : Prop :=
  call.builds? = some c ∧ (Action.build c e).1.isOk = true

/-- **A call keeps every check that it neither drops nor registers.** -/
theorem Call.after_holds {call : Call} (he : e.Holds P)
    (hfree : ∀ c, call.Drops c ∨ call.Registers e c → ∀ a, ¬ P c a) : (call.after e).Holds P := by
  have hkeeps : Keeps (Holds P) call.run → (call.after e).Holds P := fun h => (h e he).1
  cases call with
  | configure t => exact hkeeps (configure_holds t)
  | build c =>
    exact build_andThen_holds he (fun hok => hfree c (.inr ⟨rfl, hok⟩)) fun _ => .pure trivial
  | check b s => exact hkeeps (.andThen (builderCheckStep_holds b s) fun _ => .pure trivial)
  | closeBlock b place g last =>
    exact hkeeps (.andThen (builder_keeps b) fun x => .andThen (guardRules_holds g _) fun _ =>
      .andThen (updateBuilder_holds (fun _ => rfl) fun _ _ h => h) fun _ => .pure trivial)
  | nest b element =>
    exact hkeeps (.andThen (nestedType_keeps b element) fun t => .andThen (builder_keeps b) fun x =>
      newChild_holds x.owner t)
  | describe b =>
    exact hkeeps (.andThen (builder_keeps b) fun x => .andThen (view_keeps x.rules) fun _ =>
      .andThen (report_keeps _) fun _ => .pure trivial)
  | step c s =>
    have hdrops : (Call.step c s).Drops c → ∀ a, ¬ P c a := fun h => hfree c (.inl h)
    -- A step on a type keeps checks by the lemma about it, and goes on with a configuration.
    have hgoes : ∀ {x : Action Unit}, Keeps (Holds P) x → Keeps (Holds P) (do x; return c) :=
      fun hx => .andThen hx fun _ => .pure trivial
    have hsetting : ∀ f : Configuration → Configuration,
        (∀ cfg : Configuration, cfg.Retains (f cfg)) →
        Keeps (Holds P) (do Action.updateConfiguration c f; return c) := fun f hf =>
      hgoes (updateConfiguration_holds hf)
    cases s with
    | check s => exact hkeeps (hgoes (checkStep_holds c s))
    | rule sel must message replace =>
      exact hkeeps (hgoes (startRule_holds (fun hr => hdrops (by subst hr; rfl)) sel must message))
    | builder sel forEach name steps => exact hkeeps (newBuilder_holds c sel forEach name)
    | gate sel g =>
      exact hkeeps (.andThen (startGated_holds c sel) fun _ =>
        hgoes (updateCurrent_holds fun _ k hk => ⟨k, hk, rfl⟩))
    | exclude sel => exact hkeeps (hgoes (exclude_holds (hdrops rfl) sel))
    | always sel => exact hkeeps (hgoes (always_holds c sel))
    | resource name => exact hkeeps (hsetting _ fun _ => ⟨rfl, fun _ h => h⟩)
    | culture name =>
      exact hkeeps (.andThen (.lift _) fun _ => hsetting _ fun _ => ⟨rfl, fun _ h => h⟩)
    | fallback text => exact hkeeps (hsetting _ fun _ => ⟨rfl, fun _ h => h⟩)
    | withoutConventionalKeys => exact hkeeps (hsetting _ fun _ => ⟨rfl, fun _ h => h⟩)
    | enforce on => exact hkeeps (hsetting _ fun _ => ⟨rfl, fun _ h => h⟩)
    | dropMember sel kind => exact hkeeps (hgoes (dropMember_holds (hdrops rfl) sel kind))
    | keepOnly sel => exact hkeeps (hgoes (keepOnly_holds (hdrops rfl) sel))
    | clear => exact hkeeps (hgoes (clear_holds (hdrops rfl)))
    | switch t => exact hkeeps (.andThen (commit_holds c) fun _ => configure_holds t)
    | build =>
      exact build_andThen_holds he (fun hok => hfree c (.inr ⟨rfl, hok⟩)) fun rs =>
        .andThen (view_keeps rs) fun _ => .andThen (report_keeps _) fun _ => .pure trivial
    | describe =>
      exact hkeeps (.andThen (configuration_keeps c) fun _ => hgoes (report_keeps _))

/-- Builders are listed by their owners, whatever calls are made. -/
theorem Owned.afterCalls (h : e.Owned) (calls : List Call) : (e.afterCalls calls).Owned := by
  have hholds : e.Holds fun _ _ => False := ⟨h, fun _ _ hP => hP.elim⟩
  clear h
  induction calls generalizing e with
  | nil => exact hholds.owned
  | cons call rest ih => exact ih (Call.after_holds hholds fun _ _ _ hP => hP)

/-- Calls none of which drops or registers checks of a configuration. -/
def Spares (c : Nat) : List Call → Engine → Prop
  | [], _ => True
  | call :: rest, e => ¬ call.Drops c ∧ ¬ call.Registers e c ∧ Spares c rest (call.after e)

/-- **What has been gathered stays gathered** along calls that neither drop nor register it. -/
theorem HasGathered.afterCalls {calls : List Call} (howned : e.Owned) (h : e.HasGathered c a)
    (hspares : Spares c calls e) : (e.afterCalls calls).HasGathered c a := by
  have hholds : e.Holds fun c' a' => c' = c ∧ a' = a :=
    ⟨howned, fun _ _ heq => heq.1 ▸ heq.2 ▸ h⟩
  clear howned h
  induction calls generalizing e with
  | nil => exact hholds.gathers c a ⟨rfl, rfl⟩
  | cons call rest ih =>
    obtain ⟨hdrops, hregisters, hrest⟩ := hspares
    refine ih hrest (Call.after_holds hholds ?_)
    rintro c' (h | h) a' ⟨rfl, -⟩
    · exact hdrops h
    · exact hregisters h

end Engine
end MemberRules
