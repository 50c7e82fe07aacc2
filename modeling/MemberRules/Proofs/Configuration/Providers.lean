/-
# Value providers

A member may have one value provider.  A step that sets one looks for another one among the
registered rules of the member, and among what its own configuration has gathered, but not among what
other configurations of the type have gathered.

Blocks of nested rules make configurations of their own.  So a step can set a second provider if
another configuration has gathered the first one, and then the builds of the two configurations
register both.  Without such a step no member ever has two, and a provider is refused exactly if there
is one already.

* `Engine.providers`: the providers that are registered or gathered for a member.
* `Engine.ProvidesNoMore`, `Edit.providesNoMore`: small changes that set no provider add none.
* `Engine.Unmixed`: a build makes rules with a provider only of what was gathered as one.
* `Call.Crosses`, `Uncrossed`: steps that set a provider beside that of another configuration.
* `providers_once_iff`: providers are refused as they should be exactly if there are no such steps.
* `providers_twice`: a member with two value providers.
-/
import Mathlib.Algebra.Order.BigOperators.Group.Finset
import MemberRules.Proofs.Declared.Reaching

namespace MemberRules

open MemberRules.Computation

/-! ## 1. The providers of a member -/

/-- Whether a rule has a value provider. -/
def Rule.provides (r : Rule) : Bool := r.provider.isSome

/-- The number of value providers that are registered for a member. -/
def Registry.providers (reg : Registry) (t : TypeId) (k : MemberKey) : Nat :=
  (reg.rulesOfMember t k).countP Rule.provides

/-- The number of value providers that a configuration has gathered for a member of a type. -/
def Configuration.providersFor (t : TypeId) (k : MemberKey) (cfg : Configuration) : Nat :=
  if cfg.type = t then cfg.providers.countP fun p => p.1.key == k else 0

theorem Configuration.providersFor_le {cfg cfg' : Configuration} (htype : cfg'.type = cfg.type)
    (hproviders : cfg'.providers.Sublist cfg.providers) (t : TypeId) (k : MemberKey) :
    cfg'.providersFor t k ≤ cfg.providersFor t k := by
  unfold providersFor
  rw [htype]
  split
  · exact hproviders.countP_le
  · exact le_rfl

open Engine in
/-- A small change of a configuration that sets no provider adds none. -/
theorem Configuration.Edit.providersFor_le {A : Deed → Prop} {c : Nat} {cfg cfg' : Configuration}
    (h : cfg.Edit A c cfg') (hA : ∀ c k, ¬ A (.provide c k)) (t : TypeId) (k : MemberKey) :
    cfg'.providersFor t k ≤ cfg.providersFor t k := by
  refine Configuration.providersFor_le h.type ?_ t k
  cases h with
  | setting hsame => exact hsame.providers ▸ .refl _
  | provide m x hprovide => exact (hA c m.key hprovide).elim
  | drop _ _ hproviders => exact hproviders
  | _ => exact .refl _

namespace Registry

open RuleGroup

variable {reg : Registry} {t u : TypeId} {k : MemberKey}

theorem countP_put_le (p : Rule → Bool) (r : Rule) (rs : List Rule) :
    (put r rs).countP p ≤ rs.countP p + [r].countP p := by
  induction rs with
  | nil => simp [put]
  | cons x xs ih =>
    rw [put]
    split
    · simp only [List.countP_cons, List.countP_nil]
      omega
    · simp only [List.countP_cons, List.countP_nil] at ih ⊢
      omega

/-- **Registering rules adds to a member no more rules of a kind** than there are among them. -/
theorem countP_addAll_le (p : Rule → Bool) (reg : Registry) (t : TypeId) (rs : List Rule) :
    ((reg.addAll t rs).rulesOfMember u k).countP p ≤ (reg.rulesOfMember u k).countP p +
      if t = u then (ofMember k rs).countP p else 0 := by
  split
  · rename_i heq
    subst heq
    rw [rulesOfMember_addAll]
    generalize reg.rulesOfMember t k = done
    induction ofMember k rs generalizing done with
    | nil => exact le_rfl
    | cons x xs ih =>
      have hfirst := countP_put_le p x done
      have hrest := ih (put x done)
      simp only [List.foldl_cons, List.countP_cons, List.countP_nil] at hfirst hrest ⊢
      omega
  · rename_i hne
    rw [Engine.rulesOfMember_of_groups (allGroups_addAll_of_ne (Ne.symm hne) reg rs)]
    exact le_rfl

end Registry

namespace Engine

open Finset

variable {A : Deed → Prop} {e e' e'' : Engine} {c : Nat} {t : TypeId} {k : MemberKey}

/-- The number of value providers that all configurations have gathered for a member of a type. -/
def gatheredProviders (e : Engine) (t : TypeId) (k : MemberKey) : Nat :=
  ∑ c ∈ range e.configurations.length, (e.configuration c).providersFor t k

/-- The number of value providers that are registered or gathered for a member of a type. -/
def providers (e : Engine) (t : TypeId) (k : MemberKey) : Nat :=
  e.registry.providers t k + e.gatheredProviders t k

/-- A configuration that is not there has gathered nothing. -/
theorem providersFor_of_length_le (h : e.configurations.length ≤ c) :
    (e.configuration c).providersFor t k = 0 := by
  rw [configuration, List.getElem?_eq_none h, Option.getD_none]
  show (if _ then 0 else 0) = 0
  split <;> rfl

/-- More configurations may be counted than there are. -/
theorem gatheredProviders_eq {n : Nat} (h : e.configurations.length ≤ n) :
    e.gatheredProviders t k = ∑ c ∈ range n, (e.configuration c).providersFor t k := by
  refine sum_subset (range_subset_range.mpr h) fun c _ hc => ?_
  rw [mem_range, Nat.not_lt] at hc
  exact providersFor_of_length_le hc

/-- One configuration, and all others. -/
theorem gatheredProviders_split (hc : c < e.configurations.length) :
    e.gatheredProviders t k = (e.configuration c).providersFor t k +
      ∑ c' ∈ (range e.configurations.length).erase c, (e.configuration c').providersFor t k :=
  (add_sum_erase _ _ (mem_range.mpr hc)).symm

theorem providersFor_le_gathered (e : Engine) (c : Nat) (t : TypeId) (k : MemberKey) :
    (e.configuration c).providersFor t k ≤ e.gatheredProviders t k := by
  by_cases hc : c < e.configurations.length
  · rw [gatheredProviders_split hc]
    exact Nat.le_add_right _ _
  · rw [providersFor_of_length_le (Nat.le_of_not_lt hc)]
    exact Nat.zero_le _

/-! ## 2. Small changes that set no provider -/

/-- An engine with no more value providers than another one. -/
structure ProvidesNoMore (e e' : Engine) : Prop where
  length : e.configurations.length ≤ e'.configurations.length
  registered : ∀ t k, e'.registry.providers t k ≤ e.registry.providers t k
  gathered : ∀ c t k, (e'.configuration c).providersFor t k ≤ (e.configuration c).providersFor t k

theorem ProvidesNoMore.refl (e : Engine) : ProvidesNoMore e e :=
  ⟨le_rfl, fun _ _ => le_rfl, fun _ _ _ => le_rfl⟩

theorem ProvidesNoMore.trans (h : ProvidesNoMore e e') (h' : ProvidesNoMore e' e'') :
    ProvidesNoMore e e'' where
  length := h.length.trans h'.length
  registered t k := (h'.registered t k).trans (h.registered t k)
  gathered c t k := (h'.gathered c t k).trans (h.gathered c t k)

theorem ProvidesNoMore.providers_le (h : ProvidesNoMore e e') (t : TypeId) (k : MemberKey) :
    e'.providers t k ≤ e.providers t k := by
  have hgathered : e'.gatheredProviders t k ≤ e.gatheredProviders t k := by
    rw [gatheredProviders_eq h.length]
    exact sum_le_sum fun c _ => h.gathered c t k
  exact Nat.add_le_add (h.registered t k) hgathered

/-- A change of configurations that are there already. -/
theorem ProvidesNoMore.ofConfigurations (hregistry : e'.registry = e.registry)
    (hlength : e.configurations.length ≤ e'.configurations.length)
    (h : ∀ c t k, (e'.configuration c).providersFor t k ≤ (e.configuration c).providersFor t k) :
    ProvidesNoMore e e' := ⟨hlength, fun _ _ => hregistry ▸ le_rfl, h⟩

/-- A change of the registry. -/
theorem ProvidesNoMore.ofRegistry {reg : Registry}
    (h : ∀ t k, reg.providers t k ≤ e.registry.providers t k) :
    ProvidesNoMore e { e with registry := reg } := ⟨le_rfl, h, fun _ _ _ => le_rfl⟩

/-- A change of one configuration. -/
theorem ProvidesNoMore.ofConfiguration (e : Engine) (c : Nat) {f : Configuration → Configuration}
    (h : ∀ t k, (f (e.configuration c)).providersFor t k ≤ (e.configuration c).providersFor t k) :
    ProvidesNoMore e (e.updateConfiguration c f) := by
  refine .ofConfigurations rfl (List.length_modify ..).ge fun c' t k => ?_
  rcases configuration_updateConfiguration_cases (e := e) c c' f with heq | ⟨rfl, heq⟩ <;>
    rw [heq]
  exact h t k

/-- A configuration that is made has gathered nothing. -/
theorem ProvidesNoMore.create (e : Engine) {cfg : Configuration} (hproviders : cfg.providers = []) :
    ProvidesNoMore e { e with configurations := e.configurations ++ [cfg] } := by
  refine .ofConfigurations rfl (by simp) fun c t k => ?_
  rw [configuration_newConfiguration]
  split
  · exact le_rfl
  · rename_i hlt
    rw [providersFor_of_length_le (Nat.le_of_not_lt hlt)]
    split
    · unfold Configuration.providersFor
      rw [hproviders, List.countP_nil, ite_self]
    · exact (providersFor_of_length_le (e := {}) (Nat.zero_le 0)).le

/-- A rule that is changed in its place keeps its provider. -/
theorem ProvidesNoMore.amend (e : Engine) (id : Nat) {f : Rule → Rule}
    (hf : ∀ r : Rule, r.Succeeds (f r)) : ProvidesNoMore e (e.amend id f) := by
  refine ⟨(List.length_map ..).ge, fun t k => ?_, fun c t k => ?_⟩
  · have hamended : (e.amend id f).registry.rulesOfMember t k = _ :=
      Registry.rulesOfMember_amend id f
    rw [Registry.providers, hamended, List.countP_map]
    refine (List.countP_congr fun r _ => ?_).le
    simp only [Function.comp_apply]
    split
    · rw [Rule.provides, (hf r).provider, Rule.provides]
    · rfl
  · rw [configuration_amend]
    exact Configuration.providersFor_le rfl (.refl _) t k

/-- Rules without a provider that are registered. -/
theorem ProvidesNoMore.register (e : Engine) (t : TypeId) {rs : List Rule}
    (hrs : ∀ r ∈ rs, r.provider = none) :
    ProvidesNoMore e { e with registry := e.registry.addAll t rs } := by
  refine .ofRegistry fun u k => ?_
  have hnone : (RuleGroup.ofMember k rs).countP Rule.provides = 0 :=
    List.countP_eq_zero.mpr fun r hr hprovides => by
      have hprovider := hrs r (RuleGroup.mem_ofMember.mp hr).1
      rw [Rule.provides, hprovider] at hprovides
      cases hprovides
  have hadded := Registry.countP_addAll_le (u := u) (k := k) Rule.provides e.registry t rs
  rw [hnone, ite_self] at hadded
  exact hadded

/-- **A small change that sets no provider** adds none. -/
theorem Edit.providesNoMore (h : Edit A e e') (hA : ∀ c k, ¬ A (.provide c k)) :
    ProvidesNoMore e e' := by
  have hlength := h.length_le
  cases h with
  | aside hsame =>
    exact .ofConfigurations hsame.registry hlength fun c _ _ => (hsame.configuration c) ▸ le_rfl
  | mark t built => exact .ofRegistry fun _ _ => le_rfl
  | remove t member doomed =>
    exact .ofRegistry fun u k => (Registry.rulesOfMember_removeWhere member doomed).countP_le
  | register t rs _ hproviders => exact .register e t hproviders
  | amend id hf => exact .amend e id hf
  | work c hf => exact .ofConfiguration e c (hf.providersFor_le hA)
  | create cfg _ _ _ hproviders => exact .create e hproviders
  | list c m forEach named =>
    let e₁ : Engine := { e with
      builders := e.builders ++ [{ owner := c, member := m, forEach }], named }
    have hmade : ProvidesNoMore e e₁ := .ofConfigurations rfl le_rfl fun _ _ _ => le_rfl
    exact hmade.trans (.ofConfiguration e₁ c fun t k =>
      Configuration.providersFor_le rfl (.refl _) t k)
  | _ => exact .ofConfigurations rfl hlength fun _ _ _ => le_rfl

theorem Edits.providesNoMore (h : Edits A e e') (hA : ∀ c k, ¬ A (.provide c k)) :
    ProvidesNoMore e e' :=
  h.keep (I := ProvidesNoMore e) (fun hedit he => he.trans (hedit.providesNoMore hA)) (.refl e)

end Engine

/-! ## 3. What a build registers -/

/-- Whether a rule has both a check and a value provider. -/
def Rule.isMixed (r : Rule) : Bool := r.hasCheck && r.provides

theorem Rule.isMixed_of_provider {r : Rule} (h : r.provider = none) : r.isMixed = false := by
  rw [isMixed, provides, h, Option.isSome_none, Bool.and_false]

/-- A rule with a check that is not mixed has no provider. -/
theorem Rule.provider_of_hasCheck {r : Rule} (h : r.isMixed = false) (hcheck : r.hasCheck = true) :
    r.provider = none := by
  rw [isMixed, hcheck, Bool.true_and, provides] at h
  exact Option.not_isSome_iff_eq_none.mp (by simp [h])

theorem Rule.Succeeds.isMixed {r r' : Rule} (h : r.Succeeds r') : r'.isMixed = r.isMixed := by
  unfold Rule.isMixed Rule.hasCheck Rule.provides
  rw [Rule.validator_of_place h.place, h.provider]

namespace Engine

variable {A : Deed → Prop} {e e' mid : Engine} {c : Nat} {t : TypeId} {k : MemberKey}

/-- No rule has both a check and a value provider. -/
structure Unmixed (e : Engine) : Prop where
  registered : ∀ t k, ∀ r ∈ e.registry.rulesOfMember t k, r.isMixed = false
  held : ∀ b, ∀ r ∈ (e.builder b).rules, r.isMixed = false

theorem Unmixed.ofRegistry {reg : Registry} (he : e.Unmixed)
    (h : ∀ t k, ∀ r ∈ reg.rulesOfMember t k, r.isMixed = false) :
    { e with registry := reg }.Unmixed := ⟨h, he.held⟩

/-- Registering rules that are not mixed. -/
theorem Unmixed.addAll (he : e.Unmixed) (t : TypeId) {rs : List Rule}
    (hrs : ∀ r ∈ rs, r.isMixed = false) (u : TypeId) (k : MemberKey) :
    ∀ r ∈ (e.registry.addAll t rs).rulesOfMember u k, r.isMixed = false := by
  have hadded := Registry.countP_addAll_le (u := u) (k := k) Rule.isMixed e.registry t rs
  have hnone : (RuleGroup.ofMember k rs).countP Rule.isMixed = 0 :=
    List.countP_eq_zero.mpr fun r hr => by simp [hrs r (RuleGroup.mem_ofMember.mp hr).1]
  have hbefore : (e.registry.rulesOfMember u k).countP Rule.isMixed = 0 :=
    List.countP_eq_zero.mpr fun r hr => by simp [he.registered u k r hr]
  rw [hnone, ite_self, hbefore] at hadded
  intro r hr
  simpa using List.countP_eq_zero.mp (Nat.le_zero.mp hadded) r hr

/-- **No small change mixes** checks and providers. -/
theorem Edit.unmixed (h : Edit A e e') (he : e.Unmixed) : e'.Unmixed := by
  cases h with
  | aside hsame =>
    refine ⟨fun t k r hr => he.registered t k r (hsame.registry ▸ hr), fun b r hr => ?_⟩
    rw [hsame.builder] at hr
    exact he.held b r hr
  | remove t member doomed =>
    exact he.ofRegistry fun u k r hr =>
      he.registered u k r ((Registry.rulesOfMember_removeWhere member doomed).subset hr)
  | register t rs _ hproviders =>
    exact he.ofRegistry (he.addAll t fun r hr => Rule.isMixed_of_provider (hproviders r hr))
  | @amend id f hf =>
    have hkept : ∀ r : Rule, r.isMixed = false → (if r.id == id then f r else r).isMixed = false :=
      fun r hr => by
        split
        · rw [(hf r).isMixed, hr]
        · exact hr
    refine ⟨fun t k r hr => ?_, fun b r hr => ?_⟩
    · have hamended : (e.amend id f).registry.rulesOfMember t k = _ :=
        Registry.rulesOfMember_amend id f
      obtain ⟨x, hx, rfl⟩ := List.mem_map.mp (hamended ▸ hr)
      exact hkept x (he.registered t k x hx)
    · rw [builder_amend] at hr
      obtain ⟨x, hx, rfl⟩ := List.mem_map.mp hr
      exact hkept x (he.held b x hx)
  | list c m forEach named =>
    refine ⟨he.registered, fun b r hr => ?_⟩
    have hbuilder := builder_newBuilder (e := e) { owner := c, member := m, forEach } named b
    have hr : r ∈ (Engine.builder { e with
      builders := e.builders ++ [{ owner := c, member := m, forEach }], named } b).rules := hr
    rw [hbuilder] at hr
    split at hr
    · exact he.held b r hr
    · split at hr <;> cases hr
  | close b last =>
    refine ⟨he.registered, fun b' r hr => ?_⟩
    rw [builder_updateBuilder] at hr
    split at hr <;> exact he.held b' r hr
  | attachTo b x _ _ hprovider =>
    refine ⟨he.registered, fun b' r hr => ?_⟩
    rw [builder_updateBuilder] at hr
    split at hr
    · rcases List.mem_append.mp hr with hr | hr
      · exact he.held b' r hr
      · exact Rule.isMixed_of_provider (List.mem_singleton.mp hr ▸ hprovider)
    · exact he.held b' r hr
  | dropRules c b =>
    refine ⟨he.registered, fun b' r hr => ?_⟩
    rw [builder_updateBuilder] at hr
    split at hr
    · split at hr
      · exact he.held b' r (List.mem_filter.mp hr).1
      · exact he.held b' r hr
    · exact he.held b' r hr
  | _ => exact ⟨he.registered, he.held⟩

theorem Edits.unmixed (h : Edits A e e') (he : e.Unmixed) : e'.Unmixed :=
  h.keep (fun hedit => hedit.unmixed) he

namespace Gathered

variable {again providers : List Rule} {xss : List (List Rule)}

/-- **Only what was gathered as a provider has one.** -/
theorem provider_eq_none (h : e.Gathered c again xss providers mid) (he : e.Tidy) (hun : e.Unmixed) :
    ∀ x ∈ again ++ xss.flatten ++ (e.listedRules c).map (e.configuration c).complete,
      x.provider = none := by
  intro x hx
  rcases List.mem_append.mp hx with hx | hx
  · rcases List.mem_append.mp hx with hx | hx
    -- A rule that is registered again has a check.
    · obtain ⟨y, hy, hcopied⟩ := exists_of_mem_forall₂ h.copies hx
      split at hy
      · obtain ⟨r, hr, rfl⟩ := List.mem_map.mp hy
        obtain ⟨hr, hcheck⟩ := List.mem_filter.mp hr
        have hthere := he.keyed.registry.mem_rulesOfMember hr
        rw [hcopied]
        exact Rule.provider_of_hasCheck (hun.registered _ _ r hthere) hcheck
      · cases hy
    · obtain ⟨xs, hxs, hx⟩ := List.mem_flatten.mp hx
      obtain ⟨p, hp, hmade⟩ := exists_of_mem_forall₂ h.made hxs
      by_cases hchecks : p.checks = []
      · obtain ⟨copies, carrier, rfl, hcopies, -, -, -, hprovider⟩ := hmade.copies hchecks
        rcases List.mem_append.mp hx with hx | hx
        -- So has one that was declared.
        · obtain ⟨y, hy, hcopied⟩ := exists_of_mem_forall₂ hcopies hx
          obtain ⟨r, hr, rfl⟩ := List.mem_map.mp hy
          obtain ⟨hr, hsource⟩ := Registry.mem_declaredAt.mp hr
          have hcheck := (he.keyed.registry.wellKeyed _ _ r hr hsource).1
          rw [hcopied]
          exact Rule.provider_of_hasCheck (hun.registered _ _ r hr) hcheck
        · exact List.mem_singleton.mp hx ▸ hprovider
      · obtain ⟨-, hrules⟩ := hmade.checks hchecks
        obtain ⟨check, -, hcheck⟩ := exists_of_mem_forall₂ hrules hx
        rw [hcheck]
        rfl
  · obtain ⟨y, hy, rfl⟩ := List.mem_map.mp hx
    obtain ⟨b, -, hy⟩ := mem_listedRules.mp hy
    exact Rule.provider_of_hasCheck (hun.held b y hy) (he.numbered.home b y hy).2

/-- So no rule that is made is mixed. -/
theorem unmixed (h : e.Gathered c again xss providers mid) (he : e.Tidy) (hun : e.Unmixed) :
    ∀ x ∈ whole c e again xss providers, x.isMixed = false := by
  intro x hx
  rcases List.mem_append.mp hx with hx | hx
  · exact Rule.isMixed_of_provider (h.provider_eq_none he hun x hx)
  · obtain ⟨p, -, -, -, hcheck⟩ := exists_of_mem_forall₂ h.carriers hx
    rw [Rule.isMixed, hcheck, Bool.false_and]

/-- **For a member there are no more providers** than were gathered for it. -/
theorem countP_provides_le (h : e.Gathered c again xss providers mid) (he : e.Tidy)
    (hun : e.Unmixed) (k : MemberKey) :
    (RuleGroup.ofMember k (whole c e again xss providers)).countP Rule.provides ≤
      (e.configuration c).providers.countP fun p => p.1.key == k := by
  have hothers : (RuleGroup.ofMember k (again ++ xss.flatten ++
      (e.listedRules c).map (e.configuration c).complete)).countP Rule.provides = 0 :=
    List.countP_eq_zero.mpr fun x hx hprovides => by
      have hprovider := h.provider_eq_none he hun x (RuleGroup.mem_ofMember.mp hx).1
      rw [Rule.provides, hprovider] at hprovides
      cases hprovides
  have hcarriers : providers.countP (fun x => x.member.key == k) =
      (e.configuration c).providers.countP fun p => p.1.key == k := by
    have hkeys : providers.map (fun x => x.member.key) =
        (e.configuration c).providers.map fun p => p.1.key :=
      map_eq_of_forall₂ (h.carriers.imp fun p x hx => congrArg MemberRef.key hx.1)
    have hcounts := congrArg (List.countP fun x => x == k) hkeys
    rwa [List.countP_map, List.countP_map] at hcounts
  unfold whole RuleGroup.ofMember at *
  rw [List.filter_append, List.countP_append, hothers, Nat.zero_add, ← hcarriers,
    List.countP_eq_length_filter, List.countP_eq_length_filter]
  exact List.filter_sublist.length_le

end Gathered

end Engine

namespace Action

open Engine Finset

variable {e : Engine} {c : Nat}

/-- **A build leaves no more providers** than were registered or gathered, and mixes no rules. -/
theorem build_providers (c : Nat) (he : e.Tidy) (hun : e.Unmixed) :
    (∀ t k, (build c e).2.providers t k ≤ e.providers t k) ∧ (build c e).2.Unmixed := by
  let A : Deed → Prop := fun d => ∀ c k, d ≠ .provide c k
  have hA : ∀ c k, ¬ A (.provide c k) := fun c k h => h c k rfl
  have hforget : e.PutsAway A c := fun _ _ _ _ _ h => by cases h
  rcases build_parts (commit_edits hforget) (fun t => mark_edits t true) gather_edits with
    hedits | ⟨mid, rs, hok, hedits, hmoves, hregisters⟩
  · exact ⟨(hedits.providesNoMore hA).providers_le, hedits.unmixed hun⟩
  have hc : c < e.configurations.length := hmoves.sequel.length ▸ hregisters.lt
  have hbuild : build c e = (.ok rs, (build c e).2) := Prod.ext hok rfl
  obtain ⟨htidy, again, xss, providers, mid', hgathered, hregistry⟩ := build_gathers he hc hbuild
  have hcommitted : (e.committed c).Unmixed := ⟨hun.registered, hun.held⟩
  have hcfg := configuration_committed hc
  have hmade := hgathered.countP_provides_le htidy hcommitted
  have hunmixed := hgathered.unmixed htidy hcommitted
  rw [hcfg] at hmade
  have hnoMore := hedits.providesNoMore hA
  generalize whole c (e.committed c) again xss providers = ys at hregistry hmade hunmixed
  -- The rules that are registered are those before, and those that were gathered.
  have hsame : ∀ t k, mid'.registry.rulesOfMember t k = e.registry.rulesOfMember t k :=
    hgathered.registry
  refine ⟨fun t k => ?_, fun t k => ?_, fun b r hr => ?_⟩
  · have hregistered : (build c e).2.registry.providers t k ≤ e.registry.providers t k +
        (e.configuration c).providersFor t k := by
      have hadded := Registry.countP_addAll_le (u := t) (k := k) Rule.provides mid'.registry
        (e.configuration c).type ys
      rw [hsame] at hadded
      rw [hregistry]
      refine hadded.trans (Nat.add_le_add_left ?_ _)
      unfold Configuration.providersFor
      split
      · exact hmade k
      · exact le_rfl
    have hemptied : ((build c e).2.configuration c).providersFor t k = 0 := by
      rw [hregisters.configuration]
      show (if _ then 0 else 0) = 0
      split <;> rfl
    have hothers : ∀ c', c' ≠ c → ((build c e).2.configuration c').providersFor t k ≤
        (e.configuration c').providersFor t k := fun c' hne => by
      rw [hregisters.configuration_of_ne (Ne.symm hne)]
      exact hnoMore.gathered c' t k
    have hlength : (build c e).2.configurations.length = e.configurations.length :=
      hregisters.length.trans hmoves.sequel.length
    have hgathered : (build c e).2.gatheredProviders t k +
        (e.configuration c).providersFor t k ≤ e.gatheredProviders t k := by
      rw [gatheredProviders_split (hlength ▸ hc), gatheredProviders_split hc, hemptied, hlength]
      have hrest := sum_le_sum fun c' (hc' : c' ∈ (range e.configurations.length).erase c) =>
        hothers c' (ne_of_mem_erase hc')
      omega
    unfold Engine.providers
    omega
  · rw [hregistry]
    have hbefore : Engine.Unmixed { e with registry := mid'.registry } :=
      hun.ofRegistry fun t k r hr => hun.registered t k r (hsame t k ▸ hr)
    exact hbefore.addAll (e.configuration c).type hunmixed t k
  · rw [Engine.builder, hregisters.builders] at hr
    exact (hedits.unmixed hun).held b r hr

end Action

/-! ## 4. Steps that set a provider -/

namespace Action

open Engine

/-- **What setting a provider does**: it is refused if the member has one, as far as this is looked
for, or if the member cannot be written. -/
theorem provide_cases (c : Nat) (m : MemberRef) (x : Expr) (e : Engine) :
    (0 < e.registry.providers (e.configuration c).type m.key ∨
        0 < (e.configuration c).providersFor (e.configuration c).type m.key) ∧
      provide c m x e = (.error (.configuration (AppError.duplicateProvider m)), e) ∨
    (e.registry.providers (e.configuration c).type m.key = 0 ∧
        (e.configuration c).providersFor (e.configuration c).type m.key = 0) ∧
      (provide c m x e = (.error (.configuration (AppError.unwritable m)), e) ∨
        provide c m x e = (.ok (), e.updateConfiguration c fun cfg =>
          { cfg with providers := cfg.providers ++ [(m, x)] })) := by
  have hregistered : ((e.registry.rulesOfMember (e.configuration c).type m.key).any fun r =>
      r.provider.isSome) = true ↔ 0 < e.registry.providers (e.configuration c).type m.key := by
    rw [Registry.providers, List.countP_pos_iff, List.any_eq_true]
    rfl
  have hown : ((e.configuration c).providers.any fun p => p.1.key == m.key) = true ↔
      0 < (e.configuration c).providersFor (e.configuration c).type m.key := by
    rw [Configuration.providersFor, if_pos rfl, List.countP_pos_iff, List.any_eq_true]
  unfold provide
  rw [configuration_bind, bind_ok (get_apply e)]
  dsimp only
  by_cases hdup : ((e.configuration c).providers.any (fun p => p.1.key == m.key) ||
      (e.registry.rulesOfMember (e.configuration c).type m.key).any fun r =>
        r.provider.isSome) = true
  · refine .inl ⟨?_, by rw [if_pos hdup]; rfl⟩
    rw [← hregistered, ← hown]
    exact (Bool.or_eq_true_iff.mp hdup).symm
  · refine .inr ⟨?_, ?_⟩
    · rw [Bool.or_eq_true, not_or, hregistered, hown, Nat.not_lt, Nat.not_lt, Nat.le_zero,
        Nat.le_zero] at hdup
      exact hdup.symm
    · rw [if_neg hdup]
      cases hwritable : m.isWritable e.world.schema with
      | false =>
        refine .inl ?_
        show (if !m.isWritable e.world.schema then _ else _ : Action Unit) e = _
        rw [hwritable]
        rfl
      | true =>
        refine .inr ?_
        show (if !m.isWritable e.world.schema then _ else _ : Action Unit) e = _
        rw [hwritable]
        rfl

end Action

namespace Engine

open Action

variable {e : Engine} {c : Nat} {t : TypeId} {k : MemberKey} {m : MemberRef} {call : Call}

/-- The configuration and the member that a call is to set a value provider for. -/
def Call.provision? (e : Engine) : Call → Option (Nat × MemberRef)
  | step c (.check (.provide _)) => (e.configuration c).current.map fun p => (c, p.member)
  | check b (.provide _) => some ((e.builder b).owner, (e.builder b).member)
  | _ => none

/-- A call is refused because the member has a value provider already. -/
def Call.RefusesProvider (call : Call) (e : Engine) (m : MemberRef) : Prop :=
  (call.run e).1 = .error (.configuration (AppError.duplicateProvider m))

/-- A call that sets a provider beside that of another configuration of the type, which is all that
there is for the member. -/
def Call.Crosses (call : Call) (e : Engine) : Prop :=
  ∃ c m, call.provision? e = some (c, m) ∧ c < e.configurations.length ∧
    e.registry.providers (e.configuration c).type m.key = 0 ∧
    (e.configuration c).providersFor (e.configuration c).type m.key = 0 ∧
    ∃ c', 0 < (e.configuration c').providersFor (e.configuration c).type m.key

theorem Call.run_of_provision (h : call.provision? e = some (c, m)) :
    ∃ x i, call.run e = (provide c m x >>= fun _ => pure i : Action Nat) e := by
  unfold Call.provision? at h
  split at h
  · rename_i c' x
    obtain ⟨p, hp, heq⟩ := Option.map_eq_some_iff.mp h
    cases heq
    have hcurrent : requireCurrent c "before_validation" e = (.ok p, e) := by
      unfold requireCurrent
      rw [configuration_bind, hp]
      rfl
    have hrun : checkStep c (.provide x) e = provide c p.member x e := bind_ok hcurrent
    refine ⟨x, c, ?_⟩
    show (checkStep c (.provide x) >>= fun _ => pure c : Action Nat) e = _
    rw [bind_apply, hrun, bind_apply]
  · rename_i b x
    cases h
    exact ⟨x, b, rfl⟩
  · cases h

/-- **What such a call does.** -/
theorem Call.provision_cases (h : call.provision? e = some (c, m)) :
    (0 < e.registry.providers (e.configuration c).type m.key ∨
        0 < (e.configuration c).providersFor (e.configuration c).type m.key) ∧
      call.RefusesProvider e m ∧ call.after e = e ∨
    (e.registry.providers (e.configuration c).type m.key = 0 ∧
        (e.configuration c).providersFor (e.configuration c).type m.key = 0) ∧
      ¬ call.RefusesProvider e m ∧
      (call.after e = e ∨ ∃ x, call.after e = e.updateConfiguration c fun cfg =>
        { cfg with providers := cfg.providers ++ [(m, x)] }) := by
  obtain ⟨x, i, hrun⟩ := Call.run_of_provision h
  unfold Call.RefusesProvider Call.after
  rw [hrun]
  rcases provide_cases c m x e with ⟨hthere, hset⟩ | ⟨hnone, hset | hset⟩
  · rw [bind_error hset]
    exact .inl ⟨hthere, rfl, rfl⟩
  · rw [bind_error hset]
    refine .inr ⟨hnone, fun heq => ?_, .inl rfl⟩
    have hcode : (AppError.unwritable m).code = (AppError.duplicateProvider m).code :=
      congrArg AppError.code (Fault.configuration.inj (Except.error.inj heq))
    cases hcode
  · rw [bind_ok hset]
    exact .inr ⟨hnone, fun heq => (by cases heq), .inr ⟨x, rfl⟩⟩

theorem gatheredProviders_pos_iff :
    0 < e.gatheredProviders t k ↔ ∃ c, 0 < (e.configuration c).providersFor t k := by
  constructor
  · intro h
    by_contra hnone
    push Not at hnone
    exact h.ne' (Finset.sum_eq_zero fun c _ => Nat.le_zero.mp (hnone c))
  · rintro ⟨c, hc⟩
    exact hc.trans_le (providersFor_le_gathered e c t k)

/-- **A provider is refused exactly if there is one already**, but for calls that cross. -/
theorem Call.refuses_iff (h : call.provision? e = some (c, m)) (hc : c < e.configurations.length) :
    (call.RefusesProvider e m ↔ 0 < e.providers (e.configuration c).type m.key) ↔
      ¬ call.Crosses e := by
  unfold Engine.providers
  rcases Call.provision_cases h with ⟨hthere, hrefuses, -⟩ | ⟨⟨hregistered, hown⟩, haccepts, -⟩
  · have hpositive : 0 < e.registry.providers (e.configuration c).type m.key +
        e.gatheredProviders (e.configuration c).type m.key := by
      have hle := providersFor_le_gathered e c (e.configuration c).type m.key
      omega
    refine iff_of_true (iff_of_true hrefuses hpositive) ?_
    rintro ⟨c', m', h', -, hregistered, hown, -⟩
    obtain ⟨rfl, rfl⟩ := Prod.mk.inj (Option.some.inj (h'.symm.trans h))
    omega
  · rw [hregistered, Nat.zero_add, gatheredProviders_pos_iff]
    constructor
    · rintro hiff ⟨c', m', h', -, -, -, hother⟩
      obtain ⟨rfl, rfl⟩ := Prod.mk.inj (Option.some.inj (h'.symm.trans h))
      exact haccepts (hiff.mpr hother)
    · intro hcross
      refine iff_of_false haccepts fun hother => hcross ?_
      exact ⟨c, m, h, hc, hregistered, hown, hother⟩

/-! ## 5. Providers along calls -/

/-- A configuration that gathers a provider more. -/
theorem providers_provide_le (e : Engine) (c : Nat) (m : MemberRef) (x : Expr) (t : TypeId)
    (k : MemberKey) : (e.updateConfiguration c fun cfg =>
      { cfg with providers := cfg.providers ++ [(m, x)] }).providers t k ≤ e.providers t k +
        if c < e.configurations.length ∧ (e.configuration c).type = t ∧ m.key = k then 1 else 0 := by
  let f : Configuration → Configuration := fun cfg =>
    { cfg with providers := cfg.providers ++ [(m, x)] }
  have hlength : (e.updateConfiguration c f).configurations.length = e.configurations.length :=
    List.length_modify ..
  have hothers : ∀ c', c ≠ c' → ((e.updateConfiguration c f).configuration c').providersFor t k =
      (e.configuration c').providersFor t k := fun c' hne => by
    rw [configuration_updateConfiguration_of_ne hne]
  refine (Nat.add_le_add_left ?_ _).trans (Nat.add_assoc ..).ge
  by_cases hc : c < e.configurations.length
  · have hown : ((e.updateConfiguration c f).configuration c).providersFor t k =
        (e.configuration c).providersFor t k +
          if (e.configuration c).type = t ∧ m.key = k then 1 else 0 := by
      rw [configuration_updateConfiguration_self hc f]
      unfold Configuration.providersFor
      by_cases htype : (e.configuration c).type = t
      · simp [f, htype, List.countP_append, List.countP_cons]
      · simp [f, htype]
    have hrest : ∑ c' ∈ (Finset.range e.configurations.length).erase c,
        ((e.updateConfiguration c f).configuration c').providersFor t k =
        ∑ c' ∈ (Finset.range e.configurations.length).erase c,
          (e.configuration c').providersFor t k :=
      Finset.sum_congr rfl fun c' hc' => hothers c' (Finset.ne_of_mem_erase hc').symm
    rw [gatheredProviders_split (hlength ▸ hc), gatheredProviders_split hc, hlength, hown, hrest]
    simp only [hc, true_and]
    omega
  · have hsame : e.updateConfiguration c f = e := by
      unfold updateConfiguration
      rw [List.modify_eq_self (Nat.le_of_not_lt hc)]
    rw [hsame]
    exact Nat.le_add_right _ _

/-- At most one value provider is registered or gathered for each member. -/
structure ProvidedOnce (e : Engine) : Prop where
  once : ∀ t k, e.providers t k ≤ 1
  unmixed : e.Unmixed

/-- **A call that does not cross** keeps at most one provider for each member. -/
theorem ProvidedOnce.after (h : e.ProvidedOnce) (he : e.Tidy) (hcross : ¬ call.Crosses e) :
    (call.after e).ProvidedOnce := by
  cases hprovision : call.provision? e with
  | some p =>
    obtain ⟨c, m⟩ := p
    rcases Call.provision_cases hprovision with
      ⟨-, -, hsame⟩ | ⟨-, haccepts, hsame | ⟨x, hset⟩⟩
    · rwa [hsame]
    · rwa [hsame]
    · rw [hset]
      refine ⟨fun t k => ?_, h.unmixed.registered, h.unmixed.held⟩
      have hle := providers_provide_le e c m x t k
      have hbefore := h.once t k
      split at hle
      · rename_i hfor
        obtain ⟨hc, rfl, rfl⟩ := hfor
        have hnone := mt ((Call.refuses_iff hprovision hc).mpr hcross).mpr haccepts
        omega
      · omega
  | none =>
    let A : Deed → Prop := fun d => ∀ c k, d ≠ .provide c k
    have hA : ∀ c k, ¬ A (.provide c k) := fun c k h => h c k rfl
    have hedits : ∀ {e₁ e₂ : Engine}, Edits A e₁ e₂ → e₁.ProvidedOnce → e₂.ProvidedOnce :=
      fun hedits h₁ => ⟨fun t k => ((hedits.providesNoMore hA).providers_le t k).trans (h₁.once t k),
        hedits.unmixed h₁.unmixed⟩
    cases hbuilds : call.builds? with
    | some c =>
      obtain ⟨hle, hunmixed⟩ := build_providers c he h.unmixed
      have hbuilt : (Action.build c e).2.ProvidedOnce :=
        ⟨fun t k => (hle t k).trans (h.once t k), hunmixed⟩
      exact hedits (Call.after_of_build (I := Edits A _) hbuilds (.refl _)) hbuilt
    | none =>
      refine hedits (Call.after_edits (fun d hd c k heq => ?_) hbuilds) h
      subst heq
      cases hd with
      | step hd =>
        cases hd with
        | provide x hk =>
          obtain ⟨p, hp, -⟩ := hk
          rw [Call.provision?, hp] at hprovision
          cases hprovision
      | provide b x => cases hprovision

/-- Calls none of which crosses. -/
def Uncrossed : List Call → Engine → Prop
  | [], _ => True
  | call :: rest, e => ¬ call.Crosses e ∧ Uncrossed rest (call.after e)

/-- Calls that are refused a provider exactly if it would lead to a second one. -/
def RefusesSecond : List Call → Engine → Prop
  | [], _ => True
  | call :: rest, e => (∀ c m, call.provision? e = some (c, m) → c < e.configurations.length →
      (call.RefusesProvider e m ↔ 0 < e.providers (e.configuration c).type m.key)) ∧
    RefusesSecond rest (call.after e)

theorem refusesSecond_iff {calls : List Call} : RefusesSecond calls e ↔ Uncrossed calls e := by
  induction calls generalizing e with
  | nil => exact .rfl
  | cons call rest ih =>
    refine and_congr ⟨fun h hcross => ?_, fun hcross c m hprovision hc => ?_⟩ ih
    · obtain ⟨c, m, hprovision, hc, -⟩ := id hcross
      exact (Call.refuses_iff hprovision hc).mp (h c m hprovision hc) hcross
    · exact (Call.refuses_iff hprovision hc).mpr hcross

/-- **Calls that do not cross** keep at most one provider for each member. -/
theorem ProvidedOnce.afterCalls {calls : List Call} (h : e.ProvidedOnce) (he : e.Tidy)
    (hcross : Uncrossed calls e) : (e.afterCalls calls).ProvidedOnce := by
  induction calls generalizing e with
  | nil => exact h
  | cons call rest ih =>
    obtain ⟨hfirst, hrest⟩ := hcross
    exact ih (h.after he hfirst) (Call.after_tidy call he) hrest

theorem Blank.providedOnce (h : e.Blank) : e.ProvidedOnce where
  once t k := by
    unfold Engine.providers gatheredProviders
    rw [h.registry, h.configurations]
    exact Nat.zero_le 1
  unmixed := by
    refine ⟨fun t k r hr => ?_, fun b r hr => ?_⟩
    · rw [h.registry] at hr
      cases hr
    · rw [builder, h.builders] at hr
      cases hr

/-- **Without nested rules no call crosses**, since there is one configuration of a type at most. -/
theorem Booked.uncrossed {calls : List Call} (h : e.Booked)
    (hnest : ∀ call ∈ calls, call.Nestless) : Uncrossed calls e := by
  induction calls generalizing e with
  | nil => trivial
  | cons call rest ih =>
    obtain ⟨hfirst, hrest⟩ := List.forall_mem_cons.mp hnest
    refine ⟨?_, ih (h.after hfirst) hrest⟩
    rintro ⟨c, m, -, hc, -, hown, c', hother⟩
    have hc' : c' < e.configurations.length := by
      by_contra hge
      rw [providersFor_of_length_le (Nat.le_of_not_lt hge)] at hother
      exact absurd hother (lt_irrefl 0)
    have htype : (e.configuration c').type = (e.configuration c).type := by
      by_contra hne
      rw [Configuration.providersFor, if_neg hne] at hother
      exact absurd hother (lt_irrefl 0)
    rw [h.eq_of_type hc hc' htype, hown] at hother
    exact absurd hother (lt_irrefl 0)

end Engine

open Engine

/-- **A member has at most one value provider**, and a second one is refused, if no call sets one
beside that of another configuration.  Take any calls from where nothing has been configured.  They
are refused a provider exactly when it would lead to a second one for the member if and only if none
of them crosses.  Then every member has at most one registered rule with a provider; and none of them
crosses if there are no blocks of nested rules. -/
theorem providers_once_iff {e : Engine} (he : e.Blank) (calls : List Call) :
    (RefusesSecond calls e ↔ Uncrossed calls e) ∧
    (Uncrossed calls e → ∀ t, ∀ g ∈ (e.afterCalls calls).registry.allGroups t,
      g.rules.countP Rule.provides ≤ 1) ∧
    ((∀ call ∈ calls, call.Nestless) → Uncrossed calls e) := by
  refine ⟨refusesSecond_iff, fun hcross t g hg => ?_,
    (booked_of_nothing he.configurations).uncrossed⟩
  have honce := (he.providedOnce.afterCalls he.tidy hcross).once t g.member.key
  have hgroup : (e.afterCalls calls).registry.rulesOfMember t g.member.key = g.rules :=
    Registry.rulesAt_of_mem ((he.tidy.afterCalls calls).keyed.registry.members t) hg
  rw [← hgroup]
  exact (Nat.le_add_right _ _).trans honce

/-! ## 6. The numbers of items

The number of an item gets a value provider.  The lines of an order are items, too, and in their rules
the number gets another one. -/

namespace OrderLines

def start : Engine := { world := { schema } }

theorem blank : start.Blank := ⟨rfl, rfl, rfl, Schema.faithful_nil _⟩

def sku : MemberRef := ⟨.declared "Item", "sku", .field⟩

/-- The number is read without blanks. -/
def stripped : Call := .check 0 (.provide (.strip .subject))

/-- Items get a provider for their numbers. -/
def items : List Call := [.configure (.declared "Item"), .step 0 (.builder (.ref sku) false none [])]

/-- And so do the items of orders. -/
def nested : List Call := [
  .configure (.declared "Order"),
  .step 1 (.builder (.ref ⟨.declared "Order", "lines", .field⟩) true none []),
  .nest 1 none,
  .step 2 (.builder (.ref sku) false none []),
  .check 2 (.provide (.strip .subject)),
  .build 2,
  .build 0]

end OrderLines

/-- A second provider for the numbers of items is refused. -/
theorem providers_once_iff_items : OrderLines.stripped.RefusesProvider
    (OrderLines.start.afterCalls (OrderLines.items ++ [OrderLines.stripped])) OrderLines.sku := by
  let calls := OrderLines.items ++ [OrderLines.stripped, OrderLines.stripped]
  have hnestless : ∀ call ∈ calls, call.Nestless := by
    simp [calls, OrderLines.items, OrderLines.stripped, Call.Nestless]
  obtain ⟨hrefuses, -, huncrossed⟩ := providers_once_iff OrderLines.blank calls
  obtain ⟨-, -, -, hlast, -⟩ := hrefuses.mpr (huncrossed hnestless)
  refine (hlast 0 OrderLines.sku (by decide +kernel) (by decide +kernel)).mpr ?_
  decide +kernel

/-- **A member can have two value providers.** -/
theorem providers_twice : ¬ ∀ {e : Engine}, e.Blank → ∀ calls, RefusesSecond calls e ∧
    ∀ t, ∀ g ∈ (e.afterCalls calls).registry.allGroups t, g.rules.countP Rule.provides ≤ 1 := by
  intro h
  have honce := (h OrderLines.blank (OrderLines.items ++ OrderLines.stripped ::
    OrderLines.nested)).2 (.declared "Item")
  have htwo : ((OrderLines.start.afterCalls (OrderLines.items ++ OrderLines.stripped ::
      OrderLines.nested)).registry.allGroups (.declared "Item")).any
        (fun g => g.rules.countP Rule.provides == 2) = true := by decide +kernel
  obtain ⟨g, hg, hcount⟩ := List.any_eq_true.mp htwo
  have hle := honce g hg
  rw [beq_iff_eq.mp hcount] at hle
  omega

end MemberRules
