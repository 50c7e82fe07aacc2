/-
# Settings reach all checks

A setting for all rules of a type is kept with its configuration, and marks it as changed.  The next
build completes all checks of the type, those that are registered and those that were gathered, and
takes the mark away.  From then on the checks have what was asked for: what is registered later has
been completed as well, and nothing takes a setting from a rule.  So after every build all checks
have what was asked for last, as long as no block of nested rules registers rules of the type by
another configuration.

* `Asked`, `Rule.Meets`: the settings that have been asked for, and a rule that has them.
* `Engine.Reached`: what holds of the checks of a type between builds.
* `Engine.Enriches`: rules that have at least the settings that they had.
* `settings_reach_checks`: checks after a build, and what a build takes from rules.
-/
import MemberRules.Proofs.Configuration.Turns
import MemberRules.Proofs.Declared.Blocks
import MemberRules.Proofs.Declared.Registered

namespace MemberRules

open MemberRules.Computation

/-! ## 1. What has been asked for -/

/-- The settings for all rules of a type as they were asked for last. -/
structure Asked where
  resource : Option String := none
  culture : Option Culture := none
  fallback : Option String := none
  withoutConventionalKeys : Bool := false

namespace Asked

def set (asked : Asked) : TypeSetting → Asked
  | .resource name => { asked with resource := name }
  | .culture value => { asked with culture := value }
  | .fallback text => { asked with fallback := text }
  | .withoutConventionalKeys => { asked with withoutConventionalKeys := true }

def after (c : Nat) (asked : Asked) (call : Engine.Call) : Asked :=
  (call.setting? c).elim asked asked.set

/-- What calls ask for from a configuration. -/
def of (c : Nat) (calls : List Engine.Call) : Asked := calls.foldl (after c) {}

end Asked

/-- A rule that has what was asked for. -/
structure Rule.Meets (asked : Asked) (r : Rule) : Prop where
  resource : asked.resource ≠ none → r.resource ≠ none
  culture : asked.culture ≠ none → r.culture ≠ none
  fallback : asked.fallback ≠ none → r.fallback ≠ none
  conventionalKeys : asked.withoutConventionalKeys = true → r.conventionalKeys = false

/-- A configuration that has it. -/
structure Configuration.Meets (asked : Asked) (cfg : Configuration) : Prop where
  resource : asked.resource ≠ none → cfg.resource ≠ none
  culture : asked.culture ≠ none → cfg.culture ≠ none
  fallback : asked.fallback ≠ none → cfg.fallback ≠ none
  conventionalKeys : asked.withoutConventionalKeys = true → cfg.conventionalKeys = false

namespace Rule

variable {asked : Asked} {r r' : Rule}

theorem meets_look : r.look.Meets asked ↔ r.Meets asked :=
  ⟨fun h => ⟨h.resource, h.culture, h.fallback, h.conventionalKeys⟩,
    fun h => ⟨h.resource, h.culture, h.fallback, h.conventionalKeys⟩⟩

/-- A setting that is there stays there. -/
theorem ne_none_of_kept {α : Type} {o o' : Option α} (h : ∀ x, o = some x → o' = some x)
    (hne : o ≠ none) : o' ≠ none := by
  obtain ⟨x, hx⟩ := Option.ne_none_iff_exists'.mp hne
  rw [h x hx]
  exact Option.some_ne_none x

theorem Meets.retained (h : r.Meets asked) (hretains : r.Retains r') : r'.Meets asked where
  resource hasked := ne_none_of_kept hretains.resource (h.resource hasked)
  culture hasked := ne_none_of_kept hretains.culture (h.culture hasked)
  fallback hasked := ne_none_of_kept hretains.fallback (h.fallback hasked)
  conventionalKeys hasked := hretains.conventionalKeys (h.conventionalKeys hasked)

/-- Rules that look the same have the same settings. -/
theorem Retains.of_look {x : Rule} (h : r.Retains r') (hplace : x.place = r.place)
    (hlook : x.look = r'.look) : r.Retains x where
  place := hplace
  culture y hy := (congrArg Rule.culture hlook).trans (h.culture y hy)
  resource y hy := (congrArg Rule.resource hlook).trans (h.resource y hy)
  fallback y hy := (congrArg Rule.fallback hlook).trans (h.fallback y hy)
  conventionalKeys hy := (congrArg Rule.conventionalKeys hlook).trans (h.conventionalKeys hy)

theorem Retains.hasCheck (h : r.Retains r') : r'.hasCheck = r.hasCheck :=
  congrArg Option.isSome (validator_of_place h.place)

end Rule

namespace Configuration.Meets

variable {asked : Asked} {cfg cfg' : Configuration}

/-- A configuration with what was asked for completes every rule with it. -/
theorem complete (h : cfg.Meets asked) (r : Rule) : (cfg.complete r).Meets asked where
  resource hasked hnone := h.resource hasked (Option.or_eq_none_iff.mp hnone).2
  culture hasked hnone := h.culture hasked (Option.or_eq_none_iff.mp hnone).2
  fallback hasked hnone := h.fallback hasked (Option.or_eq_none_iff.mp hnone).2
  conventionalKeys hasked := by
    rw [Configuration.complete, h.conventionalKeys hasked, Bool.and_false]

/-- So it does when it is built, with every rule that does not have it already. -/
theorem renewed (h : cfg.Meets asked) {r : Rule} (hr : cfg.settingsChanged = false → r.Meets asked)
    (block : Option PendingRule) : (cfg.renewed block r).Meets asked := by
  have hrefreshed : (cfg.refreshed r).Meets asked := by
    unfold refreshed
    cases hchanged : cfg.settingsChanged with
    | true => exact h.complete r
    | false => exact hr hchanged
  unfold Configuration.renewed
  split
  · exact h.complete _
  · exact hrefreshed

theorem same (h : cfg.Meets asked) (hsame : cfg.SameSettings cfg') : cfg'.Meets asked := by
  constructor
  · rw [hsame.resource]
    exact h.resource
  · rw [hsame.culture]
    exact h.culture
  · rw [hsame.fallback]
    exact h.fallback
  · rw [hsame.conventionalKeys]
    exact h.conventionalKeys

theorem set (h : cfg.Meets asked) (s : TypeSetting) : (s.on cfg).Meets (asked.set s) := by
  cases s with
  | resource name => exact ⟨id, h.culture, h.fallback, h.conventionalKeys⟩
  | culture value => exact ⟨h.resource, id, h.fallback, h.conventionalKeys⟩
  | fallback text => exact ⟨h.resource, h.culture, id, h.conventionalKeys⟩
  | withoutConventionalKeys => exact ⟨h.resource, h.culture, h.fallback, fun _ => rfl⟩

end Configuration.Meets

/-! ## 2. Between builds -/

namespace Engine

open Action

variable {e e' mid : Engine} {c c' : Nat} {asked : Asked} {cfg : Configuration} {rs : List Rule}

/-- A configuration with what was asked for.  If its settings have not changed since it was built,
the checks of its type have this too. -/
structure Reached (c : Nat) (asked : Asked) (e : Engine) : Prop where
  lt : c < e.configurations.length
  settings : (e.configuration c).Meets asked
  checks : (e.configuration c).settingsChanged = false →
    ∀ k, ∀ r ∈ e.registry.checksAt (e.configuration c).type k, r.Meets asked

theorem Reached.moves (h : e.Reached c asked) (hbooked : e.Booked) (hmoves : e.Moves e') :
    e'.Reached c asked := by
  have hsequel := hmoves.sequel
  have hsame := hsequel.settings c
  refine ⟨hsequel.length ▸ h.lt, h.settings.same hsame, fun hchanged k r' hr' => ?_⟩
  obtain ⟨hr', hcheck⟩ := Registry.mem_checksAt.mp hr'
  rw [hsame.type] at hr'
  obtain ⟨r, hr, hretains⟩ := hsequel.rules _ (hbooked.known c h.lt) k r' hr'
  rw [hretains.hasCheck] at hcheck
  have hmeets := h.checks (hsame.settingsChanged ▸ hchanged) k r (Registry.mem_checksAt.mpr
    ⟨hr, hcheck⟩)
  exact hmeets.retained hretains

/-- A setting of the configuration itself leaves nothing to show of the checks. -/
theorem Reached.set (h : e.Reached c asked) (s : TypeSetting) :
    (e.updateConfiguration c s.on).Reached c (asked.set s) := by
  have hcfg := configuration_updateConfiguration_self h.lt s.on
  refine ⟨(List.length_modify ..).symm ▸ h.lt, ?_, fun hchanged => ?_⟩
  · rw [hcfg]
    exact h.settings.set s
  · rw [hcfg, s.on_settingsChanged] at hchanged
    cases hchanged

/-- What is not about the configuration and its type makes no difference. -/
theorem Reached.of_apart (h : e.Reached c asked)
    (hlength : e.configurations.length ≤ e'.configurations.length)
    (hcfg : e'.configuration c = e.configuration c)
    (hrules : ∀ k, e'.registry.rulesOfMember (e.configuration c).type k =
      e.registry.rulesOfMember (e.configuration c).type k) : e'.Reached c asked := by
  refine ⟨h.lt.trans_le hlength, ?_, fun hchanged k r hr => ?_⟩
  · rw [hcfg]
    exact h.settings
  · rw [hcfg] at hchanged hr
    unfold Registry.checksAt at hr
    rw [hrules] at hr
    exact h.checks hchanged k r hr

theorem Reached.set_of_ne (h : e.Reached c asked) (hne : c' ≠ c) (s : TypeSetting) :
    (e.updateConfiguration c' s.on).Reached c asked :=
  h.of_apart (List.length_modify ..).ge (configuration_updateConfiguration_of_ne hne _) fun _ => rfl

theorem Reached.lists (h : e.Reached c asked) (hlists : e.Lists cfg e') : e'.Reached c asked := by
  refine h.of_apart ?_ ?_ fun k => ?_
  · rw [hlists.configurations, List.length_append]
    exact Nat.le_add_right ..
  · rw [hlists.configuration, if_pos h.lt]
  · rw [hlists.registry]

theorem Reached.registers_of_ne (h : e.Reached c asked) (hbooked : e.Booked)
    (hregisters : e.Registers c' rs e') (hne : c' ≠ c) : e'.Reached c asked := by
  refine h.of_apart hregisters.length.ge (hregisters.configuration_of_ne hne) fun k => ?_
  have htype : (e.configuration c).type ≠ (e.configuration c').type := fun heq =>
    hne (hbooked.eq_of_type h.lt hregisters.lt heq.symm)
  rw [hregisters.registry]
  exact rulesOfMember_of_groups (Registry.allGroups_addAll_of_ne htype e.registry rs) k

/-- **After a build** all checks of the type have what was asked for. -/
theorem Reached.of_build (h : e.Reached c asked) (he : e.Tidy)
    (hbuild : build c e = (.ok rs, e')) (k : MemberKey) :
    ∀ r ∈ e'.registry.checksAt (e.configuration c).type k, r.Meets asked := by
  intro r hr
  have hregisters := build_registers he h.lt hbuild k
  have hlook : r.look ∈ e.checksToCome c k ((e.configuration c).lastBlock k) :=
    hregisters ▸ List.mem_map_of_mem hr
  rw [← Rule.meets_look]
  rcases List.mem_append.mp hlook with hlook | hlook
  · obtain ⟨r', hr', heq⟩ := List.mem_map.mp hlook
    rw [← heq, Rule.meets_look]
    exact h.settings.renewed (fun hchanged => h.checks hchanged k r' hr') _
  · -- New checks are completed, whether they were gathered for members or by builders.
    rcases List.mem_append.mp hlook with hlook | hlook
    · obtain ⟨p, -, hlook⟩ := List.mem_flatMap.mp hlook
      obtain ⟨check, -, heq⟩ := List.mem_map.mp hlook
      rw [← heq]
      exact h.settings.complete _
    · obtain ⟨x, -, heq⟩ := List.mem_map.mp hlook
      rw [← heq, Rule.meets_look]
      exact h.settings.complete x

theorem Reached.build (h : e.Reached c asked) (he : e.Tidy) (hbooked : e.Booked) (c' : Nat) :
    (Action.build c' e).2.Reached c asked := by
  rcases build_cases c' e with hmoves | ⟨mid, rs, hok, hmoves, hregisters⟩
  · exact h.moves hbooked hmoves
  · by_cases hne : c' = c
    · subst hne
      have hsame := hmoves.sequel.settings c'
      have hcfg := hregisters.configuration
      refine ⟨hregisters.length ▸ hregisters.lt, ?_, fun _ => ?_⟩
      · have hsettings := h.settings.same hsame
        rw [hcfg]
        exact ⟨hsettings.resource, hsettings.culture, hsettings.fallback,
          hsettings.conventionalKeys⟩
      · have htype : ((Action.build c' e).2.configuration c').type = (e.configuration c').type := by
          rw [hcfg]
          exact hsame.type
        rw [htype]
        exact h.of_build he (Prod.ext hok rfl)
    · exact (h.moves hbooked hmoves).registers_of_ne (hbooked.moves hmoves) hregisters hne

/-- **A call without nested rules** keeps that settings reach the checks. -/
theorem Reached.after (h : e.Reached c asked) (he : e.Tidy) (hbooked : e.Booked) {call : Call}
    (hnest : call.Nestless) : (call.after e).Reached c (asked.after c call) := by
  by_cases hset : ∀ c', call.setting? c' = none
  · rw [Asked.after, hset c, Option.elim_none]
    rcases Call.after_cases hnest hset e with hmoves | ⟨mid, cfg, hmoves, hlists⟩ | ⟨c', -, hmoves⟩
    · exact h.moves hbooked hmoves
    · exact (h.moves hbooked hmoves).lists hlists
    · exact (h.build he hbooked c').moves (hbooked.build c') hmoves
  · obtain ⟨c', hc'⟩ := not_forall.mp hset
    obtain ⟨s, hs⟩ := Option.ne_none_iff_exists'.mp hc'
    rw [Call.after_of_setting hs]
    by_cases hne : c' = c
    · subst hne
      rw [Asked.after, hs, Option.elim_some]
      exact h.set s
    · rw [Asked.after, Call.setting?_of_ne hs hne, Option.elim_none]
      exact h.set_of_ne hne s

/-- **And so do all calls**, one after the other. -/
theorem Reached.afterCalls {calls : List Call} (h : e.Reached c asked) (he : e.Tidy)
    (hbooked : e.Booked) (hnest : ∀ call ∈ calls, call.Nestless) :
    (e.afterCalls calls).Reached c (calls.foldl (Asked.after c) asked) := by
  induction calls generalizing e asked with
  | nil => exact h
  | cons call rest ih =>
    obtain ⟨hfirst, hrest⟩ := List.forall_mem_cons.mp hnest
    exact ih (h.after he hbooked hfirst) (call.after_tidy he) (hbooked.after hfirst) hrest

/-- Before anything has been asked for, every rule has it. -/
theorem reached_of_nothing (hc : c < e.configurations.length) : e.Reached c {} where
  lt := hc
  settings := ⟨fun h => absurd rfl h, fun h => absurd rfl h, fun h => absurd rfl h,
    fun h => by cases h⟩
  checks _ _ _ _ := ⟨fun h => absurd rfl h, fun h => absurd rfl h, fun h => absurd rfl h,
    fun h => by cases h⟩

end Engine

/-! ## 3. What a build takes from rules -/

namespace Engine

open Action RuleGroup

variable {e e' mid : Engine} {c : Nat} {k : MemberKey} {r : Rule}

/-- What a block sets for a declared rule takes none of these settings. -/
theorem declaredWith_retains (cfg : Configuration) (p : PendingRule) (r : Rule) :
    r.Retains (declaredWith cfg p r) :=
  have hset : r.Retains { r with
      gate := if p.conditioned then p.gate else r.gate
      message := p.message.or r.message
      errorKey := (Message.present p.code).or r.errorKey
      resourceKey := (Message.present p.resourceKey).or r.resourceKey } :=
    ⟨rfl, fun _ h => h, fun _ h => h, fun _ h => h, fun h => h⟩
  hset.trans (cfg.complete_retains _)

/-- An engine whose rules have all settings that they had in another one, where they are registered
and where they are held by builders. -/
structure Enriches (e e' : Engine) : Prop where
  registered : ∀ t k, ∀ r ∈ e.registry.rulesOfMember t k,
    ∃ r' ∈ e'.registry.rulesOfMember t k, r.Retains r'
  held : ∀ b, List.Forall₂ Rule.Retains (e.builder b).rules (e'.builder b).rules

theorem Enriches.refl (e : Engine) : e.Enriches e :=
  ⟨fun _ _ r hr => ⟨r, hr, .refl r⟩, fun _ => List.forall₂_same.mpr fun r _ => .refl r⟩

instance (e₀ : Engine) : Stable (Enriches e₀) where
  of_sameWork hsame he := by
    refine ⟨?_, fun b => ?_⟩
    · rw [hsame.registry]
      exact he.registered
    · rw [hsame.builder]
      exact he.held b

/-- Changing a rule for one that retains what it has. -/
theorem Enriches.amend {e₀ : Engine} (h : e₀.Enriches e) (id : Nat) {f : Rule → Rule}
    (hf : ∀ r : Rule, r.Retains (f r)) : e₀.Enriches (e.amend id f) := by
  have hchange : ∀ r : Rule, r.Retains (if r.id == id then f r else r) := fun r => by
    split
    · exact hf r
    · exact .refl r
  constructor
  · intro t k r hr
    obtain ⟨r', hr', hretains⟩ := h.registered t k r hr
    have hamended : (e.amend id f).registry.rulesOfMember t k = _ :=
      Registry.rulesOfMember_amend id f
    refine ⟨_, ?_, hretains.trans (hchange r')⟩
    rw [hamended]
    exact List.mem_map_of_mem hr'
  · intro b
    rw [builder_amend, List.forall₂_map_right_iff]
    exact (h.held b).imp fun r r' hretains => hretains.trans (hchange r')

namespace Gathered

variable {again providers : List Rule} {xss : List (List Rule)}

/-- **What comes to stand in the place of a registered rule** has the settings that this one had. -/
theorem retains_lastOf (h : e.Gathered c again xss providers mid) (he : e.Tidy)
    (hr : r ∈ e.registry.rulesOfMember (e.configuration c).type k) :
    r.Retains ((lastOf r.uniqueKey (ofMember k (whole c e again xss providers))).getD r) := by
  cases hlast : lastOf r.uniqueKey (ofMember k (whole c e again xss providers)) with
  | none => exact .refl r
  | some x =>
    obtain ⟨hx, hkey⟩ := uniqueKey_lastOf hlast
    obtain ⟨hx, hk⟩ := mem_ofMember.mp hx
    have hplace := h.place_eq he hr hx hk hkey
    have hlook : ∃ y : Rule, r.Retains y ∧ x.look = y.look := by
      rw [h.lastOf_whole_eq he hr, Option.or_eq_some_iff] at hlast
      rcases hlast with hlast | ⟨-, hlast⟩
      · have hmade := lastOf_flatten h.made he
          (fun x hx => (h.bounds (List.mem_append_left _ (List.mem_append_right _ hx))).1) hr
        rw [hlast, Option.map_some] at hmade
        split at hmade
        · obtain ⟨p, -, hp⟩ := Option.map_eq_some_iff.mp hmade.symm
          exact ⟨_, declaredWith_retains _ p r, hp.symm⟩
        · cases hmade
      · obtain ⟨hx, -⟩ := uniqueKey_lastOf hlast
        obtain ⟨hx, hk⟩ := mem_ofMember.mp hx
        obtain ⟨-, r', hr', hcopied⟩ := h.copy_of_mem he hx hk
        obtain rfl := he.keyed.registry.eq_of_uniqueKey hr hr'
          ((Rule.uniqueKey_of_place hcopied.place).symm.trans hkey)
        exact ⟨_, (e.configuration c).complete_retains _, hcopied.look⟩
    obtain ⟨y, hretains, hlook⟩ := hlook
    exact hretains.of_look hplace hlook

end Gathered

/-- What is registered has all settings that the rules in its place had. -/
theorem registered_of_build {out : List Rule} (he : e.Tidy) (hc : c < e.configurations.length)
    (hbuild : Action.build c e = (.ok out, e')) (t : TypeId)
    (hr : r ∈ e.registry.rulesOfMember t k) : ∃ r' ∈ e'.registry.rulesOfMember t k, r.Retains r' := by
  obtain ⟨htidy, again, xss, providers, mid, hgathered, hregistry⟩ := build_gathers he hc hbuild
  have hthere : r ∈ mid.registry.rulesOfMember t k := by
    rw [hgathered.registry]
    exact hr
  have htype : ((e.committed c).configuration c).type = (e.configuration c).type := by
    rw [configuration_committed hc]
  rw [hregistry]
  by_cases ht : t = (e.configuration c).type
  · subst ht
    rw [← htype] at hr
    have hkeys := htidy.keyed.registry.unique ((e.committed c).configuration c).type k
    refine ⟨_, ?_, hgathered.retains_lastOf htidy hr⟩
    show _ ∈ (mid.registry.addAll (e.configuration c).type _).rulesOfMember
      (e.configuration c).type k
    rw [Registry.rulesOfMember_addAll, hgathered.registry, ← htype,
      foldl_put_eq hkeys (hgathered.nodup_beside htidy k)]
    exact List.mem_append_left _ (List.mem_map_of_mem hr)
  · refine ⟨r, ?_, .refl r⟩
    have huntouched := Registry.allGroups_addAll_of_ne ht mid.registry
      (whole c (e.committed c) again xss providers)
    exact (rulesOfMember_of_groups huntouched k).symm ▸ hthere

/-- **A build takes no setting from a rule**, whether it ends well or not. -/
theorem build_enriches (he : e.Tidy) (c : Nat) : e.Enriches (Action.build c e).2 := by
  have hconfigurations : ∀ f : Configuration → Configuration,
      Keeps (Enriches e) (Action.updateConfiguration c f) := fun f =>
    .change fun _ h => ⟨h.registered, h.held⟩
  have hcommit : Keeps (Enriches e) (commit c) := by
    intro e₁ h
    refine ⟨?_, fun _ _ => trivial⟩
    cases hcurrent : (e₁.configuration c).current with
    | none =>
      rw [commit_of_current_eq_none hcurrent]
      exact h
    | some p =>
      rw [commit_of_current_eq_some hcurrent]
      have htaken := (hconfigurations (fun cfg => { cfg with current := none }) e₁ h).1
      exact (putAway_keeps (hconfigurations _) _ htaken).1
  have hgather : ∀ cfg, Keeps (Enriches e) (gather cfg) := fun cfg =>
    gather_keeps cfg fun id => .change fun _ h => h.amend id cfg.complete_retains
  have hmark : ∀ t, Keeps (Enriches e) (updateRegistry fun reg => reg.mark t) := fun t =>
    .change fun _ h => ⟨h.registered, h.held⟩
  rcases build_parts (hcommit e (.refl e)).1 hmark hgather with
    hdone | ⟨mid, rs, hok, hmid, hmoves, hlast⟩
  · exact hdone
  · have hc : c < e.configurations.length := hmoves.sequel.length ▸ hlast.lt
    refine ⟨fun t k r hr => registered_of_build he hc (Prod.ext hok rfl) t hr, fun b => ?_⟩
    have hbuilder : (Action.build c e).2.builder b = mid.builder b := by
      rw [Engine.builder, hlast.builders, Engine.builder]
    rw [hbuilder]
    exact hmid.held b

end Engine

/-! ## 4. All calls -/

/-- An engine in which nothing has been configured. -/
structure Engine.Blank (e : Engine) : Prop where
  registry : e.registry = {}
  configurations : e.configurations = []
  builders : e.builders = []
  faithful : e.world.schema.Faithful e.reflected

theorem Engine.Blank.tidy {e : Engine} (h : e.Blank) : e.Tidy :=
  tidy_of_nothing h.registry h.builders h.configurations h.faithful

open Engine in
/-- **Settings reach all checks.**  Take any calls without blocks of nested rules, from where
nothing has been configured: calls until a configuration is there, and then further calls.  Whenever
the configuration can be built after them, every check of its type has what was asked for last.  And
no build, of this configuration or another one, takes a culture, a resource, a message to fall back
to, or that there are no conventional keys, from any rule. -/
theorem settings_reach_checks {e : Engine} (h : e.Blank) {before calls : List Call} {c : Nat}
    (hbefore : ∀ call ∈ before, call.Nestless) (hcalls : ∀ call ∈ calls, call.Nestless)
    (hc : c < (e.afterCalls before).configurations.length) :
    (∀ out e', Action.build c ((e.afterCalls before).afterCalls calls) = (.ok out, e') →
      ∀ r ∈ e'.registry.rulesOf (e'.configuration c).type, r.hasCheck = true →
        r.Meets (Asked.of c calls)) ∧
    ∀ c', ((e.afterCalls before).afterCalls calls).Enriches
      (Action.build c' ((e.afterCalls before).afterCalls calls)).2 := by
  have htidy := (h.tidy.afterCalls before).afterCalls calls
  have hbooked := (booked_of_nothing h.configurations).afterCalls hbefore
  have hreached := (reached_of_nothing hc).afterCalls (h.tidy.afterCalls before) hbooked hcalls
  refine ⟨fun out e' hbuild r hr hcheck => ?_, fun c' => build_enriches htidy c'⟩
  have hafter : (Action.build c ((e.afterCalls before).afterCalls calls)).2 = e' := by rw [hbuild]
  have htidy' : e'.Tidy := hafter ▸ (Action.build_tidy c _ htidy).1
  have hstays : Action.StaysIn ⟨0, 0⟩ (Action.build c) := .build c
  have htype := (hstays _ (inArea_zero _)).2.1.types c hreached.lt
  rw [hafter] at htype
  rw [htype] at hr
  have hthere := htidy'.keyed.registry.mem_rulesOfMember hr
  exact hreached.of_build htidy hbuild _ r (Registry.mem_checksAt.mpr ⟨hthere, hcheck⟩)

/-! ## 5. Texts for users

Texts are asked for before users are built for the first time, and a message to fall back to before
they are built again.  In between, the role gets a rule. -/

namespace UserAddress

open Engine

def calls : List Call := [
  .step 0 (.resource (some "UserTexts")),
  .build 0,
  .step 0 (.builder (.ref ⟨.declared "User", "role", .field⟩) false none []),
  .check 0 (.attach (.ok { check := .required false })),
  .step 0 (.fallback (some "Please check."))]

theorem blank : start.Blank := ⟨rfl, rfl, rfl, Schema.faithful_nil _⟩

/-- The engine after these calls. -/
def texted : Engine := (start.afterCalls [.configure (.declared "User")]).afterCalls calls

theorem texted_builds : (Action.build 0 texted).1.toOption.isSome = true := by decide +kernel

/-- Both the declared check of the address and that of the role are registered then. -/
theorem texted_checks : ((Action.build 0 texted).2.registry.rulesOf
    ((Action.build 0 texted).2.configuration 0).type).countP Rule.hasCheck = 2 := by decide +kernel

end UserAddress

/-- Both checks of users have texts and a message to fall back to. -/
theorem settings_reach_checks_user : ∃ out e', Action.build 0 UserAddress.texted = (.ok out, e') ∧
    (e'.registry.rulesOf (e'.configuration 0).type).countP Rule.hasCheck = 2 ∧
    ∀ r ∈ e'.registry.rulesOf (e'.configuration 0).type, r.hasCheck = true →
      r.resource ≠ none ∧ r.fallback ≠ none := by
  obtain ⟨out, hout⟩ := Option.isSome_iff_exists.mp UserAddress.texted_builds
  have hbuild := eq_ok_of_toOption hout
  have hnestless : ∀ call ∈ UserAddress.calls, call.Nestless := by
    simp [UserAddress.calls, Engine.Call.Nestless]
  have hfirst : ∀ call ∈ [Engine.Call.configure (.declared "User")], call.Nestless := by
    simp [Engine.Call.Nestless]
  obtain ⟨hreach, -⟩ := settings_reach_checks UserAddress.blank hfirst hnestless
    (c := 0) (by decide +kernel)
  refine ⟨out, _, hbuild, UserAddress.texted_checks, fun r hr hcheck => ?_⟩
  have hmeets := hreach out _ hbuild r hr hcheck
  exact ⟨hmeets.resource (Option.some_ne_none _), hmeets.fallback (Option.some_ne_none _)⟩

end MemberRules
