/-
# Building and declared rules

Building a type registers everything that was gathered for it.  What was gathered for the declared
rules of a member, if no check was, is registered as copies of them, made from the rules as they are
registered when the type is built.  Everything else that is registered is new, or stands for a rule
as it is.

So of several changes that were gathered for the declared rules of one member, building makes the
last one, on top of what was registered before, and none of the others.

* `Configuration.changesOf`: the changes that are gathered for the declared rules of a member.
* `Action.commit_apply`, `Action.commit_ok_iff`: putting away what was started last.
* `PendingRule.Gathers`, `Action.gather_ok`: what is gathered, and that it can be.
* `Action.build_declared`: what building does to declared rules, and that it ends well.
-/
import MemberRules.Proofs.Declared.Settings
import MemberRules.Proofs.Model.Reflection
import MemberRules.Proofs.Registry.Nested

namespace MemberRules

open MemberRules.Computation

/-! ## 1. What is gathered, and put away -/

namespace Configuration

/-- What has been gathered member by member, with the member that was started last. -/
def gathered (cfg : Configuration) : List PendingRule := cfg.pending ++ cfg.current.toList

/-- Putting away what was started last changes nothing if nothing was. -/
theorem gathered_of_none {cfg : Configuration}
    (h : cfg.current = none) : { cfg with pending := cfg.gathered, current := none } = cfg := by
  cases cfg
  simp_all [gathered]

/-- Nothing more has been gathered if no member has been started. -/
theorem gathered_eq_pending {cfg : Configuration} (h : cfg.current = none) :
    cfg.gathered = cfg.pending := by
  rw [gathered, h]
  exact List.append_nil _

/-- What has been set for the declared rules of a member. -/
def changesOf (cfg : Configuration) (k : MemberKey) : List Change :=
  (cfg.gathered.filter (PendingRule.isFor k)).map PendingRule.change

end Configuration

theorem settings_declaredWith (cfg : Configuration) (p : PendingRule) (r : Rule) :
    (Action.declaredWith cfg p r).settings = p.change.onto r.settings := by
  unfold Action.declaredWith PendingRule.change Change.onto
  cases p.conditioned <;> rfl

namespace Engine

variable {e : Engine} {c : Nat}

/-- An engine in which what was started last has been put away. -/
def committed (c : Nat) (e : Engine) : Engine :=
  e.updateConfiguration c fun cfg => { cfg with pending := cfg.gathered, current := none }

theorem updateConfiguration_congr {f g : Configuration → Configuration}
    (h : f (e.configuration c) = g (e.configuration c)) :
    e.updateConfiguration c f = e.updateConfiguration c g := by
  have hlist : e.configurations.modify c f = e.configurations.modify c g := by
    refine List.ext_getElem? fun i => ?_
    rw [List.getElem?_modify, List.getElem?_modify]
    by_cases hi : c = i
    · subst hi
      unfold configuration at h
      cases hcfg : e.configurations[c]? with
      | none => rfl
      | some cfg =>
        rw [hcfg] at h
        simpa using h
    · simp [hi]
  unfold updateConfiguration
  rw [hlist]

/-- A configuration that has been changed. -/
theorem configuration_of_modify {e' : Engine} {f : Configuration → Configuration}
    (hc : c < e.configurations.length) (h : e'.configurations = e.configurations.modify c f) :
    e'.configuration c = f (e.configuration c) := by
  unfold configuration
  rw [h]
  simp [List.getElem?_eq_getElem hc]

theorem configuration_updateConfiguration_self (hc : c < e.configurations.length)
    (f : Configuration → Configuration) :
    (e.updateConfiguration c f).configuration c = f (e.configuration c) :=
  configuration_of_modify hc rfl

end Engine

namespace Action

variable {e e' : Engine} {c : Nat}

/-- **Putting away what was started last**, if that is possible. -/
theorem commit_apply (h : (commit c e).1 = .ok ()) : commit c e = (.ok (), e.committed c) := by
  rcases he' : commit c e with ⟨r, e'⟩
  rw [he'] at h
  obtain rfl : r = .ok () := h
  refine congrArg _ ?_
  obtain ⟨cfg, e₁, hcfg, hrest⟩ := bind_eq_ok.mp he'
  cases hcfg
  cases hcurrent : (e.configuration c).current with
  | none =>
    rw [hcurrent] at hrest
    cases hrest
    have hsame : e.committed c = e.updateConfiguration c id :=
      Engine.updateConfiguration_congr (Configuration.gathered_of_none hcurrent)
    rw [hsame, Engine.updateConfiguration, List.modify_id]
  | some p =>
    simp only [hcurrent] at hrest
    obtain ⟨_, e₁, hcleared, hrest⟩ := bind_eq_ok.mp hrest
    cases hcleared
    have hput : updateConfiguration c (fun cfg => { cfg with pending := cfg.pending ++ [p] })
        (e.updateConfiguration c fun cfg => { cfg with current := none }) = (.ok (), e') := by
      split at hrest
      · obtain ⟨found, e₂, hfound, hrest⟩ := bind_eq_ok.mp hrest
        cases hfound
        split at hrest
        · obtain ⟨_, _, hrefused, _⟩ := bind_eq_ok.mp hrest
          cases hrefused
        · exact hrest
      · exact hrest
    cases hput
    rw [Engine.updateConfiguration_twice]
    exact Engine.updateConfiguration_congr (by simp [Configuration.gathered, hcurrent])

/-- What was started last can be put away if it has a check, or is excluded, or if it need not have
one, or if the member has one elsewhere. -/
theorem commit_ok_iff : (commit c e).1 = .ok () ↔ ∀ p, (e.configuration c).current = some p →
    (p.checks.isEmpty && !p.excluded && (e.configuration c).enforce) = true →
      (hasChecks (e.configuration c) p.member e).1 = .ok true := by
  unfold commit
  rw [configuration_bind]
  cases hcurrent : (e.configuration c).current with
  | none => exact ⟨fun _ p hp => (by cases hp), fun _ => rfl⟩
  | some p =>
    simp only [Option.some.injEq, forall_eq']
    rw [bind_ok (show updateConfiguration c _ e = (.ok (), _) from rfl)]
    split
    · rename_i hneeds
      obtain ⟨found, hfound⟩ : ∃ found, hasChecks (e.configuration c) p.member
          (e.updateConfiguration c fun cfg => { cfg with current := none }) = (.ok found, _) :=
        ⟨_, rfl⟩
      have hsame : (hasChecks (e.configuration c) p.member e).1 = .ok found :=
        congrArg Prod.fst hfound
      rw [bind_ok hfound, hsame]
      cases found with
      | false => exact ⟨fun h => (by cases h), fun h => (by cases h hneeds)⟩
      | true => exact ⟨fun _ _ => rfl, fun _ => rfl⟩
    · rename_i hneeds
      exact ⟨fun _ h => absurd h hneeds, fun _ => rfl⟩

/-- A member with a declared rule can be put away without a check. -/
theorem commit_ok_of_declared (hkeyed : e.Keyed)
    (hdeclared : ∀ p, (e.configuration c).current = some p →
      e.registry.declaredAt (e.configuration c).type p.member.key ≠ []) :
    (commit c e).1 = .ok () := by
  refine commit_ok_iff.mpr fun p hp _ => ?_
  obtain ⟨r, hr⟩ := List.exists_mem_of_ne_nil _ (hdeclared p hp)
  obtain ⟨hr, hsource⟩ := Registry.mem_declaredAt.mp hr
  have hany : (e.registry.rulesOfMember (e.configuration c).type p.member.key).any
      Rule.hasCheck = true :=
    List.any_eq_true.mpr ⟨r, hr, (hkeyed.registry.wellKeyed _ _ r hr hsource).1⟩
  have hread : (hasChecks (e.configuration c) p.member e).1 = .ok (((e.registry.rulesOfMember
      (e.configuration c).type p.member.key).any Rule.hasCheck || _) || _) := rfl
  rw [hread, hany, Bool.true_or, Bool.true_or]

end Action

/-! ## 2. Reading types and making rules -/

namespace Engine

variable {e e' e'' : Engine} {t : TypeId}

/-- Whether the members of a type can be read. -/
def CanReflect (t : TypeId) (e : Engine) : Prop := ∃ ms, (Action.members t e).1 = .ok ms

/-- An engine that has only reflected types and given out identities since another one. -/
structure Prepared (t : TypeId) (e e' : Engine) : Prop where
  same : ∃ reflected nextId, e' = { e with reflected, nextId }
  reflects : e.CanReflect t → e'.CanReflect t

theorem Prepared.refl (t : TypeId) (e : Engine) : e.Prepared t e := ⟨⟨_, _, rfl⟩, id⟩

theorem Prepared.trans (h : e.Prepared t e') (h' : e'.Prepared t e'') : e.Prepared t e'' := by
  obtain ⟨⟨reflected, nextId, rfl⟩, hreflects⟩ := h
  obtain ⟨⟨reflected', nextId', rfl⟩, hreflects'⟩ := h'
  exact ⟨⟨reflected', nextId', rfl⟩, fun h => hreflects' (hreflects h)⟩

theorem prepared_nextId (t : TypeId) (e : Engine) (nextId : Nat) :
    e.Prepared t { e with nextId } := ⟨⟨_, _, rfl⟩, id⟩

end Engine

namespace Action

variable {e : Engine} {t : TypeId}

theorem members_ok (h : e.CanReflect t) :
    ∃ ms e', members t e = (.ok ms, e') ∧ e.Prepared t e' := by
  obtain ⟨ms, hms⟩ := h
  have hrun : ∀ e : Engine, members t e =
      ((e.world.schema.reflect t e.reflected).1,
        { e with reflected := (e.world.schema.reflect t e.reflected).2 }) := fun e => rfl
  rw [hrun] at hms
  obtain ⟨ms', hlookup⟩ := Schema.lookup_reflect hms
  refine ⟨ms, _, by rw [hrun, hms], ⟨_, _, rfl⟩, fun _ => ⟨ms', ?_⟩⟩
  rw [hrun]
  exact congrArg Prod.fst (Schema.reflect_of_lookup hlookup)

/-- **A rule for a check can be made** if the members of the type can be read, and it is new. -/
theorem newRule_ok (h : e.CanReflect t) (m : MemberRef) (a : Attribute) (forEach : Bool) :
    ∃ r e', newRule t m a forEach e = (.ok r, e') ∧ e.Prepared t e' ∧ r.IsNew := by
  obtain ⟨ms, e₁, hmembers, hprepared⟩ := members_ok h
  obtain ⟨display, hdisplay⟩ : ∃ display, displayName t m.name e = (.ok display, e₁) := by
    unfold displayName
    rw [bind_ok hmembers]
    cases ms.find? fun info => info.member.name == m.name <;> exact ⟨_, rfl⟩
  refine ⟨_, { e₁ with nextId := e₁.nextId + 1 }, bind_ok hdisplay,
    hprepared.trans (Engine.prepared_nextId t e₁ _), by simp, by simp⟩

/-- What is made of several things one after the other. -/
theorem mapM_ok {α β : Type} {f : α → Action β} {I : Engine → Prop} {Q : α → β → Prop}
    (as : List α) (h : ∀ a ∈ as, ∀ e, I e → ∃ b e', f a e = (.ok b, e') ∧ I e' ∧ Q a b) (he : I e) :
    ∃ bs e', as.mapM f e = (.ok bs, e') ∧ I e' ∧ List.Forall₂ Q as bs := by
  induction as generalizing e with
  | nil => exact ⟨[], e, by rw [List.mapM_nil]; rfl, he, .nil⟩
  | cons a as ih =>
    obtain ⟨hfirst, hrest⟩ := List.forall_mem_cons.mp h
    obtain ⟨b, e₁, hb, he₁, hQ⟩ := hfirst e he
    obtain ⟨bs, e₂, hbs, he₂, hQs⟩ := ih hrest he₁
    refine ⟨b :: bs, e₂, ?_, he₂, .cons hQ hQs⟩
    rw [List.mapM_cons, bind_ok hb, bind_ok hbs]
    rfl

/-- Copies of rules stand as the rules do. -/
theorem copied_ok (t : TypeId) (rs : List Rule) (e : Engine) :
    ∃ xs e', rs.mapM copied e = (.ok xs, e') ∧ e.Prepared t e' ∧
      xs.map Rule.standing = rs.map Rule.standing := by
  obtain ⟨xs, e', hrun, hprepared, hxs⟩ := mapM_ok (f := copied)
    (Q := fun r x => x.standing = r.standing) rs (fun r _ e₁ (he₁ : e.Prepared t e₁) =>
      ⟨_, _, rfl, he₁.trans (Engine.prepared_nextId t e₁ _), rfl⟩) (.refl t e)
  refine ⟨xs, e', hrun, hprepared, ?_⟩
  clear hrun
  induction hxs with
  | nil => rfl
  | cons hx _ ih => rw [List.map_cons, List.map_cons, hx, ih]

end Action

/-! ## 3. What is gathered for a member -/

/-- The rules that are gathered for a member: copies of its declared rules with what was set for
them, and a new one; or new ones only, if a check was gathered. -/
structure PendingRule.Gathers (reg : Registry) (t : TypeId) (p : PendingRule) (xs : List Rule) :
    Prop where
  copies : p.checks = [] → ∃ copies carrier, xs = copies ++ [carrier] ∧ carrier.IsNew ∧
    copies.map Rule.standing = (reg.declaredAt t p.member.key).map fun r =>
      (r.place, p.change.onto r.settings)
  checks : p.checks ≠ [] → ∀ x ∈ xs, x.IsNew

namespace PendingRule.Gathers

variable {reg : Registry} {t : TypeId} {p : PendingRule} {xs : List Rule} {x : Rule}

/-- What is gathered is new, or stands for a declared rule. -/
theorem cases_of_mem (h : p.Gathers reg t xs) (hx : x ∈ xs) :
    x.IsNew ∨ p.checks = [] ∧ ∃ r ∈ reg.declaredAt t p.member.key,
      x.place = r.place ∧ x.settings = p.change.onto r.settings := by
  by_cases hchecks : p.checks = []
  · obtain ⟨copies, carrier, rfl, hcarrier, hcopies⟩ := h.copies hchecks
    rcases List.mem_append.mp hx with hx | hx
    · have hstands : x.standing ∈ (reg.declaredAt t p.member.key).map fun r =>
          (r.place, p.change.onto r.settings) := hcopies ▸ List.mem_map_of_mem hx
      obtain ⟨r, hr, heq⟩ := List.mem_map.mp hstands
      obtain ⟨hplace, hsettings⟩ := Prod.mk.inj heq
      exact .inr ⟨hchecks, r, hr, hplace.symm, hsettings.symm⟩
    · exact .inl (List.mem_singleton.mp hx ▸ hcarrier)
  · exact .inl (h.checks hchecks x hx)

/-- For each declared rule there is a copy, if no check was gathered. -/
theorem exists_copy (h : p.Gathers reg t xs) (hchecks : p.checks = []) {r : Rule}
    (hr : r ∈ reg.declaredAt t p.member.key) : ∃ x ∈ xs, x.place = r.place := by
  obtain ⟨copies, carrier, rfl, -, hcopies⟩ := h.copies hchecks
  have hstands : (r.place, p.change.onto r.settings) ∈ copies.map Rule.standing :=
    hcopies ▸ List.mem_map_of_mem hr
  obtain ⟨x, hx, heq⟩ := List.mem_map.mp hstands
  exact ⟨x, List.mem_append_left _ hx, (Prod.mk.inj heq).1⟩

end PendingRule.Gathers

namespace PendingRule.Gathers

variable {reg : Registry} {t : TypeId} {k : MemberKey} {p : PendingRule} {xs : List Rule}

theorem fits (h : p.Gathers reg t xs) (hkeyed : reg.Keyed) :
    ∀ x ∈ xs, x.WellKeyed ∧ reg.Fits t x := by
  intro x hx
  rcases h.cases_of_mem hx with hnew | ⟨-, r, hr, hplace, -⟩
  · exact ⟨hnew.wellKeyed, hkeyed.fits_of_isNew hnew t⟩
  · obtain ⟨hthere, -⟩ := Registry.mem_declaredAt.mp hr
    rw [← hkeyed.home _ _ r hthere] at hthere
    exact ⟨(hkeyed.wellKeyed _ _ r hthere).of_place hplace, hkeyed.fits_of_place hthere hplace⟩

/-- **What is gathered for a member sets for its declared rules what was set**, on top of what was
registered, and nothing for those of other members, or if a check was gathered. -/
theorem settle (h : p.Gathers reg t xs) (hkeyed : reg.Keyed) {r : Rule}
    (hr : r ∈ reg.declaredAt t k) (s : Rule.Settings) :
    Rule.settle k r.uniqueKey xs s = if p.isFor k then p.change.onto r.settings else s := by
  obtain ⟨hk, text, hkey⟩ := hkeyed.mem_declaredAt_home hr
  -- A rule that was gathered under the key of a declared one is a copy of that one.
  have hcopy : ∀ x ∈ xs, x.member.key = k → x.uniqueKey = r.uniqueKey →
      p.isFor k = true ∧ x.settings = p.change.onto r.settings := by
    intro x hx hxk hxkey
    rcases h.cases_of_mem hx with hnew | ⟨hchecks, r', hr', hplace, hsettings⟩
    · exact absurd (hxkey.trans hkey) (hnew.2 text)
    · have hp : p.member.key = k := by
        rw [← (hkeyed.mem_declaredAt_home hr').1, ← Rule.member_of_place hplace, hxk]
      rw [hp] at hr'
      have heq := hkeyed.eq_of_uniqueKey (Registry.mem_declaredAt.mp hr).1
        (Registry.mem_declaredAt.mp hr').1 ((Rule.uniqueKey_of_place hplace).symm.trans hxkey)
      exact ⟨by simp [isFor, hchecks, hp], heq ▸ hsettings⟩
  cases hfor : p.isFor k with
  | false =>
    refine Rule.settle_of_forall fun x hx hxk hxkey => ?_
    rw [hfor] at hcopy
    cases (hcopy x hx hxk hxkey).1
  | true =>
    obtain ⟨hchecks, hp⟩ : p.checks = [] ∧ p.member.key = k := by simpa [isFor] using hfor
    obtain ⟨x, hx, hplace⟩ := h.exists_copy hchecks (hp ▸ hr)
    exact Rule.settle_of_mem hx ((congrArg MemberRef.key (Rule.member_of_place hplace)).trans hk)
      (Rule.uniqueKey_of_place hplace) fun x hx hxk hxkey => (hcopy x hx hxk hxkey).2

end PendingRule.Gathers

/-- What was gathered member by member sets what was set last. -/
theorem settle_flatten {reg : Registry} {t : TypeId} {k : MemberKey} {ps : List PendingRule}
    {xss : List (List Rule)} (h : List.Forall₂ (fun p xs => p.Gathers reg t xs) ps xss)
    (hkeyed : reg.Keyed) {r : Rule} (hr : r ∈ reg.declaredAt t k) (s : Rule.Settings) :
    Rule.settle k r.uniqueKey xss.flatten s =
      (((ps.filter (PendingRule.isFor k)).map PendingRule.change).getLast?.map
        fun x => x.onto r.settings).getD s := by
  induction h generalizing s with
  | nil => rfl
  | @cons p xs ps xss hp _ ih =>
    rw [List.flatten_cons, Rule.settle_append, ih, hp.settle hkeyed hr, List.filter_cons]
    split
    · rw [List.map_cons, List.getLast?_cons]
      cases ((ps.filter (PendingRule.isFor k)).map PendingRule.change).getLast? <;> rfl
    · rfl

theorem last_onto (xs : List Change) (s : Rule.Settings) :
    (xs.getLast?.map fun x => x.onto s).getD s = (Change.last xs).onto s := by
  unfold Change.last
  cases xs.getLast? <;> rfl

/-! ## 4. Everything that is gathered, part by part -/

section Parts

variable {reg : Registry} {t : TypeId} {k : MemberKey} {ps : List PendingRule}
variable {again built providers : List Rule} {xss : List (List Rule)}

/-- Rules that are registered once more take their own places. -/
theorem fits_again (hkeyed : reg.Keyed)
    (hagain : ∀ x ∈ again, ∃ r ∈ reg.rulesOf t, x.standing = r.standing) :
    ∀ x ∈ again, x.WellKeyed ∧ reg.Fits t x := by
  intro x hx
  obtain ⟨r, hr, hstanding⟩ := hagain x hx
  have hthere := hkeyed.mem_rulesOfMember hr
  have hplace : x.place = r.place := congrArg Prod.fst hstanding
  exact ⟨(hkeyed.wellKeyed _ _ r hthere).of_place hplace, hkeyed.fits_of_place hthere hplace⟩

/-- They set nothing that was not set before. -/
theorem settle_again (hkeyed : reg.Keyed)
    (hagain : ∀ x ∈ again, ∃ r ∈ reg.rulesOf t, x.standing = r.standing) {r : Rule}
    (hr : r ∈ reg.declaredAt t k) : Rule.settle k r.uniqueKey again r.settings = r.settings := by
  refine Rule.settle_of_forall fun x hx hxk hxkey => ?_
  obtain ⟨y, hy, hstanding⟩ := hagain x hx
  have hthere := hkeyed.mem_rulesOfMember hy
  have hplace : x.place = y.place := congrArg Prod.fst hstanding
  have hsettings : x.settings = y.settings := congrArg Prod.snd hstanding
  rw [← Rule.member_of_place hplace, hxk] at hthere
  have heq := hkeyed.eq_of_uniqueKey (Registry.mem_declaredAt.mp hr).1 hthere
    ((Rule.uniqueKey_of_place hplace).symm.trans hxkey)
  rw [hsettings, heq]

theorem fits_gathered (hkeyed : reg.Keyed)
    (hagain : ∀ x ∈ again, ∃ r ∈ reg.rulesOf t, x.standing = r.standing)
    (hxss : List.Forall₂ (fun p xs => p.Gathers reg t xs) ps xss)
    (hbuilt : ∀ x ∈ built, x.IsNew) (hproviders : ∀ x ∈ providers, x.IsNew) :
    ∀ x ∈ again ++ xss.flatten ++ built ++ providers, x.WellKeyed ∧ reg.Fits t x := by
  intro x hx
  have hnew : x.IsNew → x.WellKeyed ∧ reg.Fits t x := fun h =>
    ⟨h.wellKeyed, hkeyed.fits_of_isNew h t⟩
  simp only [List.mem_append, List.mem_flatten] at hx
  obtain ((hx | ⟨xs, hxs, hx⟩) | hx) | hx := hx
  · exact fits_again hkeyed hagain x hx
  · obtain ⟨p, -, hp⟩ := exists_of_mem_forall₂ hxss hxs
    exact hp.fits hkeyed x hx
  · exact hnew (hbuilt x hx)
  · exact hnew (hproviders x hx)

/-- **All that is gathered sets for a declared rule what was set last** for its member. -/
theorem settle_gathered (hkeyed : reg.Keyed)
    (hagain : ∀ x ∈ again, ∃ r ∈ reg.rulesOf t, x.standing = r.standing)
    (hxss : List.Forall₂ (fun p xs => p.Gathers reg t xs) ps xss)
    (hbuilt : ∀ x ∈ built, x.IsNew) (hproviders : ∀ x ∈ providers, x.IsNew) {r : Rule}
    (hr : r ∈ reg.declaredAt t k) :
    Rule.settle k r.uniqueKey (again ++ xss.flatten ++ built ++ providers) r.settings =
      (Change.last ((ps.filter (PendingRule.isFor k)).map PendingRule.change)).onto r.settings := by
  obtain ⟨-, text, hkey⟩ := hkeyed.mem_declaredAt_home hr
  rw [Rule.settle_append, Rule.settle_append, Rule.settle_append, settle_again hkeyed hagain hr,
    settle_flatten hxss hkeyed hr, last_onto, hkey, Rule.settle_of_isNew hbuilt,
    Rule.settle_of_isNew hproviders]

end Parts

/-! ## 5. Everything that is gathered -/

namespace Engine

variable {e e' e'' : Engine} {t : TypeId} {k : MemberKey}

/-- An engine whose rules stand as those of another one, and which is configured as that one. -/
structure StandsAs (e e' : Engine) : Prop where
  rules : ∀ t k, (e'.registry.rulesOfMember t k).map Rule.standing =
    (e.registry.rulesOfMember t k).map Rule.standing
  world : e'.world = e.world
  length : e'.configurations.length = e.configurations.length
  configuration : ∀ c, ∃ lastBuild, e'.configuration c = { e.configuration c with lastBuild }

theorem StandsAs.refl (e : Engine) : e.StandsAs e :=
  ⟨fun _ _ => rfl, rfl, rfl, fun _ => ⟨_, rfl⟩⟩

theorem StandsAs.trans (h : e.StandsAs e') (h' : e'.StandsAs e'') : e.StandsAs e'' := by
  refine ⟨fun t k => (h'.rules t k).trans (h.rules t k), h'.world.trans h.world,
    h'.length.trans h.length, fun c => ?_⟩
  obtain ⟨lastBuild, hconfiguration⟩ := h.configuration c
  obtain ⟨lastBuild', hconfiguration'⟩ := h'.configuration c
  exact ⟨lastBuild', by rw [hconfiguration', hconfiguration]⟩

theorem Prepared.standsAs (h : e.Prepared t e') : e.StandsAs e' := by
  obtain ⟨⟨reflected, nextId, rfl⟩, -⟩ := h
  exact ⟨fun _ _ => rfl, rfl, rfl, fun _ => ⟨_, rfl⟩⟩

theorem Prepared.registry (h : e.Prepared t e') : e'.registry = e.registry := by
  obtain ⟨⟨reflected, nextId, rfl⟩, -⟩ := h
  rfl

theorem Prepared.keyed (h : e.Prepared t e') (hkeyed : e.Keyed) : e'.Keyed := by
  obtain ⟨⟨reflected, nextId, rfl⟩, -⟩ := h
  exact ⟨hkeyed.registry, hkeyed.builders⟩

/-- A change of a rule that does not show in how it stands. -/
theorem standsAs_amend {f : Rule → Rule} (hf : ∀ r, (f r).standing = r.standing) (id : Nat)
    (e : Engine) : e.StandsAs (e.amend id f) := by
  refine ⟨fun t k => ?_, rfl, List.length_map .., fun c => ⟨_, configuration_amend id f c⟩⟩
  have hrules : (e.amend id f).registry.rulesOfMember t k = _ :=
    Registry.rulesOfMember_amend id f
  rw [hrules, List.map_map]
  refine List.map_congr_left fun r _ => ?_
  show (if r.id == id then f r else r).standing = r.standing
  split
  · exact hf r
  · rfl

theorem StandsAs.declaredAt (h : e.StandsAs e') (t : TypeId) (k : MemberKey) :
    (e'.registry.declaredAt t k).map Rule.standing =
      (e.registry.declaredAt t k).map Rule.standing := by
  have hfilter : ∀ rs : List Rule, (rs.filter fun r => r.source == .declared).map Rule.standing =
      (rs.map Rule.standing).filter fun x => x.1.2.2.1 == .declared := fun rs => by
    rw [List.filter_map]
    rfl
  unfold Registry.declaredAt
  rw [hfilter, hfilter, h.rules]

end Engine

/-- What is gathered for a build: rules that take the places of declared ones as they were declared,
and set for them what was set last. -/
structure Engine.Gathers (cfg : Configuration) (rs : List Rule) (e e' : Engine) : Prop where
  keyed : e'.Keyed
  stands : e.StandsAs e'
  fits : ∀ x ∈ rs, x.WellKeyed ∧ e.registry.Fits cfg.type x
  settle : ∀ k, ∀ r ∈ e.registry.declaredAt cfg.type k, Rule.settle k r.uniqueKey rs r.settings =
    (Change.last ((cfg.pending.filter (PendingRule.isFor k)).map PendingRule.change)).onto
      r.settings

namespace Action

variable {e : Engine} {cfg : Configuration}

/-- **What was set for a member can be gathered**, and checks if the type can be read. -/
theorem pendingRules_ok {p : PendingRule} (h : p.checks ≠ [] → e.CanReflect cfg.type) :
    ∃ xs e', pendingRules cfg p e = (.ok xs, e') ∧ e.Prepared cfg.type e' ∧
      p.Gathers e.registry cfg.type xs := by
  unfold pendingRules
  by_cases hchecks : p.checks = []
  · obtain ⟨copies, e₁, hcopied, hprepared, hcopies⟩ := copied_ok cfg.type
      ((e.registry.declaredAt cfg.type p.member.key).map (declaredWith cfg p)) e
    obtain ⟨carrier, hcarrier, hnew⟩ : ∃ carrier, newCarrier cfg.type p.member "Condition" e₁ =
        (.ok carrier, { e₁ with nextId := e₁.nextId + 1 }) ∧ carrier.IsNew :=
      ⟨_, rfl, by simp, by simp⟩
    refine ⟨copies ++ [{ carrier with gate := p.gate }], { e₁ with nextId := e₁.nextId + 1 }, ?_,
      hprepared.trans (Engine.prepared_nextId _ e₁ _),
      fun _ => ⟨copies, _, rfl, hnew.of_place rfl, ?_⟩, fun h => absurd hchecks h⟩
    · rw [if_pos (by simp [hchecks]), bind_ok (get_apply e)]
      exact (bind_ok hcopied).trans (bind_ok hcarrier)
    · rw [hcopies, List.map_map]
      refine List.map_congr_left fun r _ => ?_
      show ((declaredWith cfg p r).place, (declaredWith cfg p r).settings) = _
      rw [settings_declaredWith]
      rfl
  · obtain ⟨xs, e', hrun, ⟨hprepared, -⟩, hxs⟩ := mapM_ok (e := e)
      (f := pendingRule cfg p) (I := fun e' => e.Prepared cfg.type e' ∧ e'.CanReflect cfg.type)
      (Q := fun _ x => x.IsNew) p.checks (fun check _ e₁ he₁ => by
        obtain ⟨r, e₂, hrule, hprepared, hnew⟩ := newRule_ok he₁.2 p.member check.validator false
        exact ⟨_, e₂, bind_ok hrule, ⟨he₁.1.trans hprepared, hprepared.reflects he₁.2⟩,
          hnew.of_place rfl⟩) ⟨.refl _ e, h hchecks⟩
    refine ⟨xs, e', ?_, hprepared, fun h => absurd h hchecks, fun _ x hx => ?_⟩
    · rw [if_neg (by simpa using hchecks)]
      exact hrun
    · obtain ⟨_, -, hnew⟩ := exists_of_mem_forall₂ hxs hx
      exact hnew

/-- The rules that are registered once more stand as the registered ones. -/
theorem recompleted_ok (cfg : Configuration) (e : Engine) :
    ∃ xs e', recompleted cfg e = (.ok xs, e') ∧ e.Prepared cfg.type e' ∧
      ∀ x ∈ xs, ∃ r ∈ e.registry.rulesOf cfg.type, x.standing = r.standing := by
  obtain ⟨xs, e', hcopied, hprepared, hcopies⟩ := copied_ok cfg.type
    (((e.registry.rulesOf cfg.type).filter Rule.hasCheck).map cfg.complete) e
  refine ⟨xs, e', (bind_ok (get_apply e)).trans hcopied, hprepared, fun x hx => ?_⟩
  have hstands : x.standing ∈ xs.map Rule.standing := List.mem_map_of_mem hx
  rw [hcopies, List.map_map] at hstands
  obtain ⟨r, hr, heq⟩ := List.mem_map.mp hstands
  exact ⟨r, (List.mem_filter.mp hr).1, heq.symm⟩

theorem forM_amend {f : Rule → Rule} (hf : ∀ r, (f r).standing = r.standing) (rs : List Rule)
    (e : Engine) : ∃ e', rs.forM (fun r => (modify (Engine.amend r.id f) : Action Unit)) e =
      (.ok (), e') ∧ e.StandsAs e' := by
  induction rs generalizing e with
  | nil => exact ⟨e, rfl, .refl e⟩
  | cons r rs ih =>
    obtain ⟨e', hrest, hstands⟩ := ih (e.amend r.id f)
    exact ⟨e', (bind_ok (modify_apply _ e)).trans hrest,
      (Engine.standsAs_amend hf r.id e).trans hstands⟩

/-- The rules of builders are new, and completing them does not show in how rules stand. -/
theorem builderRules_ok (cfg : Configuration) (hkeyed : e.Keyed) :
    ∃ xs e', builderRules cfg e = (.ok xs, e') ∧ e'.Keyed ∧ e.StandsAs e' ∧
      ∀ x ∈ xs, x.IsNew := by
  obtain ⟨e', hrun, hstands⟩ := forM_amend (f := cfg.complete) (fun _ => rfl)
    ((e.buildersOf cfg).flatMap fun b => b.2.rules) e
  have hwhole : builderRules cfg e = (.ok _, e') := (bind_ok (get_apply e)).trans
    ((bind_ok hrun).trans rfl)
  obtain ⟨hkept, hnew⟩ := builderRules_keyed cfg e hkeyed
  rw [hwhole] at hkept hnew
  exact ⟨_, e', hwhole, hkept, hstands, hnew _ rfl⟩

theorem providerRules_ok (cfg : Configuration) (e : Engine) :
    ∃ xs e', cfg.providers.mapM (providerRule cfg) e = (.ok xs, e') ∧ e.Prepared cfg.type e' ∧
      ∀ x ∈ xs, x.IsNew := by
  obtain ⟨xs, e', hrun, hprepared, hxs⟩ := mapM_ok (e := e)
    (f := providerRule cfg) (I := e.Prepared cfg.type) (Q := fun _ x => x.IsNew)
    cfg.providers (fun _ _ e₁ he₁ =>
      ⟨_, _, rfl, he₁.trans (Engine.prepared_nextId _ e₁ _), by simp, by simp⟩) (.refl _ e)
  refine ⟨xs, e', hrun, hprepared, fun x hx => ?_⟩
  obtain ⟨_, -, hnew⟩ := exists_of_mem_forall₂ hxs hx
  exact hnew

/-- **Everything can be gathered for a build**, if the type can be read as far as checks were
gathered for it. -/
theorem gather_ok (cfg : Configuration) (hkeyed : e.Keyed)
    (hreflect : (∃ p ∈ cfg.pending, p.checks ≠ []) → e.CanReflect cfg.type) :
    ∃ rs e', gather cfg e = (.ok rs, e') ∧ Engine.Gathers cfg rs e e' := by
  have hrest : ∀ (again : List Rule) (e₁ : Engine), e.Prepared cfg.type e₁ →
      (∀ x ∈ again, ∃ r ∈ e.registry.rulesOf cfg.type, x.standing = r.standing) →
      ∃ rs e', gatherAfter cfg again e₁ = (.ok rs, e') ∧ Engine.Gathers cfg rs e e' := by
    intro again e₁ hprepared hagain
    obtain ⟨gathered, e₂, hgathered, ⟨hprepared₂, -⟩, hxss⟩ := mapM_ok (e := e₁)
      (f := pendingRules cfg)
      (I := fun e' => e.Prepared cfg.type e' ∧
        ((∃ p ∈ cfg.pending, p.checks ≠ []) → e'.CanReflect cfg.type))
      (Q := fun p xs => p.Gathers e.registry cfg.type xs) cfg.pending
      (fun p hp e' he' => by
        obtain ⟨xs, e'', hrun, hprepared', hxs⟩ :=
          pendingRules_ok (p := p) fun hchecks => he'.2 ⟨p, hp, hchecks⟩
        exact ⟨xs, e'', hrun, ⟨he'.1.trans hprepared', fun h => hprepared'.reflects (he'.2 h)⟩,
          he'.1.registry ▸ hxs⟩) ⟨hprepared, fun h => hprepared.reflects (hreflect h)⟩
    obtain ⟨built, e₃, hbuilt, hkeyed₃, hstands₃, hbuiltnew⟩ :=
      builderRules_ok cfg (hprepared₂.keyed hkeyed)
    obtain ⟨providers, e₄, hproviders, hprepared₄, hprovidersnew⟩ := providerRules_ok cfg e₃
    refine ⟨again ++ gathered.flatten ++ built ++ providers, e₄, ?_, hprepared₄.keyed hkeyed₃,
      (hprepared₂.standsAs.trans hstands₃).trans hprepared₄.standsAs,
      fits_gathered hkeyed.registry hagain hxss hbuiltnew hprovidersnew,
      fun k r hr => settle_gathered hkeyed.registry hagain hxss hbuiltnew hprovidersnew hr⟩
    unfold gatherAfter
    rw [bind_ok hgathered, bind_ok hbuilt, bind_ok hproviders]
    rfl
  rw [gather_eq]
  cases hidle : cfg.isIdle with
  | true =>
    have hpending : cfg.pending = [] := by
      simp only [Configuration.isIdle, Bool.and_eq_true, List.isEmpty_iff] at hidle
      exact hidle.1.1.1
    refine ⟨[], e, rfl, hkeyed, .refl e, fun x hx => absurd hx List.not_mem_nil, fun k r _ => ?_⟩
    rw [hpending]
    rfl
  | false =>
    simp only [Bool.false_eq_true, if_false]
    cases cfg.settingsChanged with
    | true =>
      obtain ⟨again, e₁, hrun, hprepared, hagain⟩ := recompleted_ok cfg e
      simp only [if_true]
      rw [bind_ok hrun]
      exact hrest again e₁ hprepared hagain
    | false => exact hrest [] e (.refl _ e) fun x hx => absurd hx List.not_mem_nil

end Action

/-! ## 6. Building -/

/-- What a build leaves of an engine: nothing is gathered any more, and the declared rules of each
member keep their places and are set as the last one of some changes says. -/
structure Engine.Builds (c : Nat) (xs : MemberKey → List Change) (e e' : Engine) : Prop where
  keyed : e'.Keyed
  world : e'.world = e.world
  length : e'.configurations.length = e.configurations.length
  type : (e'.configuration c).type = (e.configuration c).type
  gathered : (e'.configuration c).gathered = []
  declared : ∀ k, (e'.registry.declaredAt (e.configuration c).type k).map Rule.standing =
    e.registry.standingWith (e.configuration c).type k (Change.last (xs k))

namespace Action

variable {e : Engine} {c : Nat}

/-- Building registers what can be gathered, and nothing is left gathered. -/
theorem build_of_gather {rs : List Rule} {mid : Engine} (hc : c < e.configurations.length)
    (hput : (commit c e).1 = .ok ())
    (h : gather ((e.committed c).configuration c) (e.committed c) = (.ok rs, mid))
    (hstands : (e.committed c).StandsAs mid) :
    ∃ out e', build c e = (.ok out, e') ∧
      e'.registry = mid.registry.registering ((e.configuration c).type, rs) ∧
      e'.world = mid.world ∧ e'.configurations.length = mid.configurations.length ∧
      (e'.configuration c).type = (e.configuration c).type ∧
      (e'.configuration c).gathered = [] := by
  obtain ⟨cfg, hcfg⟩ : ∃ cfg, (e.committed c).configuration c = cfg := ⟨_, rfl⟩
  have htype : cfg.type = (e.configuration c).type := by
    rw [← hcfg, Engine.committed, Engine.configuration_updateConfiguration_self hc]
  have hcurrent : cfg.current = none := by
    rw [← hcfg, Engine.committed, Engine.configuration_updateConfiguration_self hc]
  have hmid : ∃ lastBuild, mid.configuration c = { cfg with lastBuild } :=
    hcfg ▸ hstands.configuration c
  -- What is left of the configuration when everything has been registered.
  have hlast : ∀ (rs : List Rule) (e' : Engine), e'.configurations = mid.configurations.modify c
      (fun cfg => { cfg.emptied with lastBuild := rs, settingsChanged := false }) →
      (e'.configuration c).type = (e.configuration c).type ∧
        (e'.configuration c).gathered = [] := by
    intro rs e' he'
    have hlt : c < mid.configurations.length := by
      rw [hstands.length]
      exact (List.length_modify ..).symm ▸ hc
    obtain ⟨lastBuild, hmid⟩ := hmid
    have hleft := Engine.configuration_of_modify hlt he'
    rw [hmid] at hleft
    rw [hleft]
    refine ⟨htype, ?_⟩
    show [] ++ cfg.current.toList = []
    rw [hcurrent]
    rfl
  rw [hcfg] at h
  rw [build_eq, bind_ok (commit_apply hput), configuration_bind, hcfg]
  cases hidle : cfg.isIdle with
  | true =>
    rw [gather_eq] at h
    simp only [hidle, if_true] at h ⊢
    cases h
    have hpending : cfg.pending = [] := by
      simp only [Configuration.isIdle, Bool.and_eq_true, List.isEmpty_iff] at hidle
      exact hidle.1.1.1
    refine ⟨_, _, rfl, htype ▸ rfl, rfl, rfl, (congrArg Configuration.type hcfg).trans htype, ?_⟩
    show ((e.committed c).configuration c).gathered = []
    rw [hcfg, Configuration.gathered, hpending, hcurrent]
    rfl
  | false =>
    simp only [Bool.false_eq_true, if_false]
    rw [bind_ok h]
    exact ⟨_, _, rfl, htype ▸ rfl, rfl, List.length_modify .., hlast _ _ rfl⟩

/-- **What building does to declared rules**: the last change for a member decides. -/
theorem build_declared (hkeyed : e.Keyed) (hc : c < e.configurations.length)
    (hput : (commit c e).1 = .ok ())
    (hreflect : (∃ p ∈ (e.configuration c).gathered, p.checks ≠ []) →
      e.CanReflect (e.configuration c).type) :
    ∃ out e', build c e = (.ok out, e') ∧ e.Builds c (e.configuration c).changesOf e' := by
  have hcfg : (e.committed c).configuration c = { e.configuration c with
      pending := (e.configuration c).gathered, current := none } :=
    Engine.configuration_updateConfiguration_self hc _
  have hkeyed' : (e.committed c).Keyed := ⟨hkeyed.registry, hkeyed.builders⟩
  obtain ⟨rs, mid, hgather, hgathers⟩ := gather_ok
    ((e.committed c).configuration c) hkeyed' (by rw [hcfg]; exact hreflect)
  obtain ⟨out, e', hbuild, hregistry, hworld, hlength, htype, hempty⟩ :=
    build_of_gather hc hput hgather hgathers.stands
  refine ⟨out, e', hbuild, ?_, hworld.trans hgathers.stands.world,
    hlength.trans (hgathers.stands.length.trans (List.length_modify ..)), htype, hempty, ?_⟩
  · have hkept := (build_keyed c e hkeyed).1
    rw [hbuild] at hkept
    exact hkept
  · intro k
    have hgathered : ((e.committed c).configuration c).pending = (e.configuration c).gathered ∧
        ((e.committed c).configuration c).type = (e.configuration c).type := by
      rw [hcfg]
      exact ⟨rfl, rfl⟩
    obtain ⟨hkeyedmid, hstands, hfits, hsettle⟩ := hgathers
    rw [hgathered.1, hgathered.2] at hsettle
    rw [hgathered.2] at hfits
    have hadded := Registry.standing_addAll hkeyedmid.registry (fun x hx => (hfits x hx).1)
      (fun x hx => (hfits x hx).2.of_places fun k =>
        Registry.places_of_standing (hstands.declaredAt _ k)) k
    -- Completing the rules of builders does not show in how the declared rules stand.
    have hbefore := congrArg (List.map fun y : _ × Rule.Settings =>
      (y.1, Rule.settle k y.1.2.1 rs y.2)) (hstands.declaredAt (e.configuration c).type k)
    rw [List.map_map, List.map_map] at hbefore
    rw [hregistry]
    refine (hadded.trans hbefore).trans (List.map_congr_left fun r hr => ?_)
    exact congrArg (Prod.mk r.place) (hsettle k r hr)

end Action
end MemberRules
