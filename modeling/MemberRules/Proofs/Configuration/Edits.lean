/-
# Small changes of what is gathered

A configuration step makes one small change of the engine after another.  Most of them leave what is
gathered as it is: they write to the log, mark a type, drop or register rules, put away the member
that was started last, or set messages.  The others are deeds: a member is started, forgotten, gated
or gets a check, a builder gets one, what was gathered is dropped, a value provider is set.  A deed
is said of the configuration or the builder, and of the member, that it is about.

So what is kept by all small changes but certain deeds is kept by every run that does none of these.

* `Engine.Deed`: something that is done to what is gathered.
* `Configuration.Edit`, `Engine.Edit`, `Engine.Edits`: small changes that do certain deeds only.
* `Edits.keep`: what each of them keeps.
* `Configuration.Edit.reading`: what is read off the members that were gathered.
-/
import Mathlib.Logic.Relation
import MemberRules.Proofs.Configuration.Making

namespace MemberRules

open MemberRules.Computation

/-! ## 1. What stays the same -/

/-- A rule at the same place with all settings for messages that another one has. -/
structure Rule.Retains (r r' : Rule) : Prop where
  place : r'.place = r.place
  culture : ∀ x, r.culture = some x → r'.culture = some x
  resource : ∀ x, r.resource = some x → r'.resource = some x
  fallback : ∀ x, r.fallback = some x → r'.fallback = some x
  conventionalKeys : r.conventionalKeys = false → r'.conventionalKeys = false

/-- A rule that applies in the same way: at the same place, to the same values, with what they are
replaced by. -/
structure Rule.Succeeds (r r' : Rule) : Prop extends r.Retains r' where
  forEach : r'.forEach = r.forEach
  provider : r'.provider = r.provider

/-- A member with the same checks. -/
structure PendingRule.Alike (p p' : PendingRule) : Prop where
  member : p'.member = p.member
  validators : p'.checks.map PendingCheck.validator = p.checks.map PendingCheck.validator
  excluded : p'.excluded = p.excluded

/-- A configuration in which the same is gathered. -/
structure Configuration.SameGathered (cfg cfg' : Configuration) : Prop where
  type : cfg'.type = cfg.type
  pending : cfg'.pending = cfg.pending
  current : cfg'.current = cfg.current
  builders : cfg'.builders = cfg.builders
  providers : cfg'.providers = cfg.providers

namespace Rule

theorem Retains.refl (r : Rule) : r.Retains r :=
  ⟨rfl, fun _ h => h, fun _ h => h, fun _ h => h, fun h => h⟩

theorem Retains.trans {r r' r'' : Rule} (h : r.Retains r') (h' : r'.Retains r'') :
    r.Retains r'' where
  place := h'.place.trans h.place
  culture x hx := h'.culture x (h.culture x hx)
  resource x hx := h'.resource x (h.resource x hx)
  fallback x hx := h'.fallback x (h.fallback x hx)
  conventionalKeys hx := h'.conventionalKeys (h.conventionalKeys hx)

/-- A rule with another message, code, name of a resource string and gate applies in the same way. -/
theorem succeeds_with (r : Rule) (m : Option MessageSource) (code name : Option String) (g : Gate) :
    r.Succeeds { r with message := m, errorKey := code, resourceKey := name, gate := g } :=
  ⟨⟨rfl, fun _ h => h, fun _ h => h, fun _ h => h, fun h => h⟩, rfl, rfl⟩

end Rule

/-- Completing a rule takes nothing that it has. -/
theorem Configuration.complete_retains (cfg : Configuration) (r : Rule) :
    r.Retains (cfg.complete r) where
  place := rfl
  culture x hx := by simp [complete, hx]
  resource x hx := by simp [complete, hx]
  fallback x hx := by simp [complete, hx]
  conventionalKeys hx := by simp [complete, hx]

theorem Configuration.complete_succeeds (cfg : Configuration) (r : Rule) :
    r.Succeeds (cfg.complete r) := ⟨cfg.complete_retains r, rfl, rfl⟩

theorem PendingRule.Alike.refl (p : PendingRule) : p.Alike p := ⟨rfl, rfl, rfl⟩

namespace PendingRule

/-- Amending the check that was attached last changes no validator. -/
theorem validators_amendLast {f : PendingCheck → PendingCheck}
    (hf : ∀ x, (f x).validator = x.validator) (xs : List PendingCheck) :
    (amendLast f xs).map PendingCheck.validator = xs.map PendingCheck.validator := by
  induction xs using amendLast.induct with
  | case1 => rfl
  | case2 last => exact congrArg (· :: []) (hf last)
  | case3 first rest hrest ih =>
    rw [amendLast.eq_3 f first rest hrest, List.map_cons, List.map_cons, ih]

/-- Messages, codes and the names of resource strings are set for the same checks. -/
theorem setMessage_alike (m : Option MessageSource) (p : PendingRule) : p.Alike (p.setMessage m) ∧
    (p.setMessage m).gate = p.gate ∧ (p.setMessage m).conditioned = p.conditioned := by
  unfold setMessage
  split
  · exact ⟨⟨rfl, rfl, rfl⟩, rfl, rfl⟩
  · exact ⟨⟨rfl, validators_amendLast (fun _ => by rfl) p.checks, rfl⟩, rfl, rfl⟩

theorem setCode_alike (key : Option String) (p : PendingRule) : p.Alike (p.setCode key) ∧
    (p.setCode key).gate = p.gate ∧ (p.setCode key).conditioned = p.conditioned := by
  unfold setCode
  split
  · exact ⟨⟨rfl, rfl, rfl⟩, rfl, rfl⟩
  · exact ⟨⟨rfl, validators_amendLast (fun _ => by rfl) p.checks, rfl⟩, rfl, rfl⟩

theorem setResourceKey_alike (key : Option String) (p : PendingRule) :
    p.Alike (p.setResourceKey key) ∧ (p.setResourceKey key).gate = p.gate ∧
      (p.setResourceKey key).conditioned = p.conditioned := by
  unfold setResourceKey
  split
  · exact ⟨⟨rfl, rfl, rfl⟩, rfl, rfl⟩
  · exact ⟨⟨rfl, validators_amendLast (fun _ => by rfl) p.checks, rfl⟩, rfl, rfl⟩

end PendingRule

/-! ## 2. Small changes of a configuration -/

namespace Engine

/-- Something that is done to what is gathered.  Making a configuration and changing a setting for all
rules are named as well, but not what they are about. -/
inductive Deed
  /-- Starts a member, which has no check yet. -/
  | start (c : Nat) (k : MemberKey)
  /-- Forgets the member that was started last, which has no check. -/
  | forget (c : Nat) (k : MemberKey)
  /-- Gates the member that was started last. -/
  | gate (c : Nat) (k : MemberKey)
  /-- Attaches a check to the member that was started last. -/
  | attach (c : Nat) (k : MemberKey)
  /-- Attaches a check by a builder. -/
  | attachTo (b : Nat)
  /-- Drops what was gathered for some members. -/
  | drop (c : Nat) (doomed : MemberKey → Bool)
  | provide (c : Nat) (k : MemberKey)
  | setting
  | configure

end Engine

open Engine

/-- A small change of a configuration, which does certain deeds only. -/
inductive Configuration.Edit (A : Deed → Prop) (c : Nat) (cfg : Configuration) :
    Configuration → Prop
  | putAway : Edit A c cfg { cfg with pending := cfg.gathered, current := none }
  | forget {p : PendingRule} (hp : cfg.current = some p) (hnone : p.checks = [])
      (hA : A (.forget c p.member.key)) : Edit A c cfg { cfg with current := none }
  | start (p : PendingRule) (hnone : p.checks = []) (hA : A (.start c p.member.key)) :
      Edit A c cfg { cfg with pending := cfg.gathered, current := some p }
  | furnish {f : PendingRule → PendingRule} (hf : ∀ p : PendingRule, p.Alike (f p) ∧
      (f p).gate = p.gate ∧ (f p).conditioned = p.conditioned) :
      Edit A c cfg { cfg with current := cfg.current.map f }
  | gate {f : PendingRule → PendingRule} (hf : ∀ p : PendingRule, p.Alike (f p))
      (hA : ∀ p, cfg.current = some p → A (.gate c p.member.key)) :
      Edit A c cfg { cfg with current := cfg.current.map f }
  | attach (x : PendingCheck) (hA : ∀ p, cfg.current = some p → A (.attach c p.member.key)) :
      Edit A c cfg { cfg with
        current := cfg.current.map fun p => { p with checks := p.checks ++ [x] } }
  | enforce (on : Bool) : Edit A c cfg { cfg with enforce := on }
  | setting {cfg' : Configuration} (hsame : cfg.SameGathered cfg') (hA : A .setting) :
      Edit A c cfg cfg'
  | provide (m : MemberRef) (x : Expr) (hA : A (.provide c m.key)) :
      Edit A c cfg { cfg with providers := cfg.providers ++ [(m, x)] }
  | drop {doomed : MemberKey → Bool} {ps : List PendingRule} {bs : List Nat}
      {vs : List (MemberRef × Expr)}
      (hpending : ps.filter (fun p => !doomed p.member.key) =
        cfg.pending.filter fun p => !doomed p.member.key)
      (hbuilders : bs.Sublist cfg.builders) (hproviders : vs.Sublist cfg.providers)
      (hA : A (.drop c doomed)) :
      Edit A c cfg { cfg with pending := ps, builders := bs, providers := vs }

theorem Configuration.Edit.type {A : Deed → Prop} {c : Nat} {cfg cfg' : Configuration}
    (h : cfg.Edit A c cfg') : cfg'.type = cfg.type := by
  cases h with
  | setting hsame => exact hsame.type
  | _ => rfl

/-- **What a small change leaves of what is read off the members that were gathered.**  It is the same
if nothing is read off the members that a deed starts or forgets or drops, and if it does not depend
on what other deeds change. -/
theorem Configuration.Edit.reading {A : Deed → Prop} {c : Nat} {cfg cfg' : Configuration} {α : Type}
    {f : List PendingRule → List α} (h : cfg.Edit A c cfg')
    (happend : ∀ ps qs, f (ps ++ qs) = f ps ++ f qs)
    (hnew : ∀ p : PendingRule, p.checks = [] → A (.start c p.member.key) ∨ A (.forget c p.member.key) →
      f [p] = [])
    (hset : ∀ p p' : PendingRule, p.Alike p' → p'.gate = p.gate ∧ p'.conditioned = p.conditioned ∨
      A (.gate c p.member.key) → f [p'] = f [p])
    (hattach : ∀ (p : PendingRule) x, A (.attach c p.member.key) →
      f [{ p with checks := p.checks ++ [x] }] = f [p])
    (hdrop : ∀ doomed, A (.drop c doomed) → ∀ ps : List PendingRule,
      f (ps.filter fun p => !doomed p.member.key) = f ps) : f cfg'.gathered = f cfg.gathered := by
  have hcurrent : ∀ {g : PendingRule → PendingRule},
      (∀ p, cfg.current = some p → f [g p] = f [p]) →
      f { cfg with current := cfg.current.map g }.gathered = f cfg.gathered := fun {g} hg => by
    unfold Configuration.gathered
    rw [happend, happend]
    cases hp : cfg.current with
    | none => rfl
    | some p => exact congrArg (f cfg.pending ++ ·) (hg p hp)
  cases h with
  | putAway => exact congrArg f (List.append_nil _)
  | @forget p hp hnone hforget =>
    unfold Configuration.gathered
    rw [hp, happend, happend, Option.toList_some, hnew p hnone (.inr hforget)]
    exact congrArg (f cfg.pending ++ ·) (by simpa using happend [] [])
  | start p hnone hstart =>
    show f (cfg.gathered ++ [p]) = _
    rw [happend, hnew p hnone (.inl hstart), List.append_nil]
  | furnish hf => exact hcurrent fun p _ => hset p _ (hf p).1 (.inl (hf p).2)
  | gate hf hgate => exact hcurrent fun p hp => hset p _ (hf p) (.inr (hgate p hp))
  | attach x hchecks => exact hcurrent fun p hp => hattach p x (hchecks p hp)
  | setting hsame =>
    unfold Configuration.gathered
    rw [hsame.pending, hsame.current]
  | @drop doomed ps bs vs hpending _ _ hdropped =>
    have hsame := congrArg f hpending
    rw [hdrop doomed hdropped, hdrop doomed hdropped] at hsame
    unfold Configuration.gathered
    rw [happend, happend, hsame]
  | _ => rfl

/-- A small change of a configuration lists no builder. -/
theorem Configuration.Edit.builders {A : Deed → Prop} {c : Nat} {cfg cfg' : Configuration}
    (h : cfg.Edit A c cfg') : cfg'.builders.Sublist cfg.builders := by
  cases h with
  | setting hsame => exact hsame.builders ▸ .refl _
  | drop _ hbuilders => exact hbuilders
  | _ => exact .refl _

/-! ## 3. Small changes -/

namespace Engine

/-- A small change, which does certain deeds only. -/
inductive Edit (A : Deed → Prop) (e : Engine) : Engine → Prop
  /-- Of what is held neither by configurations and builders nor by the registry. -/
  | aside {e' : Engine} (hsame : SameBooks e e') : Edit A e e'
  | mark (t : TypeId) (built : Bool) : Edit A e { e with registry := e.registry.mark t built }
  | remove (t : TypeId) (member : Option MemberKey) (doomed : Rule → Bool) :
      Edit A e { e with registry := e.registry.removeWhere t member doomed }
  /-- The declared rules of a type that is not known. -/
  | register (t : TypeId) (rs : List Rule) (hnew : e.registry.knows t = false)
      (hproviders : ∀ r ∈ rs, r.provider = none) :
      Edit A e { e with registry := e.registry.addAll t rs }
  | amend (id : Nat) {f : Rule → Rule} (hf : ∀ r : Rule, r.Succeeds (f r)) : Edit A e (e.amend id f)
  | work (c : Nat) {f : Configuration → Configuration}
      (hf : (e.configuration c).Edit A c (f (e.configuration c))) :
      Edit A e (e.updateConfiguration c f)
  | create (cfg : Configuration) (hpending : cfg.pending = []) (hcurrent : cfg.current = none)
      (hbuilders : cfg.builders = []) (hproviders : cfg.providers = []) (hA : A .configure) :
      Edit A e { e with configurations := e.configurations ++ [cfg] }
  | book (entry : TypeId × Nat) (hA : A .configure) :
      Edit A e { e with configured := e.configured ++ [entry] }
  /-- Of a builder that is new, and listed by its configuration. -/
  | list (c : Nat) (m : MemberRef) (forEach : Bool) (named : List (String × Nat)) :
      Edit A e (updateConfiguration c
        (fun cfg => { cfg with builders := cfg.builders ++ [e.builders.length] })
        { e with builders := e.builders ++ [{ owner := c, member := m, forEach }], named })
  | close (b : Nat) (last : Option Guard) :
      Edit A e (e.updateBuilder b fun x => { x with lastGuard := last })
  | attachTo (b : Nat) (r : Rule) (hmember : r.member = (e.builder b).member)
      (hforEach : r.forEach = (e.builder b).forEach) (hprovider : r.provider = none)
      (hA : A (.attachTo b)) :
      Edit A e (e.updateBuilder b fun x => { x with rules := x.rules ++ [r] })
  /-- Rules of a builder that is listed. -/
  | dropRules (c b : Nat) {doomed : MemberKey → Bool} {stays : Rule → Bool}
      (hlisted : b ∈ (e.configuration c).builders) (hA : A (.drop c doomed)) :
      Edit A e (e.updateBuilder b fun x =>
        if doomed x.member.key then { x with rules := x.rules.filter stays } else x)

/-- Small changes, one after the other, which do certain deeds only. -/
def Edits (A : Deed → Prop) : Engine → Engine → Prop := Relation.ReflTransGen (Edit A)

variable {A B : Deed → Prop} {e e' e'' : Engine} {c : Nat}

theorem Edits.refl (e : Engine) : Edits A e e := Relation.ReflTransGen.refl

theorem Edits.trans (h : Edits A e e') (h' : Edits A e' e'') : Edits A e e'' :=
  Relation.ReflTransGen.trans h h'

theorem Edits.andThen (h : Edits A e e') (h' : Edit A e' e'') : Edits A e e'' :=
  Relation.ReflTransGen.tail h h'

theorem Edit.edits (h : Edit A e e') : Edits A e e' := Relation.ReflTransGen.single h

/-- What each small change keeps is kept by all of them. -/
theorem Edits.keep {I : Engine → Prop} (hI : ∀ {e e'}, Edit A e e' → I e → I e')
    (h : Edits A e e') (he : I e) : I e' := by
  induction h with
  | refl => exact he
  | tail _ hedit ih => exact hI hedit ih

theorem Edit.length_le (h : Edit A e e') : e.configurations.length ≤ e'.configurations.length := by
  cases h with
  | aside hsame => exact (congrArg List.length hsame.configurations).ge
  | work c => exact (List.length_modify ..).ge
  | amend id => exact (List.length_map ..).ge
  | list c => exact (List.length_modify ..).ge
  | create cfg =>
    rw [List.length_append]
    exact Nat.le_add_right _ _
  | _ => exact le_rfl

/-- **What a small change leaves of a configuration**: all that is gathered, or what a small change of
the configuration leaves, or one builder more, which is new. -/
theorem Edit.configuration (h : Edit A e e') (hc : c < e.configurations.length) :
    (e.configuration c).SameGathered (e'.configuration c) ∨
    (e.configuration c).Edit A c (e'.configuration c) ∨
    e'.configuration c = { e.configuration c with
      builders := (e.configuration c).builders ++ [e.builders.length] } ∧
      ∃ x : Builder, x.rules = [] ∧ e'.builders = e.builders ++ [x] := by
  have hsame : ∀ {e' : Engine}, e'.configuration c = e.configuration c →
      (e.configuration c).SameGathered (e'.configuration c) := fun heq => by
    rw [heq]
    exact ⟨rfl, rfl, rfl, rfl, rfl⟩
  cases h with
  | aside hbooks =>
    refine .inl (hsame ?_)
    rw [Engine.configuration, hbooks.configurations, Engine.configuration]
  | @amend id f =>
    rw [configuration_amend]
    exact .inl ⟨rfl, rfl, rfl, rfl, rfl⟩
  | @work c' f hf =>
    by_cases hne : c' = c
    · subst hne
      rw [configuration_updateConfiguration_self hc f]
      exact .inr (.inl hf)
    · exact .inl (hsame (configuration_updateConfiguration_of_ne hne f))
  | create cfg =>
    refine .inl (hsame ?_)
    rw [configuration_newConfiguration, if_pos hc]
  | list c' m forEach named =>
    by_cases hne : c' = c
    · subst hne
      exact .inr (.inr ⟨configuration_updateConfiguration_self hc _, _, rfl, rfl⟩)
    · exact .inl (hsame (configuration_updateConfiguration_of_ne hne _))
  | _ => exact .inl (hsame rfl)

theorem Edit.type (h : Edit A e e') (hc : c < e.configurations.length) :
    (e'.configuration c).type = (e.configuration c).type := by
  rcases h.configuration hc with hsame | hedit | ⟨hlisted, -⟩
  · exact hsame.type
  · exact Configuration.Edit.type hedit
  · rw [hlisted]

/-- Configurations that list no builder more list only builders that they own. -/
theorem Owned.of_listed (he : e.Owned)
    (hlisted : ∀ c, ∀ b ∈ (e'.configuration c).builders, b ∈ (e.configuration c).builders)
    (hlength : e'.builders.length = e.builders.length)
    (howner : ∀ b, (e'.builder b).owner = (e.builder b).owner) : e'.Owned := fun c b hb => by
  rw [hlength, howner]
  exact he c b (hlisted c b hb)

theorem Owned.updateBuilder (he : e.Owned) (b : Nat) {f : Builder → Builder}
    (hf : ∀ x, (f x).owner = x.owner) : (e.updateBuilder b f).Owned := by
  refine he.of_listed (fun _ _ hb => hb) (List.length_modify ..) fun b' => ?_
  rw [builder_updateBuilder]
  split
  · exact hf _
  · rfl

/-- **Configurations go on to list builders that they own.** -/
theorem Edit.owned (h : Edit A e e') (he : e.Owned) : e'.Owned := by
  cases h with
  | aside hsame =>
    refine he.of_listed (fun c b hb => ?_) (congrArg List.length hsame.builders)
      fun b => congrArg Builder.owner (hsame.builder b)
    rwa [hsame.configuration] at hb
  | @amend id f =>
    refine he.of_listed (fun c b hb => ?_) (List.length_map ..) fun b => ?_
    · rwa [configuration_amend] at hb
    · rw [builder_amend]
  | @work c f hf =>
    refine he.of_listed (fun c' b hb => ?_) rfl fun b => rfl
    rcases configuration_updateConfiguration_cases (e := e) c c' f with heq | ⟨rfl, heq⟩ <;>
      rw [heq] at hb
    · exact hb
    · exact hf.builders.subset hb
  | create cfg _ _ hbuilders =>
    refine he.of_listed (fun c b hb => ?_) rfl fun b => rfl
    rw [configuration_newConfiguration] at hb
    split at hb
    · exact hb
    · split at hb
      · rw [hbuilders] at hb
        cases hb
      · cases hb
  | list c m forEach named =>
    intro c' b hb
    have hmade : b ∈ (e.configuration c').builders ∨ c' = c ∧ b = e.builders.length := by
      rcases configuration_updateConfiguration_cases (e := { e with
        builders := e.builders ++ [{ owner := c, member := m, forEach }], named }) c c'
        fun cfg => { cfg with builders := cfg.builders ++ [e.builders.length] } with
        heq | ⟨rfl, heq⟩ <;> rw [heq] at hb
      · exact .inl hb
      · exact (List.mem_append.mp hb).imp_right fun hb => ⟨rfl, List.mem_singleton.mp hb⟩
    have hbuilder := builder_newBuilder (e := e) { owner := c, member := m, forEach } named b
    have hlength : (e.builders ++ [({ owner := c, member := m, forEach } : Builder)]).length =
        e.builders.length + 1 := List.length_append
    show b < (e.builders ++ [_]).length ∧ (Engine.builder { e with
      builders := e.builders ++ [{ owner := c, member := m, forEach }], named } b).owner = c'
    rw [hbuilder, hlength]
    rcases hmade with hb | ⟨rfl, rfl⟩
    · obtain ⟨hlt, howner⟩ := he c' b hb
      rw [if_pos hlt]
      exact ⟨by omega, howner⟩
    · rw [if_neg (by omega), if_pos rfl]
      exact ⟨by omega, rfl⟩
  | close b => exact he.updateBuilder b fun _ => rfl
  | attachTo b => exact he.updateBuilder b fun _ => rfl
  | dropRules c b =>
    refine he.updateBuilder b fun x => ?_
    split <;> rfl
  | _ => exact he

end Engine

end MemberRules
