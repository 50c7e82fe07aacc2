/-
# What is made when a type is built

When a type is built, rules are made one after the other: copies of registered rules, rules for the
checks that were gathered for members, carriers.  Each gets the next number.  But for the numbers,
what is made depends on what was gathered and on what is registered, and on nothing that happens
while it is made.

* `Rule.look`: a rule but for its numbers.
* `Engine.Makes`, `Engine.mapM_makes`: rules that are made one after the other.
* `PendingRule.checkRule`, `PendingRule.Made`: what is made for a member.
* `Engine.whole`, `Engine.Gathered`, `Action.gather_eq_ok`: everything that is gathered for a build.
-/
import MemberRules.Proofs.Configuration.Numbers
import MemberRules.Proofs.Declared.Building

namespace MemberRules

open MemberRules.Computation

/-! ## 1. Rules but for their numbers -/

/-- A key without the number in it. -/
def UniqueKey.untold : UniqueKey → UniqueKey
  | named s => named s
  | fresh kind _ owner member => fresh kind 0 owner member
  | anonymous _ => anonymous 0

namespace Rule

/-- A rule but for its numbers. -/
def look (r : Rule) : Rule := { r with id := 0, uniqueKey := r.uniqueKey.untold }

/-- A copy of a rule: the same one, but for its identity. -/
def IsCopy (r x : Rule) : Prop := x = { r with id := x.id }

variable {r x : Rule}

theorem IsCopy.look (h : r.IsCopy x) : x.look = r.look := by
  rw [h]
  rfl

theorem IsCopy.place (h : r.IsCopy x) : x.place = r.place := by
  rw [h]
  rfl

/-- The rule for a check of a member, under a number. -/
def ofCheck (t : TypeId) (m : MemberRef) (display : String) (a : Attribute) (forEach : Bool)
    (id : Nat) : Rule where
  id
  member := m
  validator := some a
  propertyName := some display
  uniqueKey := .fresh a.check.shortName id t m.name
  source := .built
  forEach

end Rule

/-! ## 2. Rules that are made one after the other -/

namespace Engine

variable {α β : Type} {t : TypeId} {e e' e'' : Engine} {rs rs' : List Rule}

/-- The name for display of a member, as an engine knows it. -/
def displayed (e : Engine) (t : TypeId) (name : String) : String :=
  match (e.world.schema.reflect t e.reflected).1 with
  | .ok ms => ((ms.find? fun m => m.member.name == name).map MemberInfo.displayName).getD name
  | .error _ => name

/-- An engine in which rules have been made since another one: they have consecutive numbers, and
nothing else has changed but for what has been read of the type. -/
structure Makes (t : TypeId) (rs : List Rule) (e e' : Engine) : Prop where
  same : ∃ reflected, e' = { e with reflected, nextId := e.nextId + rs.length }
  ids : rs.map Rule.id = List.range' e.nextId rs.length
  displayed : e.world.schema.Faithful e.reflected → e'.world.schema.Faithful e'.reflected ∧
    ∀ name, e'.displayed t name = e.displayed t name
  reflects : e'.CanReflect t → e.CanReflect t

theorem Makes.refl (t : TypeId) (e : Engine) : Makes t [] e e :=
  ⟨⟨_, rfl⟩, rfl, fun h => ⟨h, fun _ => rfl⟩, id⟩

theorem Makes.nextId (h : Makes t rs e e') : e'.nextId = e.nextId + rs.length := by
  obtain ⟨reflected, rfl⟩ := h.same
  rfl

theorem Makes.registry (h : Makes t rs e e') : e'.registry = e.registry := by
  obtain ⟨reflected, rfl⟩ := h.same
  rfl

theorem Makes.append (h : Makes t rs e e') (h' : Makes t rs' e' e'') :
    Makes t (rs ++ rs') e e'' where
  same := by
    obtain ⟨reflected, rfl⟩ := h.same
    obtain ⟨reflected', rfl⟩ := h'.same
    exact ⟨reflected', by simp only [List.length_append, Nat.add_assoc]⟩
  ids := by
    rw [List.map_append, h.ids, h'.ids, h.nextId, List.length_append, List.range'_append_1]
  displayed hfaithful := by
    obtain ⟨hfaithful', hdisplayed⟩ := h.displayed hfaithful
    obtain ⟨hfaithful'', hdisplayed'⟩ := h'.displayed hfaithful'
    exact ⟨hfaithful'', fun name => (hdisplayed' name).trans (hdisplayed name)⟩
  reflects hreflects := h.reflects (h'.reflects hreflects)

/-- A rule that is made without reading anything. -/
theorem makes_singleton {r : Rule} (hid : r.id = e.nextId) :
    Makes t [r] e { e with nextId := e.nextId + 1 } :=
  ⟨⟨_, rfl⟩, by simp [hid], fun h => ⟨h, fun _ => rfl⟩, id⟩

/-- The rules that are made for several things one after the other. -/
theorem mapM_makes {f : α → Action β} (made : β → List Rule) {Q : α → β → Prop} {as : List α}
    {bs : List β} (hf : ∀ a ∈ as, ∀ rs₀ e₁ b e₂, Makes t rs₀ e e₁ → f a e₁ = (.ok b, e₂) →
      Makes t (made b) e₁ e₂ ∧ Q a b) (h : as.mapM f e = (.ok bs, e')) :
    Makes t (bs.flatMap made) e e' ∧ List.Forall₂ Q as bs := by
  suffices hgeneral : ∀ as' bs rs₀ e₁, as' ⊆ as → Makes t rs₀ e e₁ →
      as'.mapM f e₁ = (.ok bs, e') → Makes t (bs.flatMap made) e₁ e' ∧ List.Forall₂ Q as' bs from
    hgeneral as bs [] e (List.Subset.refl _) (.refl t e) h
  intro as'
  induction as' with
  | nil =>
    intro bs rs₀ e₁ _ _ h
    rw [List.mapM_nil] at h
    cases h
    exact ⟨.refl t _, .nil⟩
  | cons a as' ih =>
    intro bs rs₀ e₁ hsub hbefore h
    obtain ⟨hmem, hrest⟩ := List.cons_subset.mp hsub
    rw [List.mapM_cons] at h
    obtain ⟨b, e₂, hb, h⟩ := bind_eq_ok.mp h
    obtain ⟨bs', e₃, hbs, h⟩ := bind_eq_ok.mp h
    cases h
    obtain ⟨hmakes, hQ⟩ := hf a hmem rs₀ e₁ b e₂ hbefore hb
    obtain ⟨hmakes', hQs⟩ := ih bs' (rs₀ ++ made b) e₂ hrest (hbefore.append hmakes) hbs
    exact ⟨hmakes.append hmakes', .cons hQ hQs⟩

end Engine

/-! ## 3. Single rules -/

namespace Action

open Engine

variable {t : TypeId} {e e' : Engine} {r : Rule}

theorem copied_eq_ok {x : Rule} (h : copied r e = (.ok x, e')) :
    Makes t [x] e e' ∧ r.IsCopy x := by
  cases h
  exact ⟨makes_singleton rfl, rfl⟩

theorem newCarrier_eq_ok {m : MemberRef} {kind : String} (h : newCarrier t m kind e = (.ok r, e')) :
    Makes t [r] e e' ∧ r.member = m ∧ r.IsOwn ∧ r.hasCheck = false ∧ r.provider = none := by
  cases h
  exact ⟨makes_singleton rfl, rfl, rfl, rfl, rfl⟩

/-- What a type gives does not depend on whether it has been read before. -/
theorem members_eq_ok {ms : List MemberInfo} (h : members t e = (.ok ms, e')) :
    Makes t [] e e' ∧ e.CanReflect t ∧
      ∀ name, e.displayed t name =
        ((ms.find? fun m => m.member.name == name).map MemberInfo.displayName).getD name := by
  have hcan : e.CanReflect t := ⟨ms, congrArg Prod.fst h⟩
  have hread : e.world.schema.reflect t e.reflected = (.ok ms, e'.reflected) ∧
      e' = { e with reflected := e'.reflected } := by
    have hrun : members t e = ((e.world.schema.reflect t e.reflected).1,
      { e with reflected := (e.world.schema.reflect t e.reflected).2 }) := rfl
    rw [hrun] at h
    obtain ⟨hfirst, rfl⟩ := Prod.mk.inj h
    exact ⟨Prod.ext hfirst rfl, rfl⟩
  obtain ⟨hreflect, hsame⟩ := hread
  have hdisplayed : ∀ name, e.displayed t name =
      ((ms.find? fun m => m.member.name == name).map MemberInfo.displayName).getD name := by
    intro name
    unfold displayed
    rw [hreflect]
  refine ⟨⟨⟨_, hsame⟩, rfl, fun hfaithful => ⟨?_, fun name => ?_⟩, fun _ => hcan⟩, hcan,
    hdisplayed⟩
  · have hkept := (Schema.faithful_reflect e.world.schema t hfaithful).1
    rw [hreflect] at hkept
    rw [hsame]
    exact hkept
  · have hagain := Schema.reflect_of_lookup (s := e.world.schema) (hfaithful.lookup_reflect hreflect)
    rw [hdisplayed, hsame]
    unfold displayed
    dsimp only
    rw [hagain]

theorem displayName_eq_ok {name display : String} (h : displayName t name e = (.ok display, e')) :
    Makes t [] e e' ∧ e.CanReflect t ∧ display = e.displayed t name := by
  obtain ⟨ms, e₁, hmembers, h⟩ := bind_eq_ok.mp h
  obtain ⟨hmakes, hcan, hdisplayed⟩ := members_eq_ok hmembers
  rw [hdisplayed]
  cases hfind : ms.find? fun m => m.member.name == name with
  | some m =>
    simp only [hfind] at h
    cases h
    exact ⟨hmakes, hcan, rfl⟩
  | none =>
    simp only [hfind] at h
    cases h
    exact ⟨hmakes, hcan, rfl⟩

/-- **A rule for a check** shows the member as the engine knows it. -/
theorem newRule_eq_ofCheck {m : MemberRef} {a : Attribute} {forEach : Bool}
    (h : newRule t m a forEach e = (.ok r, e')) : Makes t [r] e e' ∧ e.CanReflect t ∧
      r = Rule.ofCheck t m (e.displayed t m.name) a forEach e.nextId := by
  obtain ⟨display, e₁, hdisplay, h⟩ := bind_eq_ok.mp h
  obtain ⟨hmakes, hcan, rfl⟩ := displayName_eq_ok hdisplay
  obtain ⟨id, e₂, hid, h⟩ := bind_eq_ok.mp h
  cases hid
  cases h
  obtain hnext : e₁.nextId = e.nextId := hmakes.nextId
  refine ⟨hmakes.append (makes_singleton rfl), hcan, ?_⟩
  rw [hnext]
  rfl

end Action

/-! ## 4. What is made for a member -/

namespace PendingRule

/-- The rule for a check that was gathered for a member, under a number. -/
def checkRule (cfg : Configuration) (p : PendingRule) (display : String) (k : PendingCheck)
    (id : Nat) : Rule :=
  cfg.complete { Rule.ofCheck cfg.type p.member display k.validator false id with
    gate := p.gate
    message := k.message.or p.message
    errorKey := (Message.present k.code).or p.code
    resourceKey := (Message.present k.resourceKey).or p.resourceKey }

/-- What is made for a member: a rule for each check, or else copies of its declared rules with what
was set for them, and a carrier. -/
structure Made (cfg : Configuration) (e : Engine) (p : PendingRule) (xs : List Rule) : Prop where
  copies : p.checks = [] → ∃ copies carrier, xs = copies ++ [carrier] ∧
    List.Forall₂ Rule.IsCopy ((e.registry.declaredAt cfg.type p.member.key).map
      (Action.declaredWith cfg p)) copies ∧
    carrier.member = p.member ∧ carrier.IsOwn ∧ carrier.hasCheck = false ∧ carrier.provider = none
  checks : p.checks ≠ [] → e.CanReflect cfg.type ∧ List.Forall₂ (fun k x =>
    x = p.checkRule cfg (e.displayed cfg.type p.member.name) k x.id) p.checks xs

end PendingRule

namespace Action

open Engine

variable {cfg : Configuration} {e e' : Engine} {p : PendingRule} {xs : List Rule}

theorem pendingRule_eq_ok {k : PendingCheck} {x : Rule} (h : pendingRule cfg p k e = (.ok x, e')) :
    Makes cfg.type [x] e e' ∧ e.CanReflect cfg.type ∧
      x = p.checkRule cfg (e.displayed cfg.type p.member.name) k x.id := by
  obtain ⟨r, e₁, hrule, h⟩ := bind_eq_ok.mp h
  obtain ⟨hmakes, hcan, rfl⟩ := newRule_eq_ofCheck hrule
  cases h
  exact ⟨⟨hmakes.same, hmakes.ids, hmakes.displayed, hmakes.reflects⟩, hcan, rfl⟩

/-- **What is made for a member** is made as the engine stands before. -/
theorem pendingRules_eq_ok (hfaithful : e.world.schema.Faithful e.reflected)
    (h : pendingRules cfg p e = (.ok xs, e')) : Makes cfg.type xs e e' ∧ p.Made cfg e xs := by
  unfold pendingRules at h
  by_cases hchecks : p.checks = []
  · rw [if_pos (by simp [hchecks]), bind_ok (get_apply e)] at h
    obtain ⟨copies, e₁, hcopies, h⟩ := bind_eq_ok.mp h
    obtain ⟨carrier, e₂, hcarrier, h⟩ := bind_eq_ok.mp h
    cases h
    obtain ⟨hmakes, hcopied⟩ := mapM_makes (t := cfg.type) (f := copied) (fun x => [x])
      (fun r _ _ e₁ x e₂ _ hx => copied_eq_ok hx) hcopies
    obtain ⟨hmakes', hcarried⟩ := newCarrier_eq_ok hcarrier
    rw [List.flatMap_singleton'] at hmakes
    have hlast : Makes cfg.type [{ carrier with gate := p.gate }] e₁ e' :=
      ⟨hmakes'.same, hmakes'.ids, hmakes'.displayed, hmakes'.reflects⟩
    exact ⟨hmakes.append hlast, fun _ => ⟨copies, _, rfl, hcopied, hcarried⟩,
      fun hne => absurd hchecks hne⟩
  · rw [if_neg (by simpa using hchecks)] at h
    obtain ⟨hmakes, hmade⟩ := mapM_makes (t := cfg.type) (fun x => [x])
      (Q := fun k x => e.CanReflect cfg.type ∧
        x = p.checkRule cfg (e.displayed cfg.type p.member.name) k x.id)
      (fun k _ _ e₁ x e₂ hbefore hx => by
        obtain ⟨hmakes, hcan, hrule⟩ := pendingRule_eq_ok hx
        rw [(hbefore.displayed hfaithful).2] at hrule
        exact ⟨hmakes, hbefore.reflects hcan, hrule⟩) h
    rw [List.flatMap_singleton'] at hmakes
    refine ⟨hmakes, fun hnil => absurd hnil hchecks, fun _ => ⟨?_, hmade.imp fun _ _ h => h.2⟩⟩
    obtain ⟨k, ks, hks⟩ := List.exists_cons_of_ne_nil hchecks
    rw [hks] at hmade
    cases hmade with
    | cons hfirst _ => exact hfirst.1

/-- What is made for a member while others are made is what is made for it before. -/
theorem PendingRule.Made.of_makes {rs : List Rule} (hfaithful : e.world.schema.Faithful e.reflected)
    (h : p.Made cfg e' xs) (hbefore : Makes cfg.type rs e e') : p.Made cfg e xs where
  copies hchecks := by
    rw [← hbefore.registry]
    exact h.copies hchecks
  checks hchecks := by
    obtain ⟨hcan, hmade⟩ := h.checks hchecks
    rw [(hbefore.displayed hfaithful).2] at hmade
    exact ⟨hbefore.reflects hcan, hmade⟩

end Action

/-! ## 5. The rules of builders -/

namespace Engine

variable {c : Nat} {e e' : Engine} {r : Rule}

/-- The rules of the builders that a configuration lists. -/
def listedRules (c : Nat) (e : Engine) : List Rule :=
  (e.configuration c).builders.flatMap fun b => (e.builder b).rules

/-- An engine in which several rules have been changed, one after the other. -/
def amendAll (f : Rule → Rule) (rs : List Rule) (e : Engine) : Engine :=
  rs.foldl (fun e r => e.amend r.id f) e

theorem mem_listedRules : r ∈ e.listedRules c ↔
    ∃ b ∈ (e.configuration c).builders, r ∈ (e.builder b).rules := List.mem_flatMap

namespace Numbered

/-- Builders that are listed are there. -/
theorem buildersOf_eq (h : e.Numbered) (c : Nat) : e.buildersOf (e.configuration c) =
    (e.configuration c).builders.map fun b => (b, e.builder b) := by
  unfold buildersOf
  rw [← List.filterMap_eq_map]
  refine List.filterMap_congr fun b hb => ?_
  show _ = some (b, (e.builders[b]?).getD default)
  rw [List.getElem?_eq_getElem (h.owned c b hb).1]
  rfl

theorem flatMap_buildersOf (h : e.Numbered) (c : Nat) :
    (e.buildersOf (e.configuration c)).flatMap (fun b => b.2.rules) = e.listedRules c := by
  rw [h.buildersOf_eq, List.flatMap_map]
  rfl

/-- No two rules of listed builders have the same number. -/
theorem nodup_listedRules (h : e.Numbered) (c : Nat) : ((e.listedRules c).map Rule.id).Nodup := by
  unfold listedRules
  rw [List.map_flatMap]
  refine List.nodup_flatMap.mpr ⟨fun b _ => h.once b, (h.listed c).imp fun {b b'} hne => ?_⟩
  intro id hid hid'
  obtain ⟨r, hr, rfl⟩ := List.mem_map.mp hid
  obtain ⟨r', hr', heq⟩ := List.mem_map.mp hid'
  exact h.apart b b' hne r hr r' hr' heq.symm

theorem listedRules_isOwn (h : e.Numbered) (hr : r ∈ e.listedRules c) :
    r.IsOwn ∧ r.id < e.nextId ∧ r.hasCheck = true := by
  obtain ⟨b, -, hr⟩ := mem_listedRules.mp hr
  exact ⟨(h.held b r hr).1, (h.held b r hr).2, (h.home b r hr).2⟩

/-- The rules of listed builders are not registered. -/
theorem listedRules_waiting (h : e.Numbered) (hr : r ∈ e.listedRules c) {t : TypeId} {k : MemberKey}
    {x : Rule} (hx : x ∈ e.registry.rulesOfMember t k) : ¬ x.Uses r.id := by
  obtain ⟨b, hb, hr⟩ := mem_listedRules.mp hr
  exact h.waiting c b hb r hr t k x hx

end Numbered

variable {f : Rule → Rule} {rs : List Rule}

theorem sheds_amendAll (hf : ∀ r, (f r).tag = r.tag) (rs : List Rule) (e : Engine) :
    e.Sheds (e.amendAll f rs) := by
  induction rs generalizing e with
  | nil => exact sheds_refl e
  | cons r rs ih => exact (sheds_amend hf r.id).trans (ih (e.amend r.id f))

/-- Rules that are not registered can be changed without the registry. -/
theorem rulesOfMember_amendAll {t : TypeId} {k : MemberKey}
    (hrs : ∀ r ∈ rs, ∀ x ∈ e.registry.rulesOfMember t k, x.id ≠ r.id) :
    (e.amendAll f rs).registry.rulesOfMember t k = e.registry.rulesOfMember t k := by
  induction rs generalizing e with
  | nil => rfl
  | cons r rs ih =>
    obtain ⟨hr, hrest⟩ := List.forall_mem_cons.mp hrs
    have hsame : (e.amend r.id f).registry.rulesOfMember t k = e.registry.rulesOfMember t k := by
      show (e.registry.amend r.id f).rulesOfMember t k = _
      rw [Registry.rulesOfMember_amend]
      refine (List.map_congr_left fun x hx => ?_).trans (List.map_id _)
      rw [if_neg (by simpa using hr x hx)]
      rfl
    exact (ih (e := e.amend r.id f) (by rwa [hsame])).trans hsame

/-- Members keep their places when rules are changed. -/
theorem members_amendAll (f : Rule → Rule) (rs : List Rule) (e : Engine) (t : TypeId) :
    ((e.amendAll f rs).registry.allGroups t).map (fun g => g.member.key) =
      (e.registry.allGroups t).map fun g => g.member.key := by
  induction rs generalizing e with
  | nil => rfl
  | cons r rs ih =>
    refine (ih (e.amend r.id f)).trans ?_
    show ((e.registry.amend r.id f).allGroups t).map _ = _
    rw [Registry.allGroups_amend, List.map_map]
    rfl

theorem amendAll_nextId (f : Rule → Rule) (rs : List Rule) (e : Engine) :
    (e.amendAll f rs).nextId = e.nextId := by
  induction rs generalizing e with
  | nil => rfl
  | cons r rs ih => exact ih (e.amend r.id f)

theorem forM_amend_apply (f : Rule → Rule) (rs : List Rule) (e : Engine) :
    rs.forM (fun r => (modify (amend r.id f) : Action Unit)) e = (.ok (), e.amendAll f rs) := by
  induction rs generalizing e with
  | nil => rfl
  | cons r rs ih => exact (bind_ok (modify_apply _ e)).trans (ih (e.amend r.id f))

/-- **The rules of builders** are completed, where they are held too. -/
theorem builderRules_apply (h : e.Numbered) (c : Nat) :
    Action.builderRules (e.configuration c) e =
      (.ok ((e.listedRules c).map (e.configuration c).complete),
        e.amendAll (e.configuration c).complete (e.listedRules c)) := by
  unfold Action.builderRules
  rw [bind_ok (get_apply e), h.flatMap_buildersOf]
  exact bind_ok (forM_amend_apply _ _ e)

end Engine

/-! ## 6. Everything that is made for a build -/

namespace Engine

variable {c : Nat} {e e' mid : Engine} {t : TypeId} {rs : List Rule}

theorem Makes.sheds (h : Makes t rs e e') : e.Sheds e' := by
  refine sheds_aside ?_ (by rw [h.nextId]; omega) fun hfaithful => (h.displayed hfaithful).1
  obtain ⟨reflected, rfl⟩ := h.same
  exact ⟨rfl, rfl, rfl⟩

theorem Makes.listedRules (h : Makes t rs e e') (c : Nat) : e'.listedRules c = e.listedRules c := by
  obtain ⟨reflected, rfl⟩ := h.same
  rfl

theorem Makes.configuration (h : Makes t rs e e') (c : Nat) :
    e'.configuration c = e.configuration c := by
  obtain ⟨reflected, rfl⟩ := h.same
  rfl

/-- Everything that is gathered for a build: rules that are registered once more, what is made for
members, the rules of the builders, and carriers of the value providers. -/
def whole (c : Nat) (e : Engine) (again : List Rule) (xss : List (List Rule))
    (providers : List Rule) : List Rule :=
  again ++ xss.flatten ++ (e.listedRules c).map (e.configuration c).complete ++ providers

/-- What is gathered has been made for the build, or waits with a builder. -/
theorem mem_whole {again providers : List Rule} {xss : List (List Rule)} {x : Rule} :
    x ∈ whole c e again xss providers ↔ x ∈ again ++ xss.flatten ++ providers ∨
      ∃ y ∈ e.listedRules c, x = (e.configuration c).complete y := by
  unfold whole
  simp only [List.mem_append, List.mem_map]
  constructor
  · rintro ((hx | ⟨y, hy, rfl⟩) | hx)
    · exact .inl (.inl hx)
    · exact .inr ⟨y, hy, rfl⟩
    · exact .inl (.inr hx)
  · rintro ((hx | hx) | ⟨y, hy, rfl⟩)
    · exact .inl (.inl hx)
    · exact .inr hx
    · exact .inl (.inr ⟨y, hy, rfl⟩)

/-- What is gathered for a build: copies of the registered checks, if settings for all rules have
changed; what is made for members; and carriers of the value providers.  The rules of the builders
come in front of these.  What is made has consecutive numbers. -/
structure Gathered (c : Nat) (again : List Rule) (xss : List (List Rule)) (providers : List Rule)
    (e mid : Engine) : Prop where
  copies : List.Forall₂ Rule.IsCopy (if (e.configuration c).settingsChanged then
    ((e.registry.rulesOf (e.configuration c).type).filter Rule.hasCheck).map
      (e.configuration c).complete else []) again
  made : List.Forall₂ (PendingRule.Made (e.configuration c) e) (e.configuration c).pending xss
  carriers : List.Forall₂ (fun p x => x.member = p.1 ∧ x.IsOwn ∧ x.hasCheck = false)
    (e.configuration c).providers providers
  ids : (again ++ xss.flatten ++ providers).map Rule.id =
    List.range' e.nextId (again ++ xss.flatten ++ providers).length
  nextId : mid.nextId = e.nextId + (again ++ xss.flatten ++ providers).length
  sheds : e.Sheds mid
  registry : ∀ t k, mid.registry.rulesOfMember t k = e.registry.rulesOfMember t k
  members : ∀ t, (mid.registry.allGroups t).map (fun g => g.member.key) =
    (e.registry.allGroups t).map fun g => g.member.key

end Engine

namespace Action

open Engine

variable {c : Nat} {e mid : Engine} {rs : List Rule}

theorem recompleted_eq_ok {cfg : Configuration} {again : List Rule}
    (h : recompleted cfg e = (.ok again, mid)) : Makes cfg.type again e mid ∧
      List.Forall₂ Rule.IsCopy
        (((e.registry.rulesOf cfg.type).filter Rule.hasCheck).map cfg.complete) again := by
  unfold recompleted at h
  rw [bind_ok (get_apply e)] at h
  obtain ⟨hmakes, hcopied⟩ := mapM_makes (t := cfg.type) (f := copied) (fun x => [x])
    (fun r _ _ e₁ x e₂ _ hx => copied_eq_ok hx) h
  rw [List.flatMap_singleton'] at hmakes
  exact ⟨hmakes, hcopied⟩

theorem providerRules_eq_ok {cfg : Configuration} {providers : List Rule}
    (h : cfg.providers.mapM (providerRule cfg) e = (.ok providers, mid)) :
    Makes cfg.type providers e mid ∧
      List.Forall₂ (fun p x => x.member = p.1 ∧ x.IsOwn ∧ x.hasCheck = false)
        cfg.providers providers := by
  obtain ⟨hmakes, hcarried⟩ := mapM_makes (t := cfg.type) (fun x => [x])
    (Q := fun p x => x.member = p.1 ∧ x.IsOwn ∧ x.hasCheck = false) (fun p _ _ e₁ x e₂ _ hx => by
      obtain ⟨carrier, e₃, hcarrier, hx⟩ := bind_eq_ok.mp hx
      obtain ⟨hmakes, hmember, hown, hcheck, -⟩ := newCarrier_eq_ok hcarrier
      cases hx
      exact ⟨⟨hmakes.same, hmakes.ids, hmakes.displayed, hmakes.reflects⟩, hmember, hown, hcheck⟩) h
  rw [List.flatMap_singleton'] at hmakes
  exact ⟨hmakes, hcarried⟩

/-- What is new is gathered behind what is registered once more. -/
theorem gatherAfter_eq_ok {e₁ : Engine} {again : List Rule} (hnumbered : e.Numbered)
    (hbefore : Makes (e.configuration c).type again e e₁)
    (hagain : List.Forall₂ Rule.IsCopy (if (e.configuration c).settingsChanged then
      ((e.registry.rulesOf (e.configuration c).type).filter Rule.hasCheck).map
        (e.configuration c).complete else []) again)
    (h : gatherAfter (e.configuration c) again e₁ = (.ok rs, mid)) :
    ∃ xss providers, rs = whole c e again xss providers ∧
      e.Gathered c again xss providers mid := by
  have hfaithful := hnumbered.faithful
  obtain ⟨xss, e₂, hxss, h⟩ := bind_eq_ok.mp h
  obtain ⟨built, e₃, hbuilt, h⟩ := bind_eq_ok.mp h
  obtain ⟨providers, e₄, hproviders, h⟩ := bind_eq_ok.mp h
  cases h
  obtain ⟨hmakes, hmade⟩ := mapM_makes (t := (e.configuration c).type) id
    (Q := PendingRule.Made (e.configuration c) e) (fun p _ rs₀ e' xs e'' hmakes hxs => by
      have hall := hbefore.append hmakes
      obtain ⟨hmakes', hmade⟩ := pendingRules_eq_ok (hall.displayed hfaithful).1 hxs
      exact ⟨hmakes', PendingRule.Made.of_makes hfaithful hmade hall⟩) hxss
  have hall := hbefore.append hmakes
  rw [List.flatMap_id] at hall
  -- The rules of builders are completed in between, which gives out no number.
  rw [← hall.configuration, builderRules_apply (hnumbered.sheds hall.sheds), hall.configuration,
    hall.listedRules] at hbuilt
  cases hbuilt
  obtain ⟨hmakes', hcarried⟩ := providerRules_eq_ok hproviders
  refine ⟨xss, providers, rfl, hagain, hmade, hcarried, ?_, ?_, ?_, fun t k => ?_, fun t => ?_⟩
  · rw [List.map_append, hall.ids, hmakes'.ids, amendAll_nextId, hall.nextId, List.range'_append_1,
      ← List.length_append]
  · rw [hmakes'.nextId, amendAll_nextId, hall.nextId, Nat.add_assoc, ← List.length_append]
  · have hcompleted := sheds_amendAll (f := (e.configuration c).complete) (fun _ => rfl)
      (e.listedRules c) e₂
    exact (hall.sheds.trans hcompleted).trans hmakes'.sheds
  · rw [hmakes'.registry, rulesOfMember_amendAll, hall.registry]
    intro r hr x hx hid
    rw [hall.registry] at hx
    exact hnumbered.listedRules_waiting hr hx (.inl hid)
  · rw [hmakes'.registry, members_amendAll, hall.registry]

/-- **What is gathered for a build**, whenever it can be. -/
theorem gather_eq_ok (hnumbered : e.Numbered)
    (h : gather (e.configuration c) e = (.ok rs, mid)) :
    ∃ again xss providers, rs = whole c e again xss providers ∧
      e.Gathered c again xss providers mid := by
  rw [gather_eq] at h
  cases hidle : (e.configuration c).isIdle with
  | true =>
    rw [hidle] at h
    cases h
    simp only [Configuration.isIdle, Bool.and_eq_true, List.isEmpty_iff, Bool.not_eq_true'] at hidle
    obtain ⟨⟨⟨hpending, hbuilders⟩, hproviders⟩, hsettings⟩ := hidle
    refine ⟨[], [], [], ?_, ?_⟩
    · simp [whole, listedRules, hbuilders]
    · exact ⟨by simp [hsettings], by simp [hpending], by simp [hproviders], rfl, rfl, sheds_refl e,
        fun _ _ => rfl, fun _ => rfl⟩
  | false =>
    simp only [hidle, Bool.false_eq_true, if_false] at h
    cases hsettings : (e.configuration c).settingsChanged with
    | true =>
      simp only [hsettings, if_true] at h
      obtain ⟨again, e₁, hagain, h⟩ := bind_eq_ok.mp h
      obtain ⟨hmakes, hcopied⟩ := recompleted_eq_ok hagain
      obtain ⟨xss, providers, hrs, hgathered⟩ :=
        gatherAfter_eq_ok hnumbered hmakes (by rw [hsettings]; exact hcopied) h
      exact ⟨again, xss, providers, hrs, hgathered⟩
    | false =>
      simp only [hsettings, Bool.false_eq_true, if_false] at h
      obtain ⟨xss, providers, hrs, hgathered⟩ :=
        gatherAfter_eq_ok hnumbered (.refl _ e) (by simp [hsettings]) h
      exact ⟨[], xss, providers, hrs, hgathered⟩

end Action

/-! ## 7. The numbers of what is gathered -/

/-- What is made for a member takes the place of a registered rule of the member, or has its own
number in its key. -/
theorem PendingRule.Made.cases_of_mem {cfg : Configuration} {e : Engine} {p : PendingRule}
    {x : Rule} {xs : List Rule} (h : p.Made cfg e xs) (hkeyed : e.Keyed) (hx : x ∈ xs) :
    (∃ r ∈ e.registry.rulesOfMember cfg.type x.member.key, x.place = r.place) ∨ x.IsOwn := by
  by_cases hchecks : p.checks = []
  · obtain ⟨copies, carrier, rfl, hcopies, -, hown, -⟩ := h.copies hchecks
    rcases List.mem_append.mp hx with hx | hx
    · obtain ⟨y, hy, hcopy⟩ := exists_of_mem_forall₂ hcopies hx
      obtain ⟨r, hr, rfl⟩ := List.mem_map.mp hy
      have hplace : x.place = r.place := hcopy.place
      have hthere := (Registry.mem_declaredAt.mp hr).1
      rw [← hkeyed.registry.home _ _ r hthere, ← Rule.member_of_place hplace] at hthere
      exact .inl ⟨r, hthere, hplace⟩
    · exact .inr (List.mem_singleton.mp hx ▸ hown)
  · obtain ⟨-, hmade⟩ := h.checks hchecks
    obtain ⟨k, -, hk⟩ := exists_of_mem_forall₂ hmade hx
    exact .inr (by rw [hk]; rfl)

namespace Engine

variable {c : Nat} {e mid : Engine} {again providers : List Rule} {xss : List (List Rule)} {x : Rule}

namespace Gathered

theorem bounds (h : e.Gathered c again xss providers mid)
    (hx : x ∈ again ++ xss.flatten ++ providers) : e.nextId ≤ x.id ∧ x.id < mid.nextId := by
  have hmem : x.id ∈ List.range' e.nextId (again ++ xss.flatten ++ providers).length :=
    h.ids ▸ List.mem_map_of_mem hx
  rw [List.mem_range'_1, ← h.nextId] at hmem
  exact hmem

/-- What is gathered takes the place of a registered rule or has its own number in its key. -/
theorem cases_of_mem (h : e.Gathered c again xss providers mid) (hkeyed : e.Keyed)
    (hx : x ∈ again ++ xss.flatten ++ providers) :
    (∃ r ∈ e.registry.rulesOfMember (e.configuration c).type x.member.key, x.place = r.place) ∨
      x.IsOwn := by
  rcases List.mem_append.mp hx with hx | hx
  · rcases List.mem_append.mp hx with hx | hx
    · obtain ⟨y, hy, hcopy⟩ := exists_of_mem_forall₂ h.copies hx
      split at hy
      · obtain ⟨r, hr, rfl⟩ := List.mem_map.mp hy
        have hplace : x.place = r.place := hcopy.place
        have hthere := hkeyed.registry.mem_rulesOfMember (List.mem_filter.mp hr).1
        rw [← Rule.member_of_place hplace] at hthere
        exact .inl ⟨r, hthere, hplace⟩
      · cases hy
    · obtain ⟨xs, hxs, hx⟩ := List.mem_flatten.mp hx
      obtain ⟨p, -, hmade⟩ := exists_of_mem_forall₂ h.made hxs
      exact hmade.cases_of_mem hkeyed hx
  · obtain ⟨p, -, -, hown, -⟩ := exists_of_mem_forall₂ h.carriers hx
    exact .inr hown

/-- A number of what is gathered is new, or that of a registered rule. -/
theorem uses (h : e.Gathered c again xss providers mid) (hkeyed : e.Keyed) {n : Nat}
    (hx : x ∈ again ++ xss.flatten ++ providers) (hn : x.Uses n) :
    e.nextId ≤ n ∧ n < mid.nextId ∨ ∃ t k, ∃ r ∈ e.registry.rulesOfMember t k, r.Uses n := by
  have hbounds := h.bounds hx
  rcases hn with rfl | hn
  · exact .inl hbounds
  · rcases h.cases_of_mem hkeyed hx with ⟨r, hr, hplace⟩ | hown
    · rw [Rule.uniqueKey_of_place hplace] at hn
      exact .inr ⟨_, _, r, hr, .inr hn⟩
    · obtain rfl := hown.uses_iff.mp (.inr hn)
      exact .inl hbounds

end Gathered

/-- **The numbers of what is gathered** have been given out, and none is that of a rule which a
builder of another configuration waits with. -/
theorem Gathered.waiting (h : e.Gathered c again xss providers mid) (hkeyed : e.Keyed)
    (hnumbered : e.Numbered) (hx : x ∈ whole c e again xss providers) :
    (∀ n, x.Uses n → n < mid.nextId) ∧
      ∀ c' ≠ c, ∀ b ∈ (e.configuration c').builders, ∀ r ∈ (e.builder b).rules, ¬ x.Uses r.id := by
  have hids := h.sheds.ids
  rcases mem_whole.mp hx with hx | ⟨y, hy, rfl⟩
  · constructor
    · intro n hn
      rcases h.uses hkeyed hx hn with ⟨-, hlt⟩ | ⟨t, k, r, hr, hn⟩
      · exact hlt
      · exact (hnumbered.registered t k r hr n hn).trans_le hids
    · intro c' _ b hb r hr hn
      rcases h.uses hkeyed hx hn with ⟨hle, -⟩ | ⟨t, k, r', hr', hn⟩
      · exact absurd (hnumbered.held b r hr).2 (by omega)
      · exact hnumbered.waiting c' b hb r hr t k r' hr' hn
  · obtain ⟨b', hb', hy⟩ := mem_listedRules.mp hy
    obtain ⟨hown, hlt⟩ := hnumbered.held b' y hy
    have huses : ∀ n, ((e.configuration c).complete y).Uses n ↔ y.id = n := fun n => by
      rw [← hown.uses_iff]
      exact Rule.uses_of_tag rfl
    constructor
    · intro n hn
      obtain rfl := (huses n).mp hn
      exact hlt.trans_le hids
    · intro c' hc b hb r hr hn
      have hne : b' ≠ b := fun heq => by
        have howner := (hnumbered.owned c' b hb).2
        rw [← heq, (hnumbered.owned c b' hb').2] at howner
        exact hc howner.symm
      exact hnumbered.apart b' b hne y hy r hr ((huses _).mp hn)

end Engine
end MemberRules
