/-
# Dropping rules of a member

A step on a type drops the rules of a member whose check is of a kind, or all of them: those that are
registered, those that have been gathered for the member, and those that its builders hold.  It is
meant to spare the rest.  The rules that are left, of this member and of the others, should come to
stand as they do otherwise when the type is built.

What was gathered for a member can lose all its checks.  Then it is left behind as a block without
checks, which building takes for one for the declared rules of the member.  So the gate of a check
that has been dropped can come to be that of a declared rule.

* `Rule.stays`, `Engine.Drops`, `Action.dropMember_apply`: what dropping leaves.
* `Engine.Drops.checksToCome`: what comes to stand without the rules that were dropped.
* `dropMember_spares_rest_iff`: when the rest is spared.
* `drop_changes_gate`: a declared rule that gets the gate of a check that was dropped.
-/
import MemberRules.Proofs.Declared.Blocks
import MemberRules.Proofs.Declared.Ordered

namespace MemberRules

open MemberRules.Computation

/-! ## 1. What stays -/

section Stays

variable (m : MemberRef) (kind : Option String)

/-- Whether a rule stays when the rules of a member are dropped whose check is of a kind, or all of
them. -/
def Rule.stays (r : Rule) : Bool := !(r.member.key == m.key && kind.all r.checkIsOfKind)

/-- What stays of what was gathered for a member. -/
def PendingRule.without (p : PendingRule) : PendingRule :=
  if p.member.key == m.key then
    { p with checks := p.checks.filter fun k => !Action.isDropped kind k.validator }
  else p

/-- What stays of a builder. -/
def Builder.without (b : Builder) : Builder :=
  if b.member.key == m.key then
    { b with rules := b.rules.filter fun r => !r.validator.all (Action.isDropped kind) }
  else b

/-- A configuration from which the rules of a member have been dropped. -/
def Configuration.without (cfg : Configuration) : Configuration :=
  { cfg with pending := cfg.gathered.map (PendingRule.without m kind), current := none }

end Stays

section

variable {m : MemberRef} {kind : Option String}

theorem Rule.stays_of_ne {r : Rule} (h : r.member.key ≠ m.key) : r.stays m kind = true := by
  simp [stays, h]

/-- Whether a check stays is decided by its kind. -/
theorem Rule.stays_of_validator {r : Rule} {a : Attribute} (hm : r.member.key = m.key)
    (ha : r.validator = some a) : r.stays m kind = !Action.isDropped kind a := by
  cases kind <;> simp [stays, hm, Action.isDropped, checkIsOfKind, check?, ha]

@[simp]
theorem PendingRule.without_member (p : PendingRule) : (p.without m kind).member = p.member := by
  unfold without
  split <;> rfl

/-- What a builder holds stays by the same rule. -/
theorem Builder.rules_without {b : Builder}
    (h : ∀ r ∈ b.rules, r.member = b.member ∧ r.hasCheck = true) :
    (b.without m kind).rules = b.rules.filter (Rule.stays m kind) := by
  unfold without
  by_cases hb : b.member.key = m.key
  · rw [if_pos (by simpa using hb)]
    refine List.filter_congr fun r hr => ?_
    obtain ⟨hmember, hcheck⟩ := h r hr
    obtain ⟨a, ha⟩ := Option.isSome_iff_exists.mp hcheck
    rw [Rule.stays_of_validator (by rw [hmember, hb]) ha, ha, Option.all_some]
  · rw [if_neg (by simpa using hb)]
    refine (List.filter_eq_self.mpr fun r hr => Rule.stays_of_ne ?_).symm
    rw [(h r hr).1]
    exact hb

end

/-- An engine in which rules of a member have been dropped since another one. -/
structure Engine.Drops (c : Nat) (m : MemberRef) (kind : Option String) (e e' : Engine) : Prop where
  world : e'.world = e.world
  reflected : e'.reflected = e.reflected
  length : e'.configurations.length = e.configurations.length
  configuration : e'.configuration c = (e.configuration c).without m kind
  registry : ∀ k, e'.registry.rulesOfMember (e.configuration c).type k =
    (e.registry.rulesOfMember (e.configuration c).type k).filter (Rule.stays m kind)
  members : e'.registry.membersOf (e.configuration c).type =
    e.registry.membersOf (e.configuration c).type
  listed : e'.listedRules c = (e.listedRules c).filter (Rule.stays m kind)

namespace Registry

variable {reg : Registry} {t : TypeId}

theorem membersOf_removeWhere (member : Option MemberKey) (doomed : Rule → Bool) :
    (reg.removeWhere t member doomed).membersOf t = reg.membersOf t := by
  unfold membersOf RuleGroup.members
  rw [allGroups_removeWhere, if_pos rfl, members_withoutDoomed]

/-- The rules of a member from a registry without some of them. -/
theorem rulesOfMember_without (h : reg.Keyed) (m : MemberRef) (kind : Option String)
    (k : MemberKey) :
    (reg.removeWhere t (some m.key) fun r => kind.all r.checkIsOfKind).rulesOfMember t k =
      (reg.rulesOfMember t k).filter (Rule.stays m kind) := by
  have hremoved : rulesAt k ((reg.removeWhere t (some m.key) fun r =>
      kind.all r.checkIsOfKind).allGroups t) = if (some m.key).all fun k' => k == k' then
        (reg.rulesOfMember t k).filter fun r => !kind.all r.checkIsOfKind
      else reg.rulesOfMember t k := by
    rw [allGroups_removeWhere, if_pos rfl]
    exact rulesAt_withoutDoomed _ _ _
  refine hremoved.trans ?_
  by_cases hk : k = m.key
  · rw [if_pos (by simp [hk])]
    refine List.filter_congr fun r hr => ?_
    have hhome := h.home t k r hr
    simp [Rule.stays, hhome, hk]
  · rw [if_neg (by simp [hk])]
    show reg.rulesOfMember t k = _
    refine (List.filter_eq_self.mpr fun r hr => Rule.stays_of_ne ?_).symm
    rw [h.home t k r hr]
    exact hk

end Registry

/-! ## 2. Dropping -/

namespace Engine

variable {e : Engine} {b c : Nat} {bs : List Nat} {f : Builder → Builder}

/-- An engine in which several builders have been changed, one after the other. -/
def updateBuilders (bs : List Nat) (f : Builder → Builder) (e : Engine) : Engine :=
  bs.foldl (fun e b => e.updateBuilder b f) e

theorem updateBuilders_eq (bs : List Nat) (f : Builder → Builder) (e : Engine) :
    ∃ builders, e.updateBuilders bs f = { e with builders } ∧
      builders.length = e.builders.length := by
  induction bs generalizing e with
  | nil => exact ⟨_, rfl, rfl⟩
  | cons b bs ih =>
    obtain ⟨builders, heq, hlength⟩ := ih (e.updateBuilder b f)
    exact ⟨builders, heq, by simpa [updateBuilder] using hlength⟩

theorem builder_updateBuilders (hbs : bs.Nodup) (hthere : ∀ b ∈ bs, b < e.builders.length)
    (b' : Nat) : (e.updateBuilders bs f).builder b' =
      if b' ∈ bs then f (e.builder b') else e.builder b' := by
  induction bs generalizing e with
  | nil => rfl
  | cons b bs ih =>
    obtain ⟨hb, hrest⟩ := List.nodup_cons.mp hbs
    obtain ⟨hlt, hthere⟩ := List.forall_mem_cons.mp hthere
    have hafter := ih (e := e.updateBuilder b f) hrest (by simpa [updateBuilder] using hthere)
    refine hafter.trans ?_
    rw [builder_updateBuilder]
    by_cases heq : b = b'
    · subst heq
      simp [hb, hlt]
    · simp [heq, Ne.symm heq]

end Engine

namespace Action

open Engine

variable {e : Engine} {c : Nat} {sel : Selector} {m : MemberRef}

/-- Removing rules changes nothing but the registry, and what has been noted. -/
theorem removeRules_leaves (t : TypeId) (member : Option MemberRef) (doomed : Rule → Bool)
    (e : Engine) : ∃ n e', removeRules t member doomed e = (.ok n, e') ∧
      e'.registry = e.registry.removeWhere t (member.map MemberRef.key) doomed ∧
      SameWork { e with registry := e'.registry } e' ∧ e'.world = e.world ∧
      e'.reflected = e.reflected := by
  have hnote : ∀ (n : Nat) (e : Engine), ∃ lookups,
      noteRemoved t member n e = (.ok (), { e with lookups }) := fun n e => by
    unfold noteRemoved
    split <;> exact ⟨_, rfl⟩
  have hupdate : updateRegistry
      (fun reg => reg.removeWhere t (member.map MemberRef.key) doomed) e = (.ok (),
        { e with registry := e.registry.removeWhere t (member.map MemberRef.key) doomed }) := rfl
  obtain ⟨lookups, hnoted⟩ := hnote (e.registry.countWhere t (member.map MemberRef.key) doomed)
    { e with registry := e.registry.removeWhere t (member.map MemberRef.key) doomed }
  refine ⟨e.registry.countWhere t (member.map MemberRef.key) doomed,
    { e with registry := e.registry.removeWhere t (member.map MemberRef.key) doomed, lookups }, ?_,
    rfl, ⟨rfl, rfl, rfl⟩, rfl, rfl⟩
  unfold removeRules
  rw [bind_ok (get_apply e), bind_ok hupdate, bind_ok hnoted]
  rfl

theorem forM_updateBuilder_apply (bs : List Nat) (f : Builder → Builder) (e : Engine) :
    bs.forM (fun b => (modify (Engine.updateBuilder b f) : Action Unit)) e =
      (.ok (), e.updateBuilders bs f) := by
  induction bs generalizing e with
  | nil => rfl
  | cons b bs ih => exact (bind_ok (modify_apply _ e)).trans (ih (e.updateBuilder b f))

/-- Once the registered rules have been removed, the configuration and its builders are left without
the rules of the member as well. -/
theorem drops_of_removed {e₁ e₂ : Engine} (he : e.Tidy) (hc : c < e.configurations.length)
    (he₁ : ((e.touched c).committed c).touched c = e₁) {kind : Option String}
    (hregistry : e₂.registry = e₁.registry.removeWhere (e.configuration c).type (some m.key)
      fun r => kind.all r.checkIsOfKind)
    (hsame : SameWork { e₁ with registry := e₂.registry } e₂) (hworld : e₂.world = e₁.world)
    (hreflected : e₂.reflected = e₁.reflected) :
    e.Drops c m kind ((e₂.updateConfiguration c fun cfg =>
      { cfg with pending := cfg.pending.map (PendingRule.without m kind) }).updateBuilders
        (e.configuration c).builders (Builder.without m kind)) := by
  let drop : Configuration → Configuration := fun cfg =>
    { cfg with pending := cfg.pending.map (PendingRule.without m kind) }
  -- The last step changes builders only, and the one before it the configuration.
  have hbuilder : ∀ b ∈ (e.configuration c).builders, ((e₂.updateConfiguration c drop).updateBuilders
      (e.configuration c).builders (Builder.without m kind)).builder b =
        (e.builder b).without m kind := by
    intro b hb
    have hthere : ∀ b ∈ (e.configuration c).builders,
        b < (e₂.updateConfiguration c drop).builders.length := by
      intro b hb
      show b < e₂.builders.length
      rw [hsame.builders, ← he₁]
      exact (he.numbered.owned c b hb).1
    rw [builder_updateBuilders (he.numbered.listed c) hthere, if_pos hb]
    show (e₂.builder b).without m kind = _
    rw [hsame.builder, ← he₁]
    rfl
  obtain ⟨builders, hupdated, -⟩ := updateBuilders_eq (e.configuration c).builders
    (Builder.without m kind) (e₂.updateConfiguration c drop)
  rw [hupdated] at hbuilder ⊢
  have hlength : e₂.configurations.length = e.configurations.length := by
    rw [hsame.configurations, ← he₁]
    exact List.length_modify ..
  have hdropped : (e₂.updateConfiguration c drop).configuration c =
      (e.configuration c).without m kind := by
    rw [configuration_updateConfiguration_self (hlength ▸ hc), hsame.configuration]
    show drop (e₁.configuration c) = _
    rw [← he₁]
    exact congrArg drop (configuration_committed hc)
  subst he₁
  refine ⟨hworld, hreflected, (List.length_modify ..).trans hlength, hdropped, fun k => ?_, ?_, ?_⟩
  · show e₂.registry.rulesOfMember _ k = _
    rw [hregistry]
    exact Registry.rulesOfMember_without ((he.keyed.registry.mark _ _).mark _ _) m kind k
  · show e₂.registry.membersOf _ = _
    rw [hregistry]
    exact Registry.membersOf_removeWhere _ _
  · unfold listedRules
    have hlisting : ∀ builders, ({ e₂.updateConfiguration c drop with builders } :
        Engine).configuration c = (e.configuration c).without m kind := fun _ => hdropped
    rw [hlisting, List.filter_flatMap]
    refine List.flatMap_congr fun b hb => ?_
    rw [hbuilder b hb, Builder.rules_without (he.numbered.home b)]

/-- **Dropping rules of a member** can be done if what was started last can be put away. -/
theorem dropMember_apply (he : e.Tidy) (hc : c < e.configurations.length)
    (hput : (commit c e).1 = .ok ())
    (hselects : e.world.schema.select (e.configuration c).type (sel.captured e.world) = .ok m)
    (kind : Option String) :
    ∃ e', dropMember c sel kind e = (.ok (), e') ∧ e.Drops c m kind e' := by
  obtain ⟨e₁, he₁⟩ : ∃ e₁, ((e.touched c).committed c).touched c = e₁ := ⟨_, rfl⟩
  have hcfg : e₁.configuration c =
      { e.configuration c with pending := (e.configuration c).gathered, current := none } := by
    rw [← he₁]
    exact configuration_committed hc
  have htype : (e₁.configuration c).type = (e.configuration c).type := by rw [hcfg]
  have hlisted : (e₁.configuration c).builders = (e.configuration c).builders := by rw [hcfg]
  obtain ⟨n, e₂, hremove, hregistry, hsame, hworld, hreflected⟩ := removeRules_leaves
    (e.configuration c).type (some m) (fun r => kind.all r.checkIsOfKind) e₁
  refine ⟨_, ?_, drops_of_removed he hc he₁ hregistry hsame hworld hreflected⟩
  unfold dropMember
  rw [bind_ok (begin_apply hput hselects), bind_ok (touch_apply _), he₁, configuration_bind,
    htype, bind_ok hremove, hlisted]
  exact forM_updateBuilder_apply _ _ (e₂.updateConfiguration c _)

end Action

/-! ## 3. What comes to stand without the rules that were dropped -/

namespace Rule

variable {m : MemberRef} {kind : Option String} {r r' : Rule}

theorem stays_of_place (h : r'.place = r.place) : r'.stays m kind = r.stays m kind := by
  unfold stays checkIsOfKind check?
  rw [member_of_place h, validator_of_place h]

@[simp]
theorem stays_look (r : Rule) : r.look.stays m kind = r.stays m kind := rfl

end Rule

theorem Configuration.renewed_place (cfg : Configuration) (block : Option PendingRule) (r : Rule) :
    (cfg.renewed block r).place = r.place := by
  unfold renewed refreshed
  split
  · rfl
  · split <;> rfl

/-- Nothing is dropped from a block. -/
theorem PendingRule.without_of_isFor {p : PendingRule} {m : MemberRef}
    {kind : Option String} {k : MemberKey} (h : p.isFor k = true) :
    p.without m kind = p := by
  obtain ⟨hchecks, -⟩ : p.checks = [] ∧ p.member.key = k := by simpa [PendingRule.isFor] using h
  unfold PendingRule.without
  split
  · cases p
    simp_all
  · rfl

namespace Configuration

variable {cfg : Configuration} {m : MemberRef} {kind : Option String} {k : MemberKey}

theorem gathered_without :
    (cfg.without m kind).gathered = cfg.gathered.map (PendingRule.without m kind) :=
  List.append_nil _

/-- The last block for a member is the same if no other block comes to be one. -/
theorem lastBlock_without (h : ∀ p ∈ cfg.gathered, (p.without m kind).isFor k = p.isFor k) :
    (cfg.without m kind).lastBlock k = cfg.lastBlock k := by
  have hfilter : cfg.gathered.filter (PendingRule.isFor k ∘ PendingRule.without m kind) =
      cfg.gathered.filter (PendingRule.isFor k) := List.filter_congr h
  have hmap : (cfg.gathered.filter (PendingRule.isFor k)).map (PendingRule.without m kind) =
      cfg.gathered.filter (PendingRule.isFor k) := by
    refine (List.map_congr_left fun p hp => ?_).trans (List.map_id _)
    exact PendingRule.without_of_isFor (List.mem_filter.mp hp).2
  unfold lastBlock
  rw [gathered_without, List.filter_map, hfilter, hmap]

/-- So it is for another member. -/
theorem lastBlock_without_of_ne (hk : k ≠ m.key) :
    (cfg.without m kind).lastBlock k = cfg.lastBlock k := by
  refine lastBlock_without fun p _ => ?_
  by_cases hp : p.member.key = k
  · have hsame : p.without m kind = p := if_neg (by simpa [hp] using hk)
    rw [hsame]
  · simp [PendingRule.isFor, beq_eq_false_iff_ne.mpr hp]

end Configuration

namespace Engine

variable {c : Nat} {m : MemberRef} {kind : Option String} {e e' : Engine} {k : MemberKey}

/-- What comes to stand of a member is about this member. -/
theorem member_of_mem_checksToCome (he : e.Keyed) {block : Option PendingRule} {x : Rule}
    (hx : x ∈ e.checksToCome c k block) : x.member.key = k := by
  unfold checksToCome newChecks at hx
  simp only [List.mem_append, List.mem_map, List.mem_flatMap, List.mem_filter] at hx
  rcases hx with ⟨r, hr, rfl⟩ | ⟨p, ⟨-, hp⟩, check, -, rfl⟩ | ⟨r, ⟨-, hr⟩, rfl⟩
  · have hplace := (e.configuration c).renewed_place block r
    show ((e.configuration c).renewed block r).member.key = k
    rw [Rule.member_of_place hplace]
    exact he.registry.home _ _ r (Registry.mem_checksAt.mp hr).1
  · exact beq_iff_eq.mp hp
  · exact beq_iff_eq.mp hr

/-- Whether anything comes to stand does not depend on the block. -/
theorem isEmpty_checksToCome (block : Option PendingRule) :
    (e.checksToCome c k block).isEmpty = (e.checksToCome c k none).isEmpty := by
  unfold checksToCome
  dsimp only
  rw [Bool.eq_iff_iff]
  simp only [List.isEmpty_iff, List.append_eq_nil_iff, List.map_eq_nil_iff]

/-- Those of what comes to stand that stay. -/
theorem filter_checksToCome (block : Option PendingRule) :
    (e.checksToCome c k block).filter (Rule.stays m kind) =
      (((e.registry.checksAt (e.configuration c).type k).filter (Rule.stays m kind)).map fun r =>
        ((e.configuration c).renewed block r).look) ++
        (e.newChecks c k).filter (Rule.stays m kind) := by
  unfold checksToCome
  dsimp only
  rw [List.filter_append, List.filter_map]
  refine congrArg (· ++ _) (congrArg (List.map _) (List.filter_congr fun r _ => ?_))
  have hplace := (e.configuration c).renewed_place block r
  exact (Rule.stays_look _).trans (Rule.stays_of_place hplace)

theorem Drops.type (h : e.Drops c m kind e') :
    (e'.configuration c).type = (e.configuration c).type := by
  rw [h.configuration]
  rfl

/-- What stays of what was gathered for a member are the rules that stay. -/
theorem checkRules_without (cfg : Configuration) (display : String) (p : PendingRule) :
    ((p.without m kind).checks.map fun x => (p.without m kind).checkRule cfg display x 0) =
      (p.checks.map fun x => p.checkRule cfg display x 0).filter (Rule.stays m kind) := by
  have hrule : ∀ x, (p.without m kind).checkRule cfg display x 0 = p.checkRule cfg display x 0 :=
    fun x => by
      unfold PendingRule.without
      split <;> rfl
  simp only [hrule]
  unfold PendingRule.without
  by_cases hm : p.member.key = m.key
  · rw [if_pos (by simpa using hm), List.filter_map]
    refine congrArg (List.map _) (List.filter_congr fun x _ => ?_)
    exact (Rule.stays_of_validator (r := p.checkRule cfg display x 0) hm rfl).symm
  · rw [if_neg (by simpa using hm)]
    refine (List.filter_eq_self.mpr fun x hx => ?_).symm
    obtain ⟨check, -, rfl⟩ := List.mem_map.mp hx
    exact Rule.stays_of_ne hm

/-- The new checks that stay. -/
theorem Drops.newChecks (h : e.Drops c m kind e') (k : MemberKey) :
    e'.newChecks c k = (e.newChecks c k).filter (Rule.stays m kind) := by
  have hdisplayed : e'.displayed = e.displayed := by
    funext t name
    unfold displayed
    rw [h.world, h.reflected]
  have hkey : ((fun p : PendingRule => p.member.key == k) ∘ PendingRule.without m kind) =
      fun p => p.member.key == k := by
    funext p
    simp
  unfold Engine.newChecks
  dsimp only
  rw [h.configuration, Configuration.gathered_without, h.listed, hdisplayed, List.filter_append,
    List.filter_map, hkey, List.flatMap_map, List.filter_flatMap, List.filter_map]
  refine congrArg₂ (· ++ ·) (List.flatMap_congr fun p _ => ?_) ?_
  · rw [PendingRule.without_member]
    exact checkRules_without _ _ p
  · exact congrArg (List.map _) (List.filter_comm _ _ _)

/-- **What comes to stand after rules have been dropped** is what stays of it. -/
theorem Drops.checksToCome (h : e.Drops c m kind e') (k : MemberKey) (block : Option PendingRule) :
    e'.checksToCome c k block = (e.checksToCome c k block).filter (Rule.stays m kind) := by
  have hchecks : e'.registry.checksAt (e.configuration c).type k =
      (e.registry.checksAt (e.configuration c).type k).filter (Rule.stays m kind) := by
    unfold Registry.checksAt
    rw [h.registry, List.filter_comm]
  rw [filter_checksToCome, ← h.newChecks, ← hchecks]
  unfold Engine.checksToCome
  dsimp only
  rw [h.type, h.configuration]
  rfl

end Engine

/-! ## 4. Dropping and building -/

namespace Engine

theorem CanReflect.of_same {e e' : Engine} {t : TypeId} (h : e.CanReflect t)
    (hworld : e'.world = e.world) (hreflected : e'.reflected = e.reflected) : e'.CanReflect t := by
  obtain ⟨ms, hms⟩ := h
  have hread : ∀ e : Engine, (Action.members t e).1 = (e.world.schema.reflect t e.reflected).1 :=
    fun _ => rfl
  refine ⟨ms, ?_⟩
  rw [hread, hworld, hreflected, ← hread]
  exact hms

/-- Whether the checks of a type are those that it has otherwise, without the rules of a member that
have been dropped: in the same order, and the same but for their numbers. -/
def SparesRest (t : TypeId) (m : MemberRef) (kind : Option String) (e₁ e₂ : Engine) : Prop :=
  (e₂.registry.checksOf t).map Rule.look =
    ((e₁.registry.checksOf t).filter (Rule.stays m kind)).map Rule.look

/-- Whether the last block for a member sets for its rules that stay what the last one sets before the
others have been dropped. -/
def BlockStays (c : Nat) (m : MemberRef) (kind : Option String) (e : Engine) : Prop :=
  ∀ r ∈ e.registry.checksAt (e.configuration c).type m.key, r.stays m kind = true →
    ((e.configuration c).renewed (((e.configuration c).without m kind).lastBlock m.key) r).look =
      ((e.configuration c).renewed ((e.configuration c).lastBlock m.key) r).look

/-- The members that come to have a check, in the order in which they are given. -/
def checkedMembers (c : Nat) (e : Engine) (ks : List MemberKey) : List MemberKey :=
  ks.filter fun k => !(e.checksToCome c k none).isEmpty

/-- Whether the members that are left with checks come in the same order when rules have been
dropped. -/
def OrderStays (c : Nat) (e e' : Engine) : Prop :=
  e'.checkedMembers c (e'.membersToCome c) = e'.checkedMembers c (e.membersToCome c)

variable {c : Nat} {m : MemberRef} {kind : Option String} {e e' e₁ e₂ : Engine} {k : MemberKey}
variable {out out' : List Rule}

namespace Drops

/-- The members for which something has been gathered are the same but for builders. -/
theorem membersToCome (h : e.Drops c m kind e') : e'.membersToCome c =
    ((e.configuration c).gathered.map (fun p => p.member.key) ++
      ((e.listedRules c).filter (Rule.stays m kind)).map (fun r => r.member.key) ++
      (e.configuration c).providers.map fun p => p.1.key).foldl enlist
        (e.registry.membersOf (e.configuration c).type) := by
  have hgathered : (e'.configuration c).gathered.map (fun p => p.member.key) =
      (e.configuration c).gathered.map fun p => p.member.key := by
    rw [h.configuration, Configuration.gathered_without, List.map_map]
    exact List.map_congr_left fun p _ => by simp
  have hproviders : (e'.configuration c).providers = (e.configuration c).providers := by
    rw [h.configuration]
    rfl
  unfold Engine.membersToCome
  dsimp only
  rw [h.type, hgathered, hproviders, h.members, h.listed]

/-- A member that has been registered or started before keeps its place. -/
theorem orderStays (h : e.Drops c m kind e')
    (hm : m.key ∈ e.registry.membersOf (e.configuration c).type ∨
      ∃ p ∈ (e.configuration c).gathered, p.member.key = m.key) : e.OrderStays c e' := by
  have hthere : m.key ∈ ((e.configuration c).gathered.map fun p => p.member.key).foldl enlist
      (e.registry.membersOf (e.configuration c).type) :=
    mem_foldl_enlist.mpr (hm.imp_right fun ⟨p, hp, hkey⟩ => List.mem_map.mpr ⟨p, hp, hkey⟩)
  refine congrArg (e'.checkedMembers c) ?_
  rw [h.membersToCome]
  unfold Engine.membersToCome
  simp only [List.foldl_append]
  refine congrArg (List.foldl enlist · _) (foldl_enlist_filter _ fun r _ hleft => ?_)
  -- Only rules of the member do not stay.
  by_cases hr : r.member.key = m.key
  · rw [hr]
    exact hthere
  · rw [Rule.stays_of_ne hr] at hleft
    cases hleft

/-- A member that is left without checks has no place, and the others keep theirs. -/
theorem orderStays_of_none (h : e.Drops c m none e') (hkeyed : e.Keyed) : e.OrderStays c e' := by
  have hgone : e'.checksToCome c m.key none = [] := by
    rw [h.checksToCome]
    refine List.filter_eq_nil_iff.mpr fun x hx => ?_
    simp [Rule.stays, member_of_mem_checksToCome hkeyed hx]
  have hlisted : (((e.listedRules c).filter (Rule.stays m none)).map fun r =>
      r.member.key).filter (fun k => !(e'.checksToCome c k none).isEmpty) =
      ((e.listedRules c).map fun r => r.member.key).filter
        fun k => !(e'.checksToCome c k none).isEmpty := by
    rw [List.filter_map, List.filter_map, List.filter_filter]
    refine congrArg (List.map _) (List.filter_congr fun r _ => ?_)
    by_cases hr : r.member.key = m.key
    · simp [hr, hgone]
    · simp [Rule.stays_of_ne hr]
  unfold OrderStays checkedMembers
  rw [h.membersToCome]
  unfold Engine.membersToCome
  dsimp only
  rw [filter_foldl_enlist, filter_foldl_enlist]
  simp only [List.filter_append, hlisted]

end Drops

/-- No rule of the member stays if all of them are dropped. -/
theorem blockStays_of_none (hkeyed : e.Keyed) : e.BlockStays c m none := by
  intro r hr hstays
  have hhome := hkeyed.registry.home _ _ r (Registry.mem_checksAt.mp hr).1
  simp [Rule.stays, hhome] at hstays

/-- The last block stays if none loses all its checks. -/
theorem blockStays_of_checks_left (h : ∀ p ∈ (e.configuration c).gathered, p.member.key = m.key →
    p.checks ≠ [] → (p.without m kind).checks ≠ []) : e.BlockStays c m kind := by
  have hsame : ((e.configuration c).without m kind).lastBlock m.key =
      (e.configuration c).lastBlock m.key := by
    refine Configuration.lastBlock_without fun p hp => ?_
    by_cases hfor : p.isFor m.key = true
    · rw [PendingRule.without_of_isFor hfor]
    · simp only [PendingRule.isFor, Bool.and_eq_true, List.isEmpty_iff, beq_iff_eq,
        not_and] at hfor
      rw [Bool.eq_iff_iff]
      simp only [PendingRule.isFor, PendingRule.without_member, Bool.and_eq_true,
        List.isEmpty_iff, beq_iff_eq]
      constructor
      · rintro ⟨hchecks, hm⟩
        exact absurd hchecks (h p hp hm fun hnil => hfor hnil hm)
      · rintro ⟨hchecks, hm⟩
        exact absurd hm (hfor hchecks)
  intro r _ _
  rw [hsame]

/-- **Per member**: the checks after dropping and building are those that stay exactly if the block
stays. -/
theorem forall_checksToCome_iff : (∀ k, (e.checksToCome c k
      (((e.configuration c).without m kind).lastBlock k)).filter (Rule.stays m kind) =
    (e.checksToCome c k ((e.configuration c).lastBlock k)).filter (Rule.stays m kind)) ↔
      e.BlockStays c m kind := by
  have hblock : ∀ k, (e.checksToCome c k
        (((e.configuration c).without m kind).lastBlock k)).filter (Rule.stays m kind) =
      (e.checksToCome c k ((e.configuration c).lastBlock k)).filter (Rule.stays m kind) ↔
        ∀ r ∈ (e.registry.checksAt (e.configuration c).type k).filter (Rule.stays m kind),
          ((e.configuration c).renewed (((e.configuration c).without m kind).lastBlock k) r).look =
            ((e.configuration c).renewed ((e.configuration c).lastBlock k) r).look := fun k => by
    rw [filter_checksToCome, filter_checksToCome, List.append_left_inj, List.map_inj_left]
  simp only [hblock, List.mem_filter, and_imp]
  constructor
  · intro h
    exact h m.key
  · intro h k r hr hstays
    by_cases hk : k = m.key
    · subst hk
      exact h r hr hstays
    · rw [Configuration.lastBlock_without_of_ne hk]

namespace Drops

theorem length_lt (h : e.Drops c m kind e') (hc : c < e.configurations.length) :
    c < e'.configurations.length := h.length ▸ hc

/-- **A type can be built after rules have been dropped** if it can be built with them. -/
theorem build_ok (h : e.Drops c m kind e') (he : e.Tidy) (he' : e'.Tidy)
    (hc : c < e.configurations.length) (hbuild : Action.build c e = (.ok out, e₁)) :
    ∃ out' e₂, Action.build c e' = (.ok out', e₂) := by
  have hput : (Action.commit c e').1 = .ok () := Action.commit_ok_iff.mpr fun p hp => by
    rw [h.configuration] at hp
    cases hp
  have hreflect : (∃ p ∈ (e'.configuration c).gathered, p.checks ≠ []) →
      e'.CanReflect (e'.configuration c).type := by
    rintro ⟨p', hp', hchecks⟩
    rw [h.configuration, Configuration.gathered_without] at hp'
    obtain ⟨p, hp, rfl⟩ := List.mem_map.mp hp'
    have hbefore : p.checks ≠ [] := fun hnil => hchecks (by
      unfold PendingRule.without
      split
      · rw [hnil]
        rfl
      · exact hnil)
    have hread := Action.canReflect_of_build he hc hbuild hp hbefore
    rw [h.type]
    exact hread.of_same h.world h.reflected
  obtain ⟨out', e₂, hbuild', -⟩ := Action.build_declared he'.keyed (h.length_lt hc) hput hreflect
  exact ⟨out', e₂, hbuild'⟩

/-- **The checks of a member after both builds** are the same, but for those that were dropped,
exactly if the block stays. -/
theorem checksAt_iff (h : e.Drops c m kind e') (he : e.Tidy) (he' : e'.Tidy)
    (hc : c < e.configurations.length) (hbuild : Action.build c e = (.ok out, e₁))
    (hbuild' : Action.build c e' = (.ok out', e₂)) :
    (∀ k, (e₂.registry.checksAt (e.configuration c).type k).map Rule.look =
      ((e₁.registry.checksAt (e.configuration c).type k).filter (Rule.stays m kind)).map
        Rule.look) ↔ e.BlockStays c m kind := by
  rw [← forall_checksToCome_iff]
  refine forall_congr' fun k => ?_
  have hafter := Action.build_registers he' (h.length_lt hc) hbuild' k
  rw [h.type, h.checksToCome, h.configuration] at hafter
  have hbefore : ((e₁.registry.checksAt (e.configuration c).type k).filter
      (Rule.stays m kind)).map Rule.look =
        (e.checksToCome c k ((e.configuration c).lastBlock k)).filter (Rule.stays m kind) := by
    rw [← Action.build_registers he hc hbuild k, List.filter_map]
    rfl
  rw [hafter, hbefore]

/-- **The checks of the type after both builds** are the same, but for those that were dropped,
exactly if the block and the order stay. -/
theorem sparesRest_iff (h : e.Drops c m kind e') (he : e.Tidy) (he' : e'.Tidy)
    (hc : c < e.configurations.length) (hbuild : Action.build c e = (.ok out, e₁))
    (hbuild' : Action.build c e' = (.ok out', e₂)) :
    SparesRest (e.configuration c).type m kind e₁ e₂ ↔
      e.BlockStays c m kind ∧ e.OrderStays c e' := by
  have hafter := Action.build_checks he' (h.length_lt hc) hbuild'
  rw [h.type] at hafter
  have hbefore : ((e₁.registry.checksOf (e.configuration c).type).filter (Rule.stays m kind)).map
      Rule.look = (e.membersToCome c).flatMap fun k =>
        (e.checksToCome c k ((e.configuration c).lastBlock k)).filter (Rule.stays m kind) := by
    rw [← List.filter_flatMap, ← Action.build_checks he hc hbuild, List.filter_map]
    rfl
  obtain ⟨hnodup, hnone⟩ := Action.members_of_build he hc hbuild
  obtain ⟨hnodup', hnone'⟩ := Action.members_of_build he' (h.length_lt hc) hbuild'
  have hmine : ∀ k, ∀ x ∈ e'.checksToCome c k ((e'.configuration c).lastBlock k),
      x.member.key = k := fun k x hx => member_of_mem_checksToCome he'.keyed hx
  have hmine' : ∀ k, ∀ x ∈ (e.checksToCome c k ((e.configuration c).lastBlock k)).filter
      (Rule.stays m kind), x.member.key = k := fun k x hx =>
    member_of_mem_checksToCome he.keyed (List.mem_filter.mp hx).1
  unfold SparesRest
  rw [hbefore, hafter, flatMap_eq_iff hmine hmine' hnodup' hnodup hnone' fun k hk => by
    rw [hnone k hk]; rfl]
  refine and_congr ?_ ?_
  · rw [← forall_checksToCome_iff]
    refine forall_congr' fun k => ?_
    rw [h.checksToCome, h.configuration]
  · unfold OrderStays checkedMembers
    simp only [isEmpty_checksToCome]

end Drops

end Engine

variable {c : Nat} {m : MemberRef} {sel : Selector} {e e₁ : Engine} {out : List Rule}

/-- **Dropping rules of a member spares the rest** exactly if the last block for the member then sets
the same for its rules that stay, and the members come in the same order.  Rules can be dropped
whenever the type can be built, as it can be after that.  Both conditions hold if all rules of the
member are dropped; the first one if no block for the member loses all its checks, and the second one
if the member has been registered or started.  Without the second one, each member is still left with
the rest of its checks.  The rules of the engine need only be in order, as they are after any calls. -/
theorem dropMember_spares_rest_iff (he : e.Tidy) (hc : c < e.configurations.length)
    (hselects : e.world.schema.select (e.configuration c).type (sel.captured e.world) = .ok m)
    (hbuild : Action.build c e = (.ok out, e₁)) (kind : Option String) :
    ∃ e' out' e₂, Action.dropMember c sel kind e = (.ok (), e') ∧
      Action.build c e' = (.ok out', e₂) ∧
      (Engine.SparesRest (e.configuration c).type m kind e₁ e₂ ↔
        e.BlockStays c m kind ∧ e.OrderStays c e') ∧
      ((∀ k, (e₂.registry.checksAt (e.configuration c).type k).map Rule.look =
        ((e₁.registry.checksAt (e.configuration c).type k).filter (Rule.stays m kind)).map
          Rule.look) ↔ e.BlockStays c m kind) ∧
      (kind = none → e.BlockStays c m kind ∧ e.OrderStays c e') ∧
      ((∀ p ∈ (e.configuration c).gathered, p.member.key = m.key → p.checks ≠ [] →
        (p.without m kind).checks ≠ []) → e.BlockStays c m kind) ∧
      ((m.key ∈ e.registry.membersOf (e.configuration c).type ∨
        ∃ p ∈ (e.configuration c).gathered, p.member.key = m.key) → e.OrderStays c e') := by
  have hput : (Action.commit c e).1 = .ok () := by
    rw [Action.build_eq] at hbuild
    obtain ⟨_, _, hput, -⟩ := bind_eq_ok.mp hbuild
    rw [hput]
  obtain ⟨e', hdrop, hdrops⟩ := Action.dropMember_apply he hc hput hselects kind
  have htidy := (Action.dropMember_tidy c sel kind e he).1
  rw [hdrop] at htidy
  obtain ⟨out', e₂, hbuild'⟩ := hdrops.build_ok he htidy hc hbuild
  refine ⟨e', out', e₂, hdrop, hbuild', hdrops.sparesRest_iff he htidy hc hbuild hbuild',
    hdrops.checksAt_iff he htidy hc hbuild hbuild', ?_, Engine.blockStays_of_checks_left,
    hdrops.orderStays⟩
  rintro rfl
  exact ⟨Engine.blockStays_of_none he.keyed, hdrops.orderStays_of_none he.keyed⟩

/-! ## 5. A format that only administrators need

The address of a user is declared to be required.  A check of its format is asked for only of
administrators, and then dropped again. -/

namespace UserAddress

/-- A configuration of users with a check of the format, for administrators. -/
def formatted : Engine := (runTypeSteps 0 [
  .rule (.ref member) none none false,
  .check (.attach (.ok { check := .email })),
  .gate (some (.ref member)) isAdmin] engine).2

theorem formatted_tidy : formatted.Tidy := runTypeSteps_tidy engine_tidy _ 0

theorem formatted_configured : 0 < formatted.configurations.length := by decide +kernel

theorem formatted_selects : formatted.world.schema.select (formatted.configuration 0).type
    ((Selector.ref member).captured formatted.world) = .ok member := rfl

theorem formatted_builds : Action.build 0 formatted =
    (.ok ((Action.build 0 formatted).1.toOption.getD []), (Action.build 0 formatted).2) := by
  obtain ⟨out, hout⟩ := Option.isSome_iff_exists.mp
    (show (Action.build 0 formatted).1.toOption.isSome = true by decide +kernel)
  rw [hout]
  exact eq_ok_of_toOption hout

/-- What the checks of users are named after, and whether they have conditions. -/
def gated (rs : List Rule) : List (String × Bool) :=
  rs.map fun r => ((r.check?.map Check.shortName).getD "", r.gate.condition.isSome)

theorem gated_look (rs : List Rule) : gated (rs.map Rule.look) = gated rs := by
  unfold gated
  rw [List.map_map]
  rfl

end UserAddress

/-- An address stays required of everyone if the check of its format is built, but becomes required
of administrators only if this check is dropped. -/
theorem dropMember_spares_rest_iff_user : ∃ e' out' e₂,
    Action.dropMember 0 (.ref UserAddress.member) (some "EmailAddress") UserAddress.formatted =
      (.ok (), e') ∧ Action.build 0 e' = (.ok out', e₂) ∧
      ¬ Engine.SparesRest (.declared "User") UserAddress.member (some "EmailAddress")
        (Action.build 0 UserAddress.formatted).2 e₂ := by
  obtain ⟨e', out', e₂, hdrop, hbuild, hiff, -⟩ := dropMember_spares_rest_iff
    UserAddress.formatted_tidy UserAddress.formatted_configured UserAddress.formatted_selects
    UserAddress.formatted_builds (some "EmailAddress")
  have htype : (UserAddress.formatted.configuration 0).type = .declared "User" := by decide +kernel
  rw [htype] at hiff
  refine ⟨e', out', e₂, hdrop, hbuild, fun hspares => ?_⟩
  have hblock := (hiff.mp hspares).1
  -- What the last blocks with and without the check set for the declared rule, by evaluation.
  let left : List Rule := (UserAddress.formatted.registry.checksAt
    (UserAddress.formatted.configuration 0).type UserAddress.member.key).filter
      (Rule.stays UserAddress.member (some "EmailAddress"))
  let settled (cfg : Configuration) : List Rule :=
    left.map fun r => ((UserAddress.formatted.configuration 0).renewed
      (cfg.lastBlock UserAddress.member.key) r).look
  have hsame : settled ((UserAddress.formatted.configuration 0).without UserAddress.member
      (some "EmailAddress")) = settled (UserAddress.formatted.configuration 0) :=
    List.map_congr_left fun r hr => hblock r (List.mem_filter.mp hr).1 (List.mem_filter.mp hr).2
  have hwithout : UserAddress.gated (settled ((UserAddress.formatted.configuration 0).without
      UserAddress.member (some "EmailAddress"))) = [("Required", true)] := by decide +kernel
  have hwith : UserAddress.gated (settled (UserAddress.formatted.configuration 0)) =
      [("Required", false)] := by decide +kernel
  rw [hsame, hwith] at hwithout
  cases hwithout

/-- **Dropping a check can change a rule that stays.** -/
theorem drop_changes_gate :
    ¬ ∀ {c : Nat} {m : MemberRef} {sel : Selector} {e e₁ : Engine} {out : List Rule}, e.Tidy →
      c < e.configurations.length →
      e.world.schema.select (e.configuration c).type (sel.captured e.world) = .ok m →
      Action.build c e = (.ok out, e₁) → ∀ kind : Option String,
      ∃ e' out' e₂, Action.dropMember c sel kind e = (.ok (), e') ∧
        Action.build c e' = (.ok out', e₂) ∧
        Engine.SparesRest (e.configuration c).type m kind e₁ e₂ := by
  intro h
  obtain ⟨e', out', e₂, hdrop, hbuild, hspares⟩ := h UserAddress.formatted_tidy
    UserAddress.formatted_configured UserAddress.formatted_selects UserAddress.formatted_builds
    (some "EmailAddress")
  -- What both builds end with, by evaluation.
  have hwith : UserAddress.gated (((Action.build 0 UserAddress.formatted).2.registry.checksOf
      (.declared "User")).filter (Rule.stays UserAddress.member (some "EmailAddress"))) =
      [("Required", false)] := by decide +kernel
  have hwithout : UserAddress.gated ((Action.build 0 (Action.dropMember 0
      (.ref UserAddress.member) (some "EmailAddress") UserAddress.formatted).2).2.registry.checksOf
        (.declared "User")) = [("Required", true)] := by decide +kernel
  rw [hdrop, hbuild] at hwithout
  have htype : (UserAddress.formatted.configuration 0).type = .declared "User" := by decide +kernel
  have hsame := congrArg UserAddress.gated hspares
  rw [htype, UserAddress.gated_look, UserAddress.gated_look, hwith, hwithout] at hsame
  cases hsame

end MemberRules
