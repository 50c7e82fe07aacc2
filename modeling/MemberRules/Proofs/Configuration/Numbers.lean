/-
# The numbers of rules

A rule gets a number of its own when it is made, its identity.  A rule that a configuration makes
anew has the number in its key as well, while the copy of a rule keeps the key of that rule.  So no
two rules of builders are taken for one another, and none of them for a rule that is registered, as
long as it is not registered itself.

A builder waits for its configuration to be built.  Until then the configuration lists it, and no
other configuration does; nothing of what it holds is registered.

* `Rule.Uses`, `Rule.IsOwn`: the numbers of a rule, and a rule that has its own in its key.
* `Engine.Numbered`: what holds of the numbers of all rules.
* `Engine.Sheds`, `Engine.Numbered.sheds`: a change that makes no rule keeps it.
* `Engine.Numbered.attaching`, `Engine.Numbered.registering`: so does making a rule for a builder,
  and registering rules.
-/
import MemberRules.Proofs.Configuration.Gathered
import MemberRules.Proofs.Configuration.Keyed
import MemberRules.Proofs.Model.Reflection

namespace MemberRules

open MemberRules.Computation

/-! ## 1. The numbers of a rule -/

/-- The number in a key. -/
def UniqueKey.token? : UniqueKey → Option Nat
  | named _ => none
  | fresh _ token _ _ => some token
  | anonymous token => some token

namespace Rule

/-- A number that a rule has, as its identity or in its key. -/
def Uses (r : Rule) (n : Nat) : Prop := r.id = n ∨ r.uniqueKey.token? = some n

/-- A rule with its own number in its key. -/
def IsOwn (r : Rule) : Prop := r.uniqueKey.token? = some r.id

/-- What tells a rule apart and does not change: its number and its place. -/
def tag (r : Rule) : Nat × Place := (r.id, r.place)

variable {r r' : Rule} {n : Nat}

/-- A rule with its own number in its key has no other number. -/
theorem IsOwn.uses_iff (h : r.IsOwn) : r.Uses n ↔ r.id = n := by
  unfold Uses
  rw [show r.uniqueKey.token? = some r.id from h, Option.some.injEq, or_self]

theorem id_of_tag (h : r'.tag = r.tag) : r'.id = r.id := congrArg Prod.fst h

theorem place_of_tag (h : r'.tag = r.tag) : r'.place = r.place := congrArg Prod.snd h

theorem uses_of_tag (h : r'.tag = r.tag) : r'.Uses n ↔ r.Uses n := by
  unfold Uses
  rw [id_of_tag h, uniqueKey_of_place (place_of_tag h)]

theorem IsOwn.of_tag (h : r.IsOwn) (htag : r'.tag = r.tag) : r'.IsOwn := by
  unfold IsOwn
  rw [id_of_tag htag, uniqueKey_of_place (place_of_tag htag)]
  exact h

/-- Rules that have their own numbers in their keys are under different keys if their numbers are
different. -/
theorem IsOwn.id_eq (h : r.IsOwn) (h' : r'.IsOwn) (hkey : r'.uniqueKey = r.uniqueKey) :
    r'.id = r.id :=
  Option.some.inj (h'.symm.trans (hkey ▸ h))

end Rule

/-! ## 2. The numbers of all rules -/

namespace Engine

/-- What holds of the numbers of all rules: they have been given out; a builder holds rules of its
member that have their own numbers in their keys, each once; builders are listed once, and by their
owners; and what a listed builder holds is not registered. -/
structure Numbered (e : Engine) : Prop where
  faithful : e.world.schema.Faithful e.reflected
  registered : ∀ t k, ∀ r ∈ e.registry.rulesOfMember t k, ∀ n, r.Uses n → n < e.nextId
  held : ∀ b, ∀ r ∈ (e.builder b).rules, r.IsOwn ∧ r.id < e.nextId
  home : ∀ b, ∀ r ∈ (e.builder b).rules, r.member = (e.builder b).member ∧ r.hasCheck = true
  once : ∀ b, ((e.builder b).rules.map Rule.id).Nodup
  apart : ∀ b b', b ≠ b' → ∀ r ∈ (e.builder b).rules, ∀ r' ∈ (e.builder b').rules, r.id ≠ r'.id
  listed : ∀ c, (e.configuration c).builders.Nodup
  owned : e.Owned
  waiting : ∀ c, ∀ b ∈ (e.configuration c).builders, ∀ r ∈ (e.builder b).rules,
    ∀ t k, ∀ x ∈ e.registry.rulesOfMember t k, ¬ x.Uses r.id

/-- A change that makes no rule: rules may be taken away or changed, but for their numbers and their
places. -/
structure Sheds (e e' : Engine) : Prop where
  faithful : e.world.schema.Faithful e.reflected → e'.world.schema.Faithful e'.reflected
  ids : e.nextId ≤ e'.nextId
  registered : ∀ t k, ((e'.registry.rulesOfMember t k).map Rule.tag).Sublist
    ((e.registry.rulesOfMember t k).map Rule.tag)
  builders : e'.builders.length = e.builders.length
  held : ∀ b, ((e'.builder b).rules.map Rule.tag).Sublist ((e.builder b).rules.map Rule.tag)
  same : ∀ b, (e'.builder b).member = (e.builder b).member ∧
    (e'.builder b).owner = (e.builder b).owner
  lists : ∀ c, (e'.configuration c).builders.Sublist (e.configuration c).builders

variable {e e' : Engine} {b c : Nat} {t : TypeId} {k : MemberKey}

theorem exists_of_mem_tags {xs rs : List Rule} (h : (xs.map Rule.tag).Sublist (rs.map Rule.tag))
    {x : Rule} (hx : x ∈ xs) : ∃ r ∈ rs, r.tag = x.tag :=
  List.mem_map.mp (h.subset (List.mem_map_of_mem hx))

theorem Numbered.sheds (h : e.Numbered) (hsheds : e.Sheds e') : e'.Numbered where
  faithful := hsheds.faithful h.faithful
  registered t k x hx n hn := by
    obtain ⟨r, hr, htag⟩ := exists_of_mem_tags (hsheds.registered t k) hx
    exact (h.registered t k r hr n ((Rule.uses_of_tag htag).mpr hn)).trans_le hsheds.ids
  held b x hx := by
    obtain ⟨r, hr, htag⟩ := exists_of_mem_tags (hsheds.held b) hx
    obtain ⟨hown, hlt⟩ := h.held b r hr
    exact ⟨hown.of_tag htag.symm, (Rule.id_of_tag htag) ▸ hlt.trans_le hsheds.ids⟩
  home b x hx := by
    obtain ⟨r, hr, htag⟩ := exists_of_mem_tags (hsheds.held b) hx
    have hplace := (Rule.place_of_tag htag).symm
    obtain ⟨hmember, hcheck⟩ := h.home b r hr
    rw [Rule.member_of_place hplace, Rule.hasCheck, Rule.validator_of_place hplace,
      (hsheds.same b).1]
    exact ⟨hmember, hcheck⟩
  once b := by
    have hids := (hsheds.held b).map Prod.fst
    rw [List.map_map, List.map_map] at hids
    exact (h.once b).sublist hids
  apart b b' hne x hx x' hx' := by
    obtain ⟨r, hr, htag⟩ := exists_of_mem_tags (hsheds.held b) hx
    obtain ⟨r', hr', htag'⟩ := exists_of_mem_tags (hsheds.held b') hx'
    rw [← Rule.id_of_tag htag, ← Rule.id_of_tag htag']
    exact h.apart b b' hne r hr r' hr'
  listed c := (h.listed c).sublist (hsheds.lists c)
  owned c b hb := by
    rw [hsheds.builders, (hsheds.same b).2]
    exact h.owned c b ((hsheds.lists c).subset hb)
  waiting c b hb x hx t k y hy := by
    obtain ⟨r, hr, htag⟩ := exists_of_mem_tags (hsheds.held b) hx
    obtain ⟨z, hz, hztag⟩ := exists_of_mem_tags (hsheds.registered t k) hy
    rw [← Rule.id_of_tag htag, ← Rule.uses_of_tag hztag]
    exact h.waiting c b ((hsheds.lists c).subset hb) r hr t k z hz

/-! ## 3. Changes that make no rule -/

/-- A change of neither the rules nor what lists them. -/
theorem sheds_aside (hsame : SameWork e e') (hids : e.nextId ≤ e'.nextId)
    (hfaithful : e.world.schema.Faithful e.reflected →
      e'.world.schema.Faithful e'.reflected) : e.Sheds e' where
  faithful := hfaithful
  ids := hids
  registered t k := by rw [hsame.registry]
  builders := by rw [hsame.builders]
  held b := by rw [hsame.builder]
  same b := by rw [hsame.builder]; exact ⟨rfl, rfl⟩
  lists c := by rw [hsame.configuration]

theorem sheds_refl (e : Engine) : e.Sheds e := sheds_aside ⟨rfl, rfl, rfl⟩ le_rfl id

theorem Sheds.trans {e'' : Engine} (h : e.Sheds e') (h' : e'.Sheds e'') : e.Sheds e'' where
  faithful hfaithful := h'.faithful (h.faithful hfaithful)
  ids := h.ids.trans h'.ids
  registered t k := (h'.registered t k).trans (h.registered t k)
  builders := h'.builders.trans h.builders
  held b := (h'.held b).trans (h.held b)
  same b := ⟨(h'.same b).1.trans (h.same b).1, (h'.same b).2.trans (h.same b).2⟩
  lists c := (h'.lists c).trans (h.lists c)

theorem sheds_updateConfiguration {f : Configuration → Configuration}
    (hf : ∀ cfg, (f cfg).builders.Sublist cfg.builders) (c : Nat) :
    e.Sheds (e.updateConfiguration c f) := by
  refine ⟨id, le_rfl, fun _ _ => .refl _, rfl, fun _ => .refl _, fun _ => ⟨rfl, rfl⟩, fun c' => ?_⟩
  rcases configuration_updateConfiguration (e := e) c c' f with heq | heq <;> rw [heq]
  exact hf _

theorem sheds_newConfiguration {cfg : Configuration} (hcfg : cfg.builders = []) :
    e.Sheds { e with configurations := e.configurations ++ [cfg] } := by
  refine ⟨id, le_rfl, fun _ _ => .refl _, rfl, fun _ => .refl _, fun _ => ⟨rfl, rfl⟩, fun c' => ?_⟩
  rw [configuration_newConfiguration]
  split
  · exact .refl _
  · split
    · rw [hcfg]
      exact List.nil_sublist _
    · exact List.nil_sublist _

/-- A change of the registry that adds no rule. -/
theorem sheds_registry (reg : Registry)
    (hreg : ∀ t k, (reg.rulesOfMember t k).Sublist (e.registry.rulesOfMember t k)) :
    e.Sheds { e with registry := reg } :=
  ⟨id, le_rfl, fun t k => (hreg t k).map _, rfl, fun _ => .refl _, fun _ => ⟨rfl, rfl⟩,
    fun _ => .refl _⟩

/-- A change of a builder that drops rules at most. -/
theorem sheds_updateBuilder {f : Builder → Builder}
    (hf : ∀ x, (f x).rules.Sublist x.rules ∧ (f x).member = x.member ∧ (f x).owner = x.owner)
    (b : Nat) : e.Sheds (e.updateBuilder b f) := by
  have hbuilder : ∀ b', ((e.updateBuilder b f).builder b').rules.Sublist (e.builder b').rules ∧
      ((e.updateBuilder b f).builder b').member = (e.builder b').member ∧
      ((e.updateBuilder b f).builder b').owner = (e.builder b').owner := fun b' => by
    rw [builder_updateBuilder]
    split
    · exact hf _
    · exact ⟨.refl _, rfl, rfl⟩
  exact ⟨id, le_rfl, fun _ _ => .refl _, by simp [updateBuilder],
    fun b' => (hbuilder b').1.map _, fun b' => (hbuilder b').2, fun _ => .refl _⟩

theorem map_tag_amend {f : Rule → Rule} (hf : ∀ r, (f r).tag = r.tag) (id : Nat) (rs : List Rule) :
    (rs.map fun r => if r.id == id then f r else r).map Rule.tag = rs.map Rule.tag := by
  rw [List.map_map]
  refine List.map_congr_left fun r _ => ?_
  simp only [Function.comp_apply]
  split
  · exact hf r
  · rfl

/-- A change of a rule that leaves it its number and its place. -/
theorem sheds_amend {f : Rule → Rule} (hf : ∀ r, (f r).tag = r.tag) (i : Nat) :
    e.Sheds (e.amend i f) := by
  refine ⟨id, le_rfl, fun t k => ?_, by simp [amend], fun b => ?_, fun b => ?_, fun c => ?_⟩
  · have hrules : (e.amend i f).registry.rulesOfMember t k = _ := Registry.rulesOfMember_amend i f
    rw [hrules, map_tag_amend hf]
  · rw [builder_amend]
    exact (map_tag_amend hf i _).symm ▸ .refl _
  · rw [builder_amend]
    exact ⟨rfl, rfl⟩
  · rw [configuration_amend]

/-! ## 4. Making and registering rules -/

/-- An engine with one more builder, which a configuration lists. -/
def listing (c : Nat) (x : Builder) (named : List (String × Nat)) (e : Engine) : Engine :=
  { e with builders := e.builders ++ [x], named }.updateConfiguration c fun cfg =>
    { cfg with builders := cfg.builders ++ [e.builders.length] }

/-- What a builder of such an engine holds was held before. -/
theorem mem_listing {x : Builder} (hx : x.rules = []) {named : List (String × Nat)} {r : Rule}
    (hr : r ∈ ((e.listing c x named).builder b).rules) :
    (e.listing c x named).builder b = e.builder b ∧ r ∈ (e.builder b).rules := by
  have hbuilder : (e.listing c x named).builder b = if b < e.builders.length then e.builder b
    else if b = e.builders.length then x else default := builder_newBuilder x named b
  rw [hbuilder] at hr ⊢
  split at hr
  · rw [if_pos ‹_›]
    exact ⟨rfl, hr⟩
  · split at hr
    · rw [hx] at hr
      cases hr
    · cases hr

theorem builders_listing (x : Builder) (named : List (String × Nat)) (c' : Nat) :
    ((e.listing c x named).configuration c').builders = (e.configuration c').builders ∨
      c' = c ∧ ((e.listing c x named).configuration c').builders =
        (e.configuration c').builders ++ [e.builders.length] := by
  unfold listing
  rcases configuration_updateConfiguration_cases (e := { e with builders := e.builders ++ [x], named })
    c c' (fun cfg => { cfg with builders := cfg.builders ++ [e.builders.length] })
    with heq | ⟨rfl, heq⟩ <;> rw [heq]
  · exact .inl rfl
  · exact .inr ⟨rfl, rfl⟩

/-- **A new builder is listed by its owner**, and holds nothing. -/
theorem Numbered.listing (h : e.Numbered) {x : Builder} (hx : x.rules = []) (howner : x.owner = c)
    (named : List (String × Nat)) : (e.listing c x named).Numbered := by
  have hlists : ∀ c' b, b ∈ ((e.listing c x named).configuration c').builders →
      b ∈ (e.configuration c').builders ∨ b = e.builders.length ∧ c' = c := by
    intro c' b hb
    rcases builders_listing x named c' with heq | ⟨hc, heq⟩ <;> rw [heq] at hb
    · exact .inl hb
    · rcases List.mem_append.mp hb with hb | hb
      · exact .inl hb
      · exact .inr ⟨List.mem_singleton.mp hb, hc⟩
  refine ⟨h.faithful, h.registered, fun b r hr => ?_, fun b r hr => ?_, fun b => ?_,
    fun b b' hne r hr r' hr' => ?_, fun c' => ?_, fun c' b hb => ?_, fun c' b hb r hr => ?_⟩
  · exact h.held b r (mem_listing hx hr).2
  · obtain ⟨hsame, hr⟩ := mem_listing hx hr
    rw [hsame]
    exact h.home b r hr
  · rcases hnone : ((e.listing c x named).builder b).rules with _ | ⟨r, rs⟩
    · exact List.nodup_nil
    · have hr : r ∈ ((e.listing c x named).builder b).rules := hnone ▸ List.mem_cons_self
      have hsame := (mem_listing hx hr).1
      rw [← hnone, hsame]
      exact h.once b
  · exact h.apart b b' hne r (mem_listing hx hr).2 r' (mem_listing hx hr').2
  · rcases builders_listing x named c' with heq | ⟨-, heq⟩ <;> rw [heq]
    · exact h.listed c'
    · refine Schema.nodup_snoc_of_notMem (h.listed c') fun hmem => ?_
      exact absurd (h.owned c' _ hmem).1 (lt_irrefl _)
  · show b < (e.builders ++ [x]).length ∧
      ({ e with builders := e.builders ++ [x], named }.builder b).owner = c'
    rw [builder_newBuilder, List.length_append, List.length_singleton]
    rcases hlists c' b hb with hb | ⟨rfl, rfl⟩
    · obtain ⟨hlt, hown⟩ := h.owned c' b hb
      rw [if_pos hlt]
      exact ⟨by omega, hown⟩
    · rw [if_neg (lt_irrefl _), if_pos rfl]
      exact ⟨by omega, howner⟩
  · have hthere := (mem_listing hx hr).2
    rcases hlists c' b hb with hb | ⟨rfl, -⟩
    · exact h.waiting c' b hb r hthere
    · rw [builder, List.getElem?_eq_none le_rfl] at hthere
      cases hthere

/-- An engine in which a rule has been made for a builder. -/
def attaching (b : Nat) (r : Rule) (e : Engine) : Engine :=
  { e with nextId := e.nextId + 1 }.updateBuilder b fun x => { x with rules := x.rules ++ [r] }

theorem mem_attaching {r x : Rule} {b' : Nat} (hx : x ∈ ((e.attaching b r).builder b').rules) :
    x ∈ (e.builder b').rules ∨ x = r ∧ b' = b := by
  unfold attaching at hx
  rw [builder_updateBuilder] at hx
  split at hx
  · rename_i hb
    rcases List.mem_append.mp hx with hx | hx
    · exact .inl hx
    · exact .inr ⟨List.mem_singleton.mp hx, hb.1.symm⟩
  · exact .inl hx

theorem same_attaching (r : Rule) (b' : Nat) :
    ((e.attaching b r).builder b').member = (e.builder b').member ∧
      ((e.attaching b r).builder b').owner = (e.builder b').owner := by
  unfold attaching
  rw [builder_updateBuilder]
  split <;> exact ⟨rfl, rfl⟩

/-- **A rule that is made for a builder** gets the next number. -/
theorem Numbered.attaching (h : e.Numbered) {r : Rule} (hown : r.IsOwn) (hid : r.id = e.nextId)
    (hmember : r.member = (e.builder b).member) (hcheck : r.hasCheck = true) :
    (e.attaching b r).Numbered := by
  have hnew : ∀ b', ∀ x ∈ (e.builder b').rules, x.id ≠ r.id := fun b' x hx => by
    have hlt := (h.held b' x hx).2
    omega
  refine ⟨h.faithful, fun t k x hx n hn => Nat.lt_succ_of_lt (h.registered t k x hx n hn),
    fun b' x hx => ?_, fun b' x hx => ?_, fun b' => ?_, fun b₁ b₂ hne x hx y hy => ?_, h.listed,
    fun c b' hb' => ?_, fun c b' hb' x hx t k y hy => ?_⟩
  · show x.IsOwn ∧ x.id < e.nextId + 1
    rcases mem_attaching hx with hx | ⟨rfl, -⟩
    · exact ⟨(h.held b' x hx).1, Nat.lt_succ_of_lt (h.held b' x hx).2⟩
    · exact ⟨hown, by omega⟩
  · rw [(same_attaching r b').1]
    rcases mem_attaching hx with hx | ⟨rfl, rfl⟩
    · exact h.home b' x hx
    · exact ⟨hmember, hcheck⟩
  · unfold Engine.attaching
    rw [builder_updateBuilder]
    split
    · rw [List.map_append]
      refine Schema.nodup_snoc_of_notMem (h.once b') fun hmem => ?_
      obtain ⟨x, hx, heq⟩ := List.mem_map.mp hmem
      exact hnew b' x hx heq
    · exact h.once b'
  · rcases mem_attaching hx with hxold | ⟨hxnew, hb₁⟩
    · rcases mem_attaching hy with hyold | ⟨hynew, -⟩
      · exact h.apart b₁ b₂ hne x hxold y hyold
      · exact hynew ▸ hnew b₁ x hxold
    · rcases mem_attaching hy with hyold | ⟨-, hb₂⟩
      · exact hxnew ▸ (hnew b₂ y hyold).symm
      · exact absurd (hb₁.trans hb₂.symm) hne
  · rw [(same_attaching r b').2]
    refine ⟨?_, (h.owned c b' hb').2⟩
    simpa [Engine.attaching, updateBuilder] using (h.owned c b' hb').1
  · rcases mem_attaching hx with hx | ⟨rfl, rfl⟩
    · exact h.waiting c b' hb' x hx t k y hy
    · intro huses
      have hlt := h.registered t k y hy _ huses
      omega

theorem mem_of_mem_put {r x : Rule} {rs : List Rule} (hx : x ∈ RuleGroup.put r rs) :
    x = r ∨ x ∈ rs := by
  induction rs with
  | nil => exact .inl (List.mem_singleton.mp hx)
  | cons y rs ih =>
    unfold RuleGroup.put at hx
    split at hx
    · exact (List.mem_cons.mp hx).imp_right (List.mem_cons_of_mem y)
    · rcases List.mem_cons.mp hx with rfl | hx
      · exact .inr List.mem_cons_self
      · exact (ih hx).imp_right (List.mem_cons_of_mem y)

/-- A rule of a member that is there after others have been added is one of them, or was there
before. -/
theorem mem_of_mem_addAll {reg : Registry} {u : TypeId} {rs : List Rule} {x : Rule}
    (hx : x ∈ (reg.addAll u rs).rulesOfMember t k) : x ∈ rs ∨ x ∈ reg.rulesOfMember t k := by
  induction rs generalizing reg with
  | nil => exact .inr hx
  | cons r rs ih =>
    rcases @ih (reg.add u r) hx with hx | hx
    · exact .inl (List.mem_cons_of_mem r hx)
    · rw [Registry.rulesOfMember_add] at hx
      split at hx
      · rcases mem_of_mem_put hx with rfl | hx
        · exact .inl List.mem_cons_self
        · exact .inr hx
      · exact .inr hx

/-- **Rules that are registered** have numbers that have been given out, and none that a listed
builder holds. -/
theorem Numbered.registering (h : e.Numbered) {rs : List Rule}
    (hids : ∀ r ∈ rs, ∀ n, r.Uses n → n < e.nextId)
    (hwaiting : ∀ c, ∀ b ∈ (e.configuration c).builders, ∀ x ∈ (e.builder b).rules,
      ∀ r ∈ rs, ¬ r.Uses x.id) (u : TypeId) :
    { e with registry := e.registry.addAll u rs }.Numbered := by
  refine ⟨h.faithful, fun t k x hx => ?_, h.held, h.home, h.once, h.apart, h.listed, h.owned,
    fun c b hb r hr t k x hx => ?_⟩
  · rcases mem_of_mem_addAll hx with hx | hx
    · exact hids x hx
    · exact h.registered t k x hx
  · rcases mem_of_mem_addAll hx with hx | hx
    · exact hwaiting c b hb r hr x hx
    · exact h.waiting c b hb r hr t k x hx

end Engine
end MemberRules
