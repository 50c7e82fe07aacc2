/-
# The attributes that members take over

A type takes the attributes of other types over for its members of the same names.  The other types are
those that the types along its line name, and each of them has taken over attributes in the same way
before.  So the attributes of a member are a walk through the sources of its type: those of each source in
turn, as that source has them in full, and the member's own at the end.

If the walk does not lead back to a type that it has passed, it ends.  It comes to the attributes of every
source that it passes; but it passes on only through types that have the member.  A source without the
member gives nothing, whatever the sources behind it have.

* `Schema.Inherits`: the law of inheritance, as a relation between a type and the attributes of a name.
* `Schema.Acyclic.induction`: what holds of a type whenever it holds of its sources.
* `Schema.Reads.byLaw`: reading a type gives its own members with the attributes of the law.
* `Schema.Inherits.exists_inherited`: where the attributes come from.
* `inherits_by_law`: reflecting a type, and the rules that are made of its members.
* `not_inherits_all`: a source behind a type without the member.
-/
import Mathlib
import MemberRules.Proofs.Registry.Closure

namespace MemberRules

open MemberRules.Computation
open Relation (ReflTransGen TransGen)

namespace Schema

variable {s : Schema} {t u : TypeId} {name : String} {own ms : List MemberInfo} {f : Fault}

/-! ## 1. Sources -/

/-- A type draws from another one: a type along its line takes attributes over from it. -/
def Draws (s : Schema) (t u : TypeId) : Prop := ∃ d ∈ s.lineOf t, u ∈ d.inherits

/-- No type that a type draws from, at once or through others, leads back to itself. -/
def Acyclic (s : Schema) (t : TypeId) : Prop :=
  ¬ ∃ u, ReflTransGen s.Draws t u ∧ TransGen s.Draws u u

theorem mem_sourcesOf : u ∈ s.sourcesOf t ↔ s.Draws t u := List.mem_flatMap

/-- Only declared types draw from others. -/
theorem Draws.mem_ids (h : s.Draws t u) : t ∈ s.ids := by
  by_contra hnot
  obtain ⟨d, hd, -⟩ := h
  rw [lineOf_of_notMem hnot] at hd
  cases hd

theorem Acyclic.source (h : s.Acyclic t) (hu : s.Draws t u) : s.Acyclic u := by
  rintro ⟨v, hv, hcycle⟩
  exact h ⟨v, .head hu hv, hcycle⟩

/-- The declared types that a type leads to by those that it draws from. -/
noncomputable def drawn (s : Schema) (t : TypeId) : Finset TypeId :=
  open scoped Classical in s.ids.toFinset.filter (ReflTransGen s.Draws t)

theorem mem_drawn {v : TypeId} : v ∈ s.drawn t ↔ v ∈ s.ids ∧ ReflTransGen s.Draws t v := by
  simp [drawn]

/-- A source leads to fewer types than the type that draws from it: not to that type. -/
theorem Acyclic.card_drawn_lt (h : s.Acyclic t) (hu : s.Draws t u) :
    (s.drawn u).card < (s.drawn t).card := by
  refine Finset.card_lt_card (Finset.ssubset_iff_of_subset (fun v hv => ?_) |>.mpr ⟨t, ?_, ?_⟩)
  · obtain ⟨hids, hv⟩ := mem_drawn.mp hv
    exact mem_drawn.mpr ⟨hids, .head hu hv⟩
  · exact mem_drawn.mpr ⟨hu.mem_ids, .refl⟩
  · intro hback
    exact h ⟨t, .refl, .head' hu (mem_drawn.mp hback).2⟩

/-- **What holds of a type whenever it holds of its sources** holds of every type that does not lead back
to itself.  The induction is on the number of types that it leads to. -/
theorem Acyclic.induction {P : TypeId → Prop}
    (hstep : ∀ t, s.Acyclic t → (∀ u, s.Draws t u → P u) → P t) (h : s.Acyclic t) : P t := by
  induction hcard : (s.drawn t).card using Nat.strong_induction_on generalizing t with
  | _ n ih =>
    refine hstep t h fun u hu => ?_
    exact ih _ (hcard ▸ h.card_drawn_lt hu) (h.source hu) rfl

/-- Types that draw only from types of a lower rank do not lead back to themselves. -/
theorem acyclic_of_rank (rank : TypeId → Nat)
    (h : ∀ t ∈ s.ids, ∀ u ∈ s.sourcesOf t, rank u < rank t) (t : TypeId) : s.Acyclic t := by
  rintro ⟨u, -, hcycle⟩
  have hlower : ∀ {v w}, TransGen s.Draws v w → rank w < rank v := by
    intro v w hvw
    induction hvw with
    | single hw => exact h _ hw.mem_ids _ (mem_sourcesOf.mpr hw)
    | tail _ hw ih => exact (h _ hw.mem_ids _ (mem_sourcesOf.mpr hw)).trans ih
  exact Nat.lt_irrefl _ (hlower hcycle)

/-! ## 2. Reading comes to an end -/

theorem announcedMembers_ne_tooDeep (s : Schema) (t : TypeId) :
    s.announcedMembers t ≠ .error .tooDeep := by
  have hhints : s.hints t ≠ .error .tooDeep := by
    intro h
    unfold hints at h
    split at h
    · cases h
    · obtain ⟨e, -, he⟩ := except_mapM_eq_error h
      split at he <;> cases he
  have hmember : ∀ name, s.member t name ≠ .error .tooDeep := by
    intro name h
    unfold member at h
    split at h <;> cases h
  intro h
  rcases except_bind_eq_error h with h | ⟨hs, -, h⟩
  · exact hhints h
  · obtain ⟨e, -, he⟩ := except_mapM_eq_error h
    rcases except_bind_eq_error he with he | ⟨m, -, he⟩
    · exact hmember _ he
    · cases he

theorem annotatedMember_ne_tooDeep (s : Schema) (p : TypeId × String × Option Hint) :
    s.annotatedMember p ≠ .error .tooDeep := by
  intro h
  unfold annotatedMember at h
  repeat' split at h
  all_goals cases h

/-- Reading the own members of a type does not go into its sources. -/
theorem ownMembers_ne_tooDeep (s : Schema) (t : TypeId) : s.ownMembers t ≠ .error .tooDeep := by
  intro h
  rcases except_bind_eq_error h with h | ⟨fields, -, h⟩
  · exact announcedMembers_ne_tooDeep s t h
  · rcases except_bind_eq_error h with h | ⟨computed, -, h⟩
    · obtain ⟨p, -, hp⟩ := except_mapM_eq_error h
      exact annotatedMember_ne_tooDeep s p hp
    · cases h

/-- Reading a type fails at its own members or at a source. -/
theorem read_eq_error (h : s.read t = .error f) :
    s.ownMembers t = .error f ∨ ∃ u, s.Draws t u ∧ s.read u = .error f := by
  rw [read_eq] at h
  rcases except_bind_eq_error h with h | ⟨own, -, h⟩
  · exact .inl h
  · rcases except_bind_eq_error h with h | ⟨sources, -, h⟩
    · split at h
      · cases h
      · obtain ⟨u, hu, hread⟩ := except_mapM_eq_error h
        exact .inr ⟨u, mem_sourcesOf.mp hu, hread⟩
    · cases h

/-- **Reading a type that does not lead back to itself ends**: with its members, or with the fault of
reading the own members of a type that it leads to. -/
theorem Acyclic.exists_of_read (h : s.Acyclic t) (hread : s.read t = .error f) :
    ∃ u, ReflTransGen s.Draws t u ∧ s.ownMembers u = .error f := by
  refine Acyclic.induction (P := fun t => s.read t = .error f →
    ∃ u, ReflTransGen s.Draws t u ∧ s.ownMembers u = .error f) ?_ h hread
  intro t _ ih hread
  rcases read_eq_error hread with hown | ⟨u, hu, hread⟩
  · exact ⟨t, .refl, hown⟩
  · obtain ⟨v, hv, hown⟩ := ih u hu hread
    exact ⟨v, .head hu hv, hown⟩

/-! ## 3. The law -/

/-- **The law of inheritance**: the attributes that the member of a name has in full. -/
inductive Inherits (s : Schema) (name : String) : TypeId → List Attribute → Prop
  /-- A type without the member has none. -/
  | lacks {t : TypeId} {own : List MemberInfo} (hown : s.ownMembers t = .ok own)
    (hlacks : name ∉ memberNames own) : Inherits s name t []
  /-- For each type along the line, and each source that it names, those that the source has in full come
  first, and the member's own ones last. -/
  | has {t : TypeId} {own : List MemberInfo} {m : MemberInfo} {full : TypeId → List Attribute}
    (hown : s.ownMembers t = .ok own) (hm : m ∈ own) (hname : m.member.name = name)
    (hfull : ∀ d ∈ s.lineOf t, ∀ u ∈ d.inherits, Inherits s name u (full u)) :
    Inherits s name t (((s.lineOf t).flatMap fun d => d.inherits.flatMap full) ++ m.attributes)

theorem eq_of_memberNames {m m' : MemberInfo} (hnodup : (memberNames ms).Nodup) (hm : m ∈ ms)
    (hm' : m' ∈ ms) (h : m.member.name = m'.member.name) : m = m' :=
  List.inj_on_of_nodup_map hnodup hm hm' h

theorem attributesOf_of_mem {m : MemberInfo} (hnodup : (memberNames ms).Nodup) (hm : m ∈ ms) :
    attributesOf ms m.member.name = m.attributes := by
  have hfound : (ms.find? fun m' => m'.member.name == m.member.name).isSome = true :=
    List.find?_isSome.mpr ⟨m, hm, beq_self_eq_true _⟩
  obtain ⟨m', hm'⟩ := Option.isSome_iff_exists.mp hfound
  have hname : m'.member.name = m.member.name := by simpa using List.find?_some hm'
  unfold attributesOf
  rw [hm', eq_of_memberNames hnodup (List.mem_of_find?_eq_some hm') hm hname]

theorem attributesOf_of_notMem (h : name ∉ memberNames ms) : attributesOf ms name = [] := by
  have hnone : ms.find? (fun m => m.member.name == name) = none := by
    refine List.find?_eq_none.mpr fun m hm hname => h ?_
    exact List.mem_map.mpr ⟨m, hm, by simpa using hname⟩
  unfold attributesOf
  rw [hnone]

/-- **The law determines the attributes.** -/
theorem Inherits.unique {as bs : List Attribute} (h : s.Inherits name t as)
    (h' : s.Inherits name t bs) : as = bs := by
  induction h generalizing bs with
  | lacks hown hlacks =>
    cases h' with
    | lacks => rfl
    | has hown' hm hname =>
      cases hown.symm.trans hown'
      exact absurd (List.mem_map.mpr ⟨_, hm, hname⟩) hlacks
  | @has t own m full hown hm hname _ ih =>
    cases h' with
    | lacks hown' hlacks =>
      cases hown.symm.trans hown'
      exact absurd (List.mem_map.mpr ⟨_, hm, hname⟩) hlacks
    | @has _ _ m' full' hown' hm' hname' hfull' =>
      cases hown.symm.trans hown'
      obtain rfl := eq_of_memberNames (ownMembers_nodup hown) hm hm' (hname.trans hname'.symm)
      congr 1
      refine List.flatMap_congr fun d hd => List.flatMap_congr fun u hu => ?_
      exact ih d hd u hu (hfull' d hd u hu)

/-- What a member takes over from its sources goes along the line of its type, source by source. -/
theorem attributesOf_sources {depth : Nat} {sources : List (List MemberInfo)}
    {full : TypeId → List Attribute}
    (hsources : (s.sourcesOf t).mapM (s.membersWithin depth) = .ok sources)
    (hfull : ∀ u ms, s.membersWithin depth u = .ok ms → attributesOf ms name = full u) :
    sources.flatMap (fun ms => attributesOf ms name) =
      (s.lineOf t).flatMap fun d => d.inherits.flatMap full := by
  have hmap : sources.map (fun ms => attributesOf ms name) = (s.sourcesOf t).map full :=
    map_of_mapM_eq_ok hsources hfull
  rw [List.flatMap_def, hmap, ← List.flatMap_def, sourcesOf, List.flatMap_assoc]

/-- Reading a type within a depth gives the attributes of the law, for its members and for names that it
does not have. -/
theorem inherits_of_membersWithin {depth : Nat} (h : s.membersWithin depth t = .ok ms)
    (name : String) : s.Inherits name t (attributesOf ms name) := by
  induction depth generalizing t ms with
  | zero => cases h
  | succ depth ih =>
    obtain ⟨own, hown, h⟩ := except_bind_eq_ok.mp h
    obtain ⟨sources, hsources, h⟩ := except_bind_eq_ok.mp h
    cases h
    have hnames := memberNames_takeOver sources own
    by_cases hmem : name ∈ memberNames own
    · obtain ⟨m, hm, rfl⟩ := List.mem_map.mp hmem
      have hne : own.isEmpty = false := by
        cases own with
        | nil => cases hm
        | cons _ _ => rfl
      rw [hne] at hsources
      have hnodup : (memberNames (own.map (takeOver sources))).Nodup :=
        hnames ▸ ownMembers_nodup hown
      have hattributes : attributesOf (own.map (takeOver sources)) m.member.name =
          sources.flatMap (fun ms => attributesOf ms m.member.name) ++ m.attributes :=
        attributesOf_of_mem hnodup (List.mem_map_of_mem hm)
      -- what each source has in full, read within the smaller depth
      let full (u : TypeId) : List Attribute :=
        attributesOf ((s.membersWithin depth u).toOption.getD []) m.member.name
      have hfull : ∀ u ms, s.membersWithin depth u = .ok ms →
          attributesOf ms m.member.name = full u := by
        intro u ms hms
        simp only [full, hms]
        rfl
      rw [hattributes, attributesOf_sources hsources hfull]
      refine .has hown hm rfl fun d hd u hu => ?_
      obtain ⟨ms, -, hms⟩ := mapM_ok_of_mem hsources (mem_sourcesOf.mpr ⟨d, hd, hu⟩)
      exact hfull u ms hms ▸ ih hms
    · rw [attributesOf_of_notMem (hnames ▸ hmem)]
      exact .lacks hown hmem

/-- The members that are read have the attributes of the law, and differ from the own members of the type
in nothing else. -/
def ByLaw (s : Schema) (t : TypeId) (own ms : List MemberInfo) : Prop :=
  List.Forall₂ (fun o m => m = { o with attributes := m.attributes } ∧
    ∀ as, s.Inherits o.member.name t as ↔ as = m.attributes) own ms

/-- **Reading a type gives its own members with the attributes of the law.** -/
theorem Reads.byLaw (h : s.Reads t ms) : ∃ own, s.ownMembers t = .ok own ∧ s.ByLaw t own ms := by
  have hnodup := h.nodup
  obtain ⟨own, sources, hown, rfl⟩ := h.exists_own
  obtain ⟨depth, h⟩ := h
  refine ⟨own, hown, List.forall₂_map_right_iff.mpr (List.forall₂_same.mpr fun o ho => ⟨rfl, ?_⟩)⟩
  have hmem : takeOver sources o ∈ own.map (takeOver sources) := List.mem_map_of_mem ho
  have hlaw : s.Inherits o.member.name t (takeOver sources o).attributes :=
    attributesOf_of_mem hnodup hmem ▸ inherits_of_membersWithin h o.member.name
  intro as
  constructor
  · exact fun has => has.unique hlaw
  · rintro rfl
    exact hlaw

/-! ## 4. Where attributes come from -/

/-- A type has a member of its own of a name, before it takes attributes over. -/
def Lists (s : Schema) (name : String) (t : TypeId) (o : MemberInfo) : Prop :=
  ∃ own, s.ownMembers t = .ok own ∧ o ∈ own ∧ o.member.name = name

/-- A type takes attributes over from another one for its member of a name. -/
def Takes (s : Schema) (name : String) (t u : TypeId) : Prop :=
  (∃ o, s.Lists name t o) ∧ s.Draws t u

variable {o : MemberInfo} {as : List Attribute} {a : Attribute}

theorem Lists.unique {o' : MemberInfo} (h : s.Lists name t o) (h' : s.Lists name t o') : o = o' := by
  obtain ⟨own, hown, ho, hname⟩ := h
  obtain ⟨own', hown', ho', hname'⟩ := h'
  cases hown.symm.trans hown'
  exact eq_of_memberNames (ownMembers_nodup hown) ho ho' (hname.trans hname'.symm)

/-- What a member takes over from its sources, if each of them has what the types behind it have. -/
theorem mem_walk_iff {full : TypeId → List Attribute} (ho : s.Lists name t o)
    (hfull : ∀ u, s.Draws t u → (a ∈ full u ↔
      ∃ v o', ReflTransGen (s.Takes name) u v ∧ s.Lists name v o' ∧ a ∈ o'.attributes)) :
    a ∈ ((s.lineOf t).flatMap fun d => d.inherits.flatMap full) ↔
      ∃ v o', TransGen (s.Takes name) t v ∧ s.Lists name v o' ∧ a ∈ o'.attributes := by
  have hsource : a ∈ ((s.lineOf t).flatMap fun d => d.inherits.flatMap full) ↔
      ∃ u, s.Draws t u ∧ a ∈ full u := by
    rw [← List.flatMap_assoc, List.mem_flatMap]
    exact exists_congr fun u => and_congr_left fun _ => mem_sourcesOf
  rw [hsource]
  constructor
  · rintro ⟨u, hu, ha⟩
    obtain ⟨v, o', hv, ho', ha⟩ := (hfull u hu).mp ha
    exact ⟨v, o', .head' ⟨⟨o, ho⟩, hu⟩ hv, ho', ha⟩
  · rintro ⟨v, o', hv, ho', ha⟩
    obtain ⟨u, ⟨-, hu⟩, hv⟩ := TransGen.head'_iff.mp hv
    exact ⟨u, hu, (hfull u hu).mpr ⟨v, o', hv, ho', ha⟩⟩

/-- The attributes that a name has in full are those of all types that it leads to. -/
theorem Inherits.mem_iff (h : s.Inherits name t as) : a ∈ as ↔
    ∃ v o, ReflTransGen (s.Takes name) t v ∧ s.Lists name v o ∧ a ∈ o.attributes := by
  induction h with
  | @lacks t own hown hlacks =>
    have hnone : ∀ o, ¬ s.Lists name t o := by
      rintro o ⟨own', hown', ho, hname⟩
      cases hown.symm.trans hown'
      exact hlacks (List.mem_map.mpr ⟨o, ho, hname⟩)
    refine iff_of_false List.not_mem_nil ?_
    rintro ⟨v, o, hv, ho, -⟩
    rcases hv.cases_head with rfl | ⟨u, ⟨⟨o', ho'⟩, -⟩, -⟩
    · exact hnone o ho
    · exact hnone o' ho'
  | @has t own m full hown hm hname _ ih =>
    have hlists : s.Lists name t m := ⟨own, hown, hm, hname⟩
    have hwalk := mem_walk_iff (a := a) hlists fun u ⟨d, hd, hu⟩ => ih d hd u hu
    rw [List.mem_append, hwalk]
    constructor
    · rintro (⟨v, o, hv, ho, ha⟩ | ha)
      · exact ⟨v, o, hv.to_reflTransGen, ho, ha⟩
      · exact ⟨t, m, .refl, hlists, ha⟩
    · rintro ⟨v, o, hv, ho, ha⟩
      rcases Relation.reflTransGen_iff_eq_or_transGen.mp hv with rfl | hv
      · exact .inr (ho.unique hlists ▸ ha)
      · exact .inl ⟨v, o, hv, ho, ha⟩

/-- **The attributes of a member are its own ones behind inherited ones**, and those are the own attributes
of the member in all types that it leads to: through sources that have the member too. -/
theorem Inherits.exists_inherited (h : s.Inherits name t as) (ho : s.Lists name t o) :
    ∃ inherited, as = inherited ++ o.attributes ∧ ∀ a, a ∈ inherited ↔
      ∃ u o', TransGen (s.Takes name) t u ∧ s.Lists name u o' ∧ a ∈ o'.attributes := by
  cases h with
  | lacks hown hlacks =>
    obtain ⟨own', hown', ho, hname⟩ := ho
    cases hown.symm.trans hown'
    exact absurd (List.mem_map.mpr ⟨o, ho, hname⟩) hlacks
  | @has _ own m full hown hm hname hfull =>
    have hlists : s.Lists name t m := ⟨own, hown, hm, hname⟩
    obtain rfl := ho.unique hlists
    exact ⟨_, rfl, fun a => mem_walk_iff ho fun u ⟨d, hd, hu⟩ => (hfull d hd u hu).mem_iff⟩

end Schema

/-! ## 5. The rules that members make -/

/-- The attributes that rules check for a member, in their order. -/
def Rule.checksOf (m : MemberRef) (rs : List Rule) : List Attribute :=
  (rs.filter fun r => r.member = m).filterMap Rule.validator

namespace Rule

variable {m : MemberRef} {rs rs' : List Rule}

theorem checksOf_append : checksOf m (rs ++ rs') = checksOf m rs ++ checksOf m rs' := by
  simp [checksOf]

theorem checksOf_eq_nil (h : ∀ r ∈ rs, r.member ≠ m) : checksOf m rs = [] := by
  have hnone : rs.filter (fun r => r.member = m) = [] :=
    List.filter_eq_nil_iff.mpr fun r hr => by simpa using h r hr
  rw [checksOf, hnone, List.filterMap_nil]

/-- What rules check does not depend on their identities. -/
theorem checksOf_value (m : MemberRef) (rs : List Rule) :
    checksOf m (rs.map value) = checksOf m rs := by
  unfold checksOf
  rw [List.filter_map, List.filterMap_map]
  rfl

theorem checksOf_numbered (first : Nat) (m : MemberRef) (rs : List Rule) :
    checksOf m (numbered first rs) = checksOf m rs := by
  rw [← checksOf_value, Action.map_value_numbered, checksOf_value]

end Rule

namespace MemberInfo

variable {s : Schema} {t : TypeId} {m : MemberInfo} {ms : List MemberInfo}

/-- The rules of a member check its attributes, one after the other. -/
theorem checksOf_placedRules (s : Schema) (t : TypeId) (m : MemberInfo) :
    Rule.checksOf m.member (m.placedRules s t) = m.attributes := by
  have hown : (m.placedRules s t).filter (fun r => r.member = m.member) = m.placedRules s t :=
    List.filter_eq_self.mpr fun r hr => by simpa using member_of_mem_placedRules hr
  unfold Rule.checksOf
  rw [hown]
  unfold placedRules
  split
  · rename_i hempty
    rw [List.isEmpty_iff.mp hempty]
    split <;> rfl
  · calc (m.attributes.zipIdx.map fun a => m.declaredRule t a.1 a.2).filterMap Rule.validator
      _ = m.attributes.zipIdx.filterMap (some ∘ Prod.fst) := List.filterMap_map
      _ = m.attributes.zipIdx.map Prod.fst := congrFun List.filterMap_eq_map _
      _ = m.attributes := List.zipIdx_map_fst ..

/-- Among the rules of members with different names, those of a member check its attributes. -/
theorem checksOf_flatMap_placedRules (hnodup : (Schema.memberNames ms).Nodup) (hm : m ∈ ms) :
    Rule.checksOf m.member (ms.flatMap (placedRules s t)) = m.attributes := by
  obtain ⟨front, back, rfl⟩ := List.append_of_mem hm
  unfold Schema.memberNames at hnodup
  rw [List.map_append, List.map_cons, List.nodup_append, List.nodup_cons] at hnodup
  obtain ⟨-, ⟨hback, -⟩, hfront⟩ := hnodup
  have hothers : ∀ ms' : List MemberInfo, (∀ m' ∈ ms', m'.member.name ≠ m.member.name) →
      Rule.checksOf m.member (ms'.flatMap (placedRules s t)) = [] := by
    intro ms' hne
    refine Rule.checksOf_eq_nil fun r hr hmember => ?_
    obtain ⟨m', hm', hr⟩ := List.mem_flatMap.mp hr
    exact hne m' hm' (by rw [← hmember, member_of_mem_placedRules hr])
  rw [List.flatMap_append, List.flatMap_cons, Rule.checksOf_append, Rule.checksOf_append,
    checksOf_placedRules, hothers front, hothers back, List.nil_append, List.append_nil]
  · exact fun m' hm' heq => hback (heq ▸ List.mem_map_of_mem hm')
  · exact fun m' hm' => hfront _ (List.mem_map_of_mem hm') _ List.mem_cons_self

end MemberInfo

namespace Schema

variable {s : Schema} {t : TypeId} {ms : List MemberInfo}

/-- Every comparison among the attributes of members is one with a member of the type. -/
def Resolves (s : Schema) (t : TypeId) (ms : List MemberInfo) : Prop :=
  ∀ m ∈ ms, ∀ a ∈ m.attributes, ∀ other c, a.check = .compare other c → s.hasMember t other = true

theorem requireResolvable_ok_iff {c : Check} : (∃ x, c.requireResolvable s t = .ok x) ↔
    ∀ other cmp, c = .compare other cmp → s.hasMember t other = true := by
  unfold Check.requireResolvable
  split
  · rename_i other cmp
    split
    · rename_i hmember
      refine iff_of_true ⟨(), rfl⟩ fun other' cmp' heq => ?_
      cases heq
      exact hmember
    · rename_i hnot
      refine iff_of_false (fun ⟨_, h⟩ => ?_) fun h => hnot (h other cmp rfl)
      cases h
  · rename_i hnot
    exact iff_of_true ⟨(), rfl⟩ fun other cmp heq => absurd heq (hnot other cmp)

theorem declaredRules_ok_of_member {m : MemberInfo} : (∃ rs, m.declaredRules s t = .ok rs) ↔
    ∀ a ∈ m.attributes, ∃ x, a.check.requireResolvable s t = .ok x := by
  unfold MemberInfo.declaredRules
  split
  · rename_i hempty
    rw [List.isEmpty_iff.mp hempty]
    simp
  · rw [exists_mapM_eq_ok_iff]
    constructor
    · intro h a ha
      obtain ⟨n, hn⟩ := List.mem_iff_getElem?.mp ha
      obtain ⟨r, hr⟩ := h (a, n) (List.mem_zipIdx_iff_getElem?.mpr hn)
      obtain ⟨x, hx, -⟩ := except_bind_eq_ok.mp hr
      exact ⟨x, hx⟩
    · rintro h ⟨a, n⟩ ha
      obtain ⟨x, hx⟩ := h a (List.mem_iff_getElem?.mpr ⟨n, List.mem_zipIdx_iff_getElem?.mp ha⟩)
      exact ⟨m.declaredRule t a n, except_bind_eq_ok.mpr ⟨x, hx, rfl⟩⟩

/-- **Members make rules exactly if their comparisons are with members of the type.** -/
theorem exists_declaredRules_iff : (∃ rs, s.declaredRules t ms = .ok rs) ↔ s.Resolves t ms := by
  have hmembers : (∃ rs, s.declaredRules t ms = .ok rs) ↔
      ∃ rss, ms.mapM (MemberInfo.declaredRules s t) = .ok rss := by
    unfold declaredRules
    cases ms.mapM (MemberInfo.declaredRules s t) <;> simp [Except.map]
  rw [hmembers, exists_mapM_eq_ok_iff]
  refine forall₂_congr fun m _ => declaredRules_ok_of_member.trans ?_
  exact forall₂_congr fun a _ => requireResolvable_ok_iff

end Schema

/-- Types that are named one after the other are taken over from in that order. -/
theorem TypeDecl.inherits_foldl (d : TypeDecl) (applications : List (List TypeId)) :
    (applications.foldl inheritFrom d).inherits = d.inherits ++ applications.flatten := by
  induction applications generalizing d with
  | nil => simp
  | cons sources applications ih =>
    rw [List.foldl_cons, ih, inheritFrom, List.flatten_cons, List.append_assoc]

/-! ## 6. Inheriting -/

/-- The rules of a type check, for each of its members, the attributes that the member has in full. -/
theorem Schema.ByLaw.checksOf {s : Schema} {t : TypeId} {own ms : List MemberInfo} {rs : List Rule}
    (h : s.ByLaw t own ms) (hnodup : (Schema.memberNames ms).Nodup)
    (hrs : rs.map Rule.value = ms.flatMap (MemberInfo.placedRules s t)) :
    ∀ o ∈ own, s.Inherits o.member.name t (Rule.checksOf o.member rs) := by
  intro o ho
  obtain ⟨m, hm, hsame, hlaw⟩ := exists_of_mem_left h ho
  have hmember : m.member = o.member := by rw [hsame]
  refine (hlaw _).mpr ?_
  rw [← hmember, ← Rule.checksOf_value, hrs, MemberInfo.checksOf_flatMap_placedRules hnodup hm]

/-- **What a type inherits**, if the types that it draws from do not lead back to themselves.

* Reflecting the type ends: with its members, or with the fault of reading the own members of a type that
  it leads to.
* Its members are its own ones with the attributes of the law.  They make rules exactly if none of them is
  compared with something that is no member of the type.
* The rules check, for each member, the attributes of the law: inherited ones and then its own.  The
  inherited ones are all own attributes of the same member in the types that it leads to, through sources
  that have the member.
* Sources that are named in several turns stand in the order of these turns. -/
theorem inherits_by_law {e : Engine} {t : TypeId} (hfaithful : e.world.schema.Faithful e.reflected)
    (hacyclic : e.world.schema.Acyclic t) :
    (∀ f, (e.world.schema.reflect t e.reflected).1 = .error f → f ≠ .tooDeep ∧
      ∃ u, ReflTransGen e.world.schema.Draws t u ∧ e.world.schema.ownMembers u = .error f) ∧
    (∀ ms, (e.world.schema.reflect t e.reflected).1 = .ok ms →
      (∃ own, e.world.schema.ownMembers t = .ok own ∧ e.world.schema.ByLaw t own ms) ∧
        ((∃ rs, (Action.declaredRules t e).1 = .ok rs) ↔ e.world.schema.Resolves t ms)) ∧
    (∀ rs, (Action.declaredRules t e).1 = .ok rs →
      ∃ own, e.world.schema.ownMembers t = .ok own ∧ ∀ o ∈ own,
        e.world.schema.Inherits o.member.name t (Rule.checksOf o.member rs) ∧
        ∃ inherited, Rule.checksOf o.member rs = inherited ++ o.attributes ∧ ∀ a, a ∈ inherited ↔
          ∃ u o', TransGen (e.world.schema.Takes o.member.name) t u ∧
            e.world.schema.Lists o.member.name u o' ∧ a ∈ o'.attributes) ∧
    ∀ (d : TypeDecl) (applications : List (List TypeId)),
      (applications.foldl TypeDecl.inheritFrom d).inherits = d.inherits ++ applications.flatten := by
  rw [Schema.reflect_eq_read _ t hfaithful, Action.declaredRules_fst t hfaithful]
  refine ⟨fun f hread => ?_, fun ms hread => ⟨?_, ?_⟩, fun rs hrs => ?_, TypeDecl.inherits_foldl⟩
  · obtain ⟨u, hu, hown⟩ := hacyclic.exists_of_read hread
    refine ⟨?_, u, hu, hown⟩
    rintro rfl
    exact Schema.ownMembers_ne_tooDeep _ u hown
  · exact (Schema.reads_iff.mpr hread).byLaw
  · rw [← Schema.exists_declaredRules_iff, Schema.adapted, hread]
    show (∃ rs, (e.world.schema.declaredRules t ms).map _ = .ok rs) ↔ _
    cases e.world.schema.declaredRules t ms <;> simp [Except.map]
  · cases hadapted : e.world.schema.adapted t with
    | error f =>
      rw [hadapted] at hrs
      cases hrs
    | ok rs₀ =>
      rw [hadapted] at hrs
      cases hrs
      obtain ⟨ms, hread, hrs₀⟩ := Schema.exists_reads_of_adapted hadapted
      obtain ⟨own, hown, hlaw⟩ := hread.byLaw
      refine ⟨own, hown, fun o ho => ?_⟩
      have hchecks := hlaw.checksOf hread.nodup hrs₀ o ho
      rw [Rule.checksOf_numbered]
      exact ⟨hchecks, hchecks.exists_inherited ⟨own, hown, ho, rfl⟩⟩

/-! ### Administrators and visitors

The type of administrators takes over from that of credentials, and derives from the type of accounts,
which takes over from logins, which take over from credentials.  Visitors take over from sessions, and
these from credentials; but a session has no e-mail address. -/

namespace Logins

def credentials : TypeId := .declared "Credentials"

def login : TypeId := .declared "Login"

def account : TypeId := .declared "Account"

def admin : TypeId := .declared "Admin"

def session : TypeId := .declared "Session"

def visitor : TypeId := .declared "Visitor"

/-- The announcement of an e-mail address. -/
def email (attributes : List Attribute) : MemberDecl :=
  ⟨"email", .field (.annotated (.type (.builtin .text)) attributes) none none none⟩

def required : Attribute := { check := .required false }

def long : Attribute := { check := .minLength (.int 8) }

def schema : Schema := ⟨[
  { name := "Credentials", members := [email [required]], line := [credentials] },
  { name := "Login", members := [email [{ check := .email }]], inherits := [credentials]
    line := [login] },
  { name := "Account", members := [email []], inherits := [login], line := [account] },
  { name := "Admin", members := [email [long]], bases := ["Account"], inherits := [credentials]
    line := [admin, account] },
  { name := "Session", members := [⟨"token", .field (.type (.builtin .text)) none none none⟩]
    inherits := [credentials], line := [session] },
  { name := "Visitor", members := [email []], inherits := [session], line := [visitor] }]⟩

def engine : Engine := { world := { schema } }

/-- How far a type stands from credentials. -/
def rank (t : TypeId) : Nat :=
  if t = credentials then 0 else if t = login ∨ t = session then 1 else 2

theorem acyclic (t : TypeId) : schema.Acyclic t :=
  Schema.acyclic_of_rank rank (by decide +kernel) t

/-- The e-mail address of a type, with its own attributes. -/
def address (t : TypeId) (attributes : List Attribute) : MemberInfo :=
  ⟨⟨t, "email", .field⟩, attributes, "email", .type (.builtin .text)⟩

theorem ownMembers_credentials :
    schema.ownMembers credentials = .ok [address credentials [required]] := by cbv

theorem ownMembers_admin : schema.ownMembers admin = .ok [address admin [long]] := by cbv

theorem ownMembers_visitor : schema.ownMembers visitor = .ok [address visitor []] := by cbv

/-- The checks of the e-mail address of a type. -/
def checked (t : TypeId) : Option (List String) :=
  (Action.declaredRules t engine).1.toOption.map fun rs =>
    (Rule.checksOf ⟨t, "email", .field⟩ rs).map fun a => a.check.kind

/-- What credentials ask for is asked of administrators at once and by way of logins. -/
example : checked admin = some ["Required", "Required", "EmailAddress", "MinLength"] := by
  decide +kernel

theorem checked_visitor : checked visitor = some [] := by decide +kernel

end Logins

/-- What credentials ask for is asked of administrators, before anything else. -/
theorem inherits_by_law_admin :
    ∃ rs inherited, (Action.declaredRules Logins.admin Logins.engine).1 = .ok rs ∧
      Rule.checksOf ⟨Logins.admin, "email", .field⟩ rs = inherited ++ [Logins.long] ∧
      Logins.required ∈ inherited := by
  obtain ⟨-, -, hrules, -⟩ := inherits_by_law (Schema.faithful_nil Logins.schema)
    (Logins.acyclic Logins.admin) (e := Logins.engine)
  have hsome : (Action.declaredRules Logins.admin Logins.engine).1.toOption.isSome = true := by
    decide +kernel
  obtain ⟨rs, hrs⟩ := Option.isSome_iff_exists.mp hsome
  obtain ⟨own, hown, hall⟩ := hrules rs (ok_of_toOption hrs)
  cases hown.symm.trans Logins.ownMembers_admin
  obtain ⟨-, inherited, hchecks, hmem⟩ := hall _ (List.mem_singleton.mpr rfl)
  have hdraws : Logins.schema.Draws Logins.admin Logins.credentials :=
    Schema.mem_sourcesOf.mp (by decide +kernel)
  refine ⟨rs, inherited, ok_of_toOption hrs, hchecks, (hmem _).mpr ?_⟩
  exact ⟨Logins.credentials, _, .single ⟨⟨_, _, hown, List.mem_singleton.mpr rfl, rfl⟩, hdraws⟩,
    ⟨_, Logins.ownMembers_credentials, List.mem_singleton.mpr rfl, rfl⟩, List.mem_singleton.mpr rfl⟩

/-- **A type does not inherit from every source that it leads to.**  What credentials ask for is not asked of
visitors: sessions stand between them, and have no e-mail address. -/
theorem not_inherits_all :
    ¬ ∀ (e : Engine) (t : TypeId) (rs : List Rule), e.world.schema.Faithful e.reflected →
      e.world.schema.Acyclic t → (Action.declaredRules t e).1 = .ok rs →
      ∀ name o, e.world.schema.Lists name t o → ∀ u o', TransGen e.world.schema.Draws t u →
        e.world.schema.Lists name u o' → ∀ a ∈ o'.attributes, a ∈ Rule.checksOf o.member rs := by
  intro h
  obtain ⟨rs, hrs, hchecks⟩ := Option.map_eq_some_iff.mp Logins.checked_visitor
  have hnone : Rule.checksOf ⟨Logins.visitor, "email", .field⟩ rs = [] := List.map_eq_nil_iff.mp hchecks
  have hsession : Logins.schema.Draws Logins.visitor Logins.session :=
    Schema.mem_sourcesOf.mp (by decide +kernel)
  have hcredentials : Logins.schema.Draws Logins.session Logins.credentials :=
    Schema.mem_sourcesOf.mp (by decide +kernel)
  have hmem := h Logins.engine Logins.visitor rs (Schema.faithful_nil _) (Logins.acyclic _)
    (ok_of_toOption hrs) "email" (Logins.address Logins.visitor [])
    ⟨_, Logins.ownMembers_visitor, List.mem_singleton.mpr rfl, rfl⟩ Logins.credentials
    (Logins.address Logins.credentials [Logins.required]) (.tail (.single hsession) hcredentials)
    ⟨_, Logins.ownMembers_credentials, List.mem_singleton.mpr rfl, rfl⟩ Logins.required
    (List.mem_singleton.mpr rfl)
  rw [Logins.address, hnone] at hmem
  cases hmem

end MemberRules
