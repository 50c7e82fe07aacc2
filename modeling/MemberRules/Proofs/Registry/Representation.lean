/-
# How a registry is kept in order

A registry can be looked at as three maps: for each type the rules of its members, and the members
themselves, both by the keys of the members, and the marks of types.  The first two have to name the
same members, every rule has to stand with its own member, and no two rules of a member may have the
same key.  Searching for rules relies on the first, and replacing a rule on the others.

The maps name the same members whatever is called.  For the rest, adding a rule looks where the rule
belongs and which key it has, and everything else only takes rules away; but setting the rules of a
member stores them as they are given.  So a registry stays in order exactly as long as the rules that
are set for a member are rules of that member, with different keys.

* `Registry.Tables`, `Registry.tables`: the three maps, and those of a registry.
* `Registry.InOrder`, `Registry.Tables.InOrder`: what is to be kept.
* `Registry.Write`: the calls that write to a registry, on a registry and on the three maps.
* `Registry.Write.tables_apply`, `Registry.inOrder_apply`: what one call does.
* `Registry.written_inOrder_iff`: when a registry stays in order.
* `Registry.set_not_inOrder`: setting rules can break it.
-/
import MemberRules.Proofs.Registry.History

namespace MemberRules
namespace Registry

open MemberRules.Computation

variable {reg : Registry} {t u : TypeId} {k : MemberKey}

/-! ## 1. The rules of a member after a change -/

theorem rulesOfMember_add (r : Rule) : (reg.add u r).rulesOfMember t k =
    if u = t ∧ r.member.key = k then RuleGroup.put r (reg.rulesOfMember t k)
    else reg.rulesOfMember t k := by
  show rulesAt k ((reg.add u r).allGroups t) = _
  rw [allGroups_add_eq]
  exact rulesAt_onGroups t k (.added u r) (reg.allGroups t)

theorem rulesOfMember_removeWhere (member : Option MemberKey) (doomed : Rule → Bool) :
    ((reg.removeWhere u member doomed).rulesOfMember t k).Sublist (reg.rulesOfMember t k) := by
  have hremoved : (reg.removeWhere u member doomed).rulesOfMember t k =
      Event.onRules t k (.removed u member doomed) (reg.rulesOfMember t k) := by
    show rulesAt k ((reg.removeWhere u member doomed).allGroups t) = _
    rw [allGroups_removeWhere]
    exact rulesAt_onGroups t k (.removed u member doomed) (reg.allGroups t)
  rw [hremoved, Event.onRules]
  split
  · exact List.filter_sublist
  · exact .refl _

theorem rulesOfMember_dropType : (reg.dropType u).rulesOfMember t k =
    if u = t then [] else reg.rulesOfMember t k := by
  show rulesAt k ((reg.dropType u).allGroups t) = _
  rw [allGroups_dropType]
  split <;> rfl

/-! ### Setting the rules of a member -/

/-- A group, with its member given anew if it is this one. -/
def renamed (m : MemberRef) (g : RuleGroup) : RuleGroup :=
  if g.member.key == m.key then { g with member := m } else g

@[simp] theorem renamed_key (m : MemberRef) (g : RuleGroup) :
    (renamed m g).member.key = g.member.key := by
  unfold renamed
  split
  · rename_i h
    exact (beq_iff_eq.mp h).symm
  · rfl

@[simp] theorem renamed_rules (m : MemberRef) (g : RuleGroup) : (renamed m g).rules = g.rules := by
  unfold renamed
  split <;> rfl

theorem members_renamed (m : MemberRef) (gs : List RuleGroup) :
    (gs.map (renamed m)).map (fun g => g.member.key) = gs.map fun g => g.member.key := by
  rw [List.map_map]
  exact List.map_congr_left fun g _ => renamed_key m g

theorem rulesAt_renamed (m : MemberRef) (gs : List RuleGroup) :
    rulesAt k (gs.map (renamed m)) = rulesAt k gs := by
  induction gs with
  | nil => rfl
  | cons g gs ih => rw [List.map_cons, rulesAt_cons, rulesAt_cons, renamed_key, renamed_rules, ih]

theorem allGroups_setMember (m : MemberRef) (rs : List Rule) :
    (reg.setMember u m rs).allGroups t =
      if u = t then (RuleGroup.update m (fun _ => rs) (reg.allGroups t)).map (renamed m)
      else reg.allGroups t := by
  unfold setMember updateGroups allGroups
  split
  · rename_i h
    rw [h, lookup_updateEntry]
    rfl
  · rename_i h
    rw [lookup_updateEntry_of_ne (Ne.symm h)]

theorem rulesOfMember_setMember (m : MemberRef) (rs : List Rule) :
    (reg.setMember u m rs).rulesOfMember t k =
      if u = t ∧ m.key = k then rs else reg.rulesOfMember t k := by
  show rulesAt k ((reg.setMember u m rs).allGroups t) = _
  rw [allGroups_setMember]
  by_cases h : u = t
  · simp only [h, if_true, true_and]
    rw [rulesAt_renamed, rulesAt_update]
    rfl
  · simp only [h, if_false, false_and]
    rfl

/-! ## 2. Registries in order -/

/-- Each member of a type once, each rule with its member, and the rules of a member under different
keys. -/
structure InOrder (reg : Registry) : Prop where
  members : ∀ t, ((reg.allGroups t).map fun g => g.member.key).Nodup
  unique : ∀ t k, ((reg.rulesOfMember t k).map Rule.uniqueKey).Nodup
  home : ∀ t k, ∀ r ∈ reg.rulesOfMember t k, r.member.key = k

/-! ### Each member once -/

/-- Each member of a type once. -/
abbrev MembersOnce (reg : Registry) : Prop :=
  ∀ t, ((reg.allGroups t).map fun g => g.member.key).Nodup

theorem nodup_members_update (m : MemberRef) (f : List Rule → List Rule) {gs : List RuleGroup}
    (h : (gs.map fun g => g.member.key).Nodup) :
    ((RuleGroup.update m f gs).map fun g => g.member.key).Nodup := by
  rw [members_update]
  split
  · exact h
  · rename_i hnew
    exact Evolves.nodup (.inr ⟨_, hnew, rfl⟩) h

theorem MembersOnce.add (h : reg.MembersOnce) (r : Rule) : (reg.add u r).MembersOnce := by
  intro t
  rw [allGroups_add_eq]
  split
  · exact nodup_members_update _ _ (h t)
  · exact h t

theorem MembersOnce.setMember (h : reg.MembersOnce) (m : MemberRef) (rs : List Rule) :
    (reg.setMember u m rs).MembersOnce := by
  intro t
  rw [allGroups_setMember]
  split
  · rw [members_renamed]
    exact nodup_members_update _ _ (h t)
  · exact h t

theorem MembersOnce.removeWhere (h : reg.MembersOnce) (member : Option MemberKey)
    (doomed : Rule → Bool) : (reg.removeWhere u member doomed).MembersOnce := by
  intro t
  rw [allGroups_removeWhere]
  split
  · rw [members_withoutDoomed]
    exact h t
  · exact h t

theorem MembersOnce.dropType (h : reg.MembersOnce) : (reg.dropType u).MembersOnce := by
  intro t
  rw [allGroups_dropType]
  split
  · exact List.nodup_nil
  · exact h t

/-! ### What changes do -/

namespace InOrder

theorem empty : InOrder {} where
  members _ := List.nodup_nil
  unique _ _ := List.nodup_nil
  home _ _ _ h := by cases h

/-- A rule of a type stands with its member. -/
theorem mem_rulesOfMember (h : reg.InOrder) {r : Rule} (hr : r ∈ reg.rulesOf t) :
    r ∈ reg.rulesOfMember t r.member.key := by
  obtain ⟨g, hg, hr⟩ := mem_rulesOf_iff.mp hr
  have hgroup : reg.rulesOfMember t g.member.key = g.rules := rulesAt_of_mem (h.members t) hg
  rw [← hgroup] at hr
  rw [h.home t _ r hr]
  exact hr

/-- A rule that is there after adding one is this one, at its member, or was there before. -/
theorem mem_add (h : reg.InOrder) {r x : Rule} (hx : x ∈ (reg.add u r).rulesOfMember t k) :
    x = r ∧ r.member.key = k ∨ x ∈ reg.rulesOfMember t k := by
  rw [rulesOfMember_add] at hx
  split at hx
  · rename_i hthere
    rcases (mem_put (h.unique t k)).mp hx with rfl | ⟨hx, -⟩
    · exact .inl ⟨rfl, hthere.2⟩
    · exact .inr hx
  · exact .inr hx

theorem add (h : reg.InOrder) (r : Rule) : (reg.add u r).InOrder := by
  refine ⟨MembersOnce.add h.members r, fun t k => ?_, fun t k x hx => ?_⟩
  · rw [rulesOfMember_add]
    split
    · rw [map_uniqueKey_put]
      split
      · exact h.unique t k
      · rename_i hnew
        exact Evolves.nodup (.inr ⟨_, hnew, rfl⟩) (h.unique t k)
    · exact h.unique t k
  · rcases h.mem_add hx with ⟨rfl, hk⟩ | hx
    · exact hk
    · exact h.home t k x hx

theorem addAll (h : reg.InOrder) (rs : List Rule) : (reg.addAll u rs).InOrder := by
  induction rs generalizing reg with
  | nil => exact h
  | cons r rs ih => exact ih (h.add r)

theorem mark (h : reg.InOrder) (built : Bool) : (reg.mark u built).InOrder :=
  ⟨h.members, h.unique, h.home⟩

/-- Removing rules keeps a registry in order, whichever they are. -/
theorem removeWhere (h : reg.InOrder) (member : Option MemberKey) (doomed : Rule → Bool) :
    (reg.removeWhere u member doomed).InOrder :=
  have hsub : ∀ t k, ((reg.removeWhere u member doomed).rulesOfMember t k).Sublist
      (reg.rulesOfMember t k) := fun _ _ => rulesOfMember_removeWhere member doomed
  ⟨MembersOnce.removeWhere h.members member doomed,
    fun t k => (h.unique t k).sublist ((hsub t k).map _),
    fun t k r hr => h.home t k r ((hsub t k).subset hr)⟩

theorem dropType (h : reg.InOrder) : (reg.dropType u).InOrder := by
  refine ⟨MembersOnce.dropType h.members, fun t k => ?_, fun t k r hr => ?_⟩
  · rw [rulesOfMember_dropType]
    split
    · exact List.nodup_nil
    · exact h.unique t k
  · rw [rulesOfMember_dropType] at hr
    split at hr
    · cases hr
    · exact h.home t k r hr

/-- Setting rules of a member with different keys. -/
theorem setMember (h : reg.InOrder) {m : MemberRef} {rs : List Rule}
    (hhome : ∀ r ∈ rs, r.member.key = m.key) (hunique : (rs.map Rule.uniqueKey).Nodup) :
    (reg.setMember u m rs).InOrder := by
  refine ⟨MembersOnce.setMember h.members m rs, fun t k => ?_, fun t k r hr => ?_⟩
  · rw [rulesOfMember_setMember]
    split
    · exact hunique
    · exact h.unique t k
  · rw [rulesOfMember_setMember] at hr
    split at hr
    · rename_i hthere
      exact (hhome r hr).trans hthere.2
    · exact h.home t k r hr

end InOrder

/-! ## 3. Three maps -/

/-- The rules and the members of the types by member, and the marks of types. -/
structure Tables where
  rules : List (TypeId × List (MemberKey × List Rule)) := []
  members : List (TypeId × List (MemberKey × MemberRef)) := []
  marks : List (TypeId × Bool) := []

namespace Tables

/-- The rules of a type, by member. -/
def rulesOf (s : Tables) (t : TypeId) : List (MemberKey × List Rule) := (s.rules.lookup t).getD []

/-- The members of a type. -/
def membersOf (s : Tables) (t : TypeId) : List (MemberKey × MemberRef) :=
  (s.members.lookup t).getD []

/-- Adds a rule under the key of its member, and the member if there is none. -/
def add (s : Tables) (t : TypeId) (r : Rule) : Tables :=
  { s with
    rules := updateEntry t [] (updateEntry r.member.key [] (RuleGroup.put r)) s.rules
    members := updateEntry t [] (updateEntry r.member.key r.member id) s.members }

def mark (s : Tables) (t : TypeId) (built : Bool) : Tables :=
  { s with marks := updateEntry t built (fun _ => built) s.marks }

/-- Puts rules under the key of a member, and the member. -/
def set (s : Tables) (t : TypeId) (m : MemberRef) (rs : List Rule) : Tables :=
  { s with
    rules := updateEntry t [] (updateEntry m.key [] fun _ => rs) s.rules
    members := updateEntry t [] (updateEntry m.key m fun _ => m) s.members }

/-- Takes rules away; the members stay. -/
def remove (s : Tables) (t : TypeId) (member : Option MemberKey) (doomed : Rule → Bool) : Tables :=
  { s with rules := s.rules.map fun e =>
      (e.1, if e.1 = t then
        e.2.map fun g =>
          (g.1, if member.all fun k => g.1 == k then g.2.filter fun r => !doomed r else g.2)
      else e.2) }

def drop (s : Tables) (t : TypeId) : Tables where
  rules := s.rules.filter fun e => e.1 != t
  members := s.members.filter fun e => e.1 != t
  marks := s.marks.filter fun e => e.1 != t

/-- Every rule with its own member, and the rules of a member under different keys; and the rules and
the members of each type under the same keys. -/
structure InOrder (s : Tables) : Prop where
  keys : ∀ t, (s.rulesOf t).map Prod.fst = (s.membersOf t).map Prod.fst
  home : ∀ t, ∀ e ∈ s.rulesOf t, ∀ r ∈ e.2, r.member.key = e.1
  unique : ∀ t, ∀ e ∈ s.rulesOf t, (e.2.map Rule.uniqueKey).Nodup

end Tables

/-- The three maps of a registry. -/
def tables (reg : Registry) : Tables where
  rules := reg.groups.map fun e => (e.1, e.2.map fun g => (g.member.key, g.rules))
  members := reg.groups.map fun e => (e.1, e.2.map fun g => (g.member.key, g.member))
  marks := reg.marks

theorem tables_rulesOf (reg : Registry) (t : TypeId) :
    reg.tables.rulesOf t = (reg.allGroups t).map fun g => (g.member.key, g.rules) := by
  unfold Tables.rulesOf tables allGroups
  dsimp only
  rw [lookup_map_entry]
  cases reg.groups.lookup t <;> rfl

theorem tables_membersOf (reg : Registry) (t : TypeId) :
    reg.tables.membersOf t = (reg.allGroups t).map fun g => (g.member.key, g.member) := by
  unfold Tables.membersOf tables allGroups
  dsimp only
  rw [lookup_map_entry]
  cases reg.groups.lookup t <;> rfl

/-- The rules and the members of a type stand under the same keys. -/
theorem keys_tables (reg : Registry) (t : TypeId) :
    (reg.tables.rulesOf t).map Prod.fst = (reg.allGroups t).map (fun g => g.member.key) ∧
    (reg.tables.membersOf t).map Prod.fst = (reg.allGroups t).map fun g => g.member.key := by
  rw [tables_rulesOf, tables_membersOf, List.map_map, List.map_map]
  exact ⟨rfl, rfl⟩

/-- **A registry is in order exactly if its maps are.** -/
theorem tables_inOrder_iff (hmembers : reg.MembersOnce) : reg.tables.InOrder ↔ reg.InOrder := by
  have hgroup : ∀ t, ∀ g ∈ reg.allGroups t, reg.rulesOfMember t g.member.key = g.rules :=
    fun t g hg => rulesAt_of_mem (hmembers t) hg
  have hentry : ∀ t e, e ∈ reg.tables.rulesOf t → e.2 = reg.rulesOfMember t e.1 := by
    intro t e he
    rw [tables_rulesOf] at he
    obtain ⟨g, hg, rfl⟩ := List.mem_map.mp he
    exact (hgroup t g hg).symm
  constructor
  · intro h
    -- a member without an entry has no rules, and nothing is to be shown
    have hmember : ∀ t k, reg.rulesOfMember t k = [] ∨
        (k, reg.rulesOfMember t k) ∈ reg.tables.rulesOf t := by
      intro t k
      by_cases hempty : reg.rulesOfMember t k = []
      · exact .inl hempty
      · obtain ⟨g, hg, rfl, hrules⟩ := mem_of_rulesAt_ne_nil hempty
        rw [tables_rulesOf]
        exact .inr (List.mem_map.mpr ⟨g, hg, Prod.ext rfl hrules⟩)
    refine ⟨hmembers, fun t k => ?_, fun t k r hr => ?_⟩
    · rcases hmember t k with hempty | hmem
      · rw [hempty]
        exact List.nodup_nil
      · exact h.unique t _ hmem
    · rcases hmember t k with hempty | hmem
      · rw [hempty] at hr
        cases hr
      · exact h.home t _ hmem r hr
  · intro h
    refine ⟨fun t => (keys_tables reg t).1.trans (keys_tables reg t).2.symm, fun t e he r hr => ?_,
      fun t e he => ?_⟩
    · rw [hentry t e he] at hr
      exact h.home t e.1 r hr
    · rw [hentry t e he]
      exact h.unique t e.1

/-! ### Changes of the maps -/

/-- A change under a key, seen through what is shown of the entries. -/
theorem map_updateEntry {κ α β : Type} [BEq κ] [LawfulBEq κ] {g : α → β} {f : α → α} {f' : β → β}
    {key : κ} {default : α} {es : List (κ × α)}
    (h : g (f ((es.lookup key).getD default)) = f' (g ((es.lookup key).getD default))) :
    (updateEntry key default f es).map (fun e => (e.1, g e.2)) =
      updateEntry key (g default) f' (es.map fun e => (e.1, g e.2)) := by
  induction es with
  | nil => exact congrArg (fun v => [(key, v)]) h
  | cons e es ih =>
    obtain ⟨key', v⟩ := e
    rw [updateEntry, List.map_cons, updateEntry]
    dsimp only
    by_cases hkey : key' = key
    · subst hkey
      rw [List.lookup_cons, beq_self_eq_true] at h
      rw [if_pos (beq_self_eq_true _), if_pos (beq_self_eq_true _), List.map_cons]
      exact congrArg (fun v => (key', v) :: es.map fun e => (e.1, g e.2)) h
    · rw [List.lookup_cons, beq_eq_false_iff_ne.mpr (Ne.symm hkey)] at h
      rw [if_neg (by simpa using hkey), if_neg (by simpa using hkey), List.map_cons, ih h]

/-- A change of the rules of a member, seen through what is shown of the groups. -/
theorem map_update {β : Type} {g : RuleGroup → β} {f : List Rule → List Rule} {f' : β → β}
    {m : MemberRef} {default : β} (hnew : g ⟨m, f []⟩ = f' default)
    (hold : ∀ x : RuleGroup, g { x with rules := f x.rules } = f' (g x)) {gs : List RuleGroup} :
    (RuleGroup.update m f gs).map (fun x => (x.member.key, g x)) =
      updateEntry m.key default f' (gs.map fun x => (x.member.key, g x)) := by
  induction gs with
  | nil => exact congrArg (fun v => [(m.key, v)]) hnew
  | cons x gs ih =>
    unfold RuleGroup.update updateEntry
    rw [List.map_cons]
    dsimp only
    split
    · rw [List.map_cons, hold]
    · rw [List.map_cons, ih]

theorem rules_update (m : MemberRef) (f : List Rule → List Rule) (gs : List RuleGroup) :
    (RuleGroup.update m f gs).map (fun g => (g.member.key, g.rules)) =
      updateEntry m.key [] f (gs.map fun g => (g.member.key, g.rules)) :=
  map_update (by rfl) fun _ => by rfl

theorem memberRefs_update (m : MemberRef) (f : List Rule → List Rule) (gs : List RuleGroup) :
    (RuleGroup.update m f gs).map (fun g => (g.member.key, g.member)) =
      updateEntry m.key m id (gs.map fun g => (g.member.key, g.member)) :=
  map_update (by rfl) fun _ => by rfl

theorem rules_renamed (m : MemberRef) (gs : List RuleGroup) :
    (gs.map (renamed m)).map (fun g => (g.member.key, g.rules)) =
      gs.map fun g => (g.member.key, g.rules) := by
  rw [List.map_map]
  exact List.map_congr_left fun g _ => Prod.ext (renamed_key m g) (renamed_rules m g)

/-- Where each member stands once, giving a member anew changes one entry. -/
theorem memberRefs_renamed (m : MemberRef) (rs : List Rule) {gs : List RuleGroup}
    (h : (gs.map fun g => g.member.key).Nodup) :
    ((RuleGroup.update m (fun _ => rs) gs).map (renamed m)).map
        (fun g => (g.member.key, g.member)) =
      updateEntry m.key m (fun _ => m) (gs.map fun g => (g.member.key, g.member)) := by
  induction gs with
  | nil => simp [RuleGroup.update, updateEntry, renamed]
  | cons g gs ih =>
    obtain ⟨hg, hgs⟩ := List.nodup_cons.mp h
    unfold RuleGroup.update updateEntry
    rw [List.map_cons]
    dsimp only
    split
    · rename_i hkey
      have hrest : gs.map (renamed m) = gs := by
        conv_rhs => rw [← List.map_id gs]
        refine List.map_congr_left fun x hx => ?_
        have hne : x.member.key ≠ m.key := fun heq =>
          hg (List.mem_map.mpr ⟨x, hx, heq.trans (beq_iff_eq.mp hkey).symm⟩)
        exact if_neg (by simpa using hne)
      rw [List.map_cons, List.map_cons, hrest, renamed_key]
      simp [renamed, hkey]
    · rename_i hkey
      rw [List.map_cons, List.map_cons, ih hgs, renamed_key, renamed, if_neg hkey]

theorem tables_add (r : Rule) : (reg.add u r).tables = reg.tables.add u r := by
  unfold tables add updateGroups Tables.add
  dsimp only
  rw [map_updateEntry (rules_update _ _ _), map_updateEntry (memberRefs_update _ _ _)]
  rfl

theorem tables_addAll (rs : List Rule) :
    (reg.addAll u rs).tables = rs.foldl (fun s r => s.add u r) reg.tables := by
  induction rs generalizing reg with
  | nil => rfl
  | cons r rs ih =>
    have hcons : reg.addAll u (r :: rs) = (reg.add u r).addAll u rs := rfl
    rw [hcons, ih, tables_add]
    rfl

theorem tables_removeWhere (member : Option MemberKey) (doomed : Rule → Bool) :
    (reg.removeWhere u member doomed).tables = reg.tables.remove u member doomed := by
  have hkey : ∀ g, (withoutDoomed member doomed g).member = g.member := fun g => by
    unfold withoutDoomed
    split <;> rfl
  unfold tables Tables.remove
  rw [groups_removeWhere, List.map_map, List.map_map, List.map_map]
  congr 1
  · refine List.map_congr_left fun e _ => Prod.ext rfl ?_
    dsimp only [Function.comp]
    split
    · rw [List.map_map, List.map_map]
      refine List.map_congr_left fun g _ => Prod.ext (congrArg MemberRef.key (hkey g)) ?_
      dsimp only [Function.comp, withoutDoomed]
      split <;> rfl
    · rfl
  · refine List.map_congr_left fun e _ => Prod.ext rfl ?_
    dsimp only [Function.comp]
    split
    · rw [List.map_map]
      exact List.map_congr_left fun g _ => by rw [Function.comp, hkey]
    · rfl

theorem tables_dropType : (reg.dropType u).tables = reg.tables.drop u := by
  unfold tables dropType Tables.drop
  rw [List.filter_map, List.filter_map]
  rfl

/-- Where each member stands once, setting the rules of a member sets its entries. -/
theorem tables_setMember (h : reg.MembersOnce) (m : MemberRef) (rs : List Rule) :
    (reg.setMember u m rs).tables = reg.tables.set u m rs := by
  have hrules : ∀ gs, ((RuleGroup.update m (fun _ => rs) gs).map (renamed m)).map
      (fun g => (g.member.key, g.rules)) =
        updateEntry m.key [] (fun _ => rs) (gs.map fun g => (g.member.key, g.rules)) := fun gs => by
    rw [rules_renamed, rules_update]
  unfold tables setMember updateGroups Tables.set
  dsimp only
  rw [map_updateEntry (hrules _), map_updateEntry (memberRefs_renamed m rs (h u))]
  rfl

/-! ## 4. Calls -/

/-- A call that writes to a registry. -/
inductive Write
  | call (c : Call)
  /-- Replaces all rules of a member. -/
  | set (t : TypeId) (m : MemberRef) (rs : List Rule)

namespace Write

/-- Runs a call on the registry of an engine. -/
def run : Write → Action Nat
  | call c => c.run
  | set t m rs => do
    Action.updateRegistry fun reg => reg.setMember t m rs
    return 0

/-- The registry after a call. -/
def apply : Write → Registry → Registry
  | call c, reg => c.apply reg
  | set t m rs, reg => reg.setMember t m rs

/-- The three maps after a call. -/
def onTables : Write → Tables → Tables
  | call (.add t r), s => s.add t r
  | call (.addAll t rs built), s =>
    let s := rs.foldl (fun s r => s.add t r) s
    if built then s.mark t true else s
  | call (.remove t member kind wanted), s =>
    s.remove t (member.map MemberRef.key) fun r => kind.all r.checkIsOfKind && wanted r
  | call (.forget t), s => s.drop t
  | call (.mark t built), s => s.mark t built
  | call .clear, _ => {}
  | set t m rs, s => s.set t m rs

/-- A call that sets rules of a member only for that member, and under different keys. -/
def SetsInOrder : Write → Prop
  | call _ => True
  | set _ m rs => (∀ r ∈ rs, r.member.key = m.key) ∧ (rs.map Rule.uniqueKey).Nodup

theorem run_apply (w : Write) (e : Engine) :
    ∃ n e', w.run e = (.ok n, e') ∧ e'.registry = w.apply e.registry := by
  cases w with
  | call c =>
    obtain ⟨n, e', hrun, hreg, -⟩ := c.run_apply e
    exact ⟨n, e', hrun, hreg⟩
  | set t m rs => exact ⟨0, { e with registry := e.registry.setMember t m rs }, rfl, rfl⟩

theorem membersOnce_apply (w : Write) (h : reg.MembersOnce) : (w.apply reg).MembersOnce := by
  have haddAll : ∀ t rs, (reg.addAll t rs).MembersOnce := by
    intro t rs
    induction rs generalizing reg with
    | nil => exact h
    | cons r rs ih => exact ih (h.add r)
  cases w with
  | call c =>
    cases c with
    | add t r => exact h.add r
    | addAll t rs built => cases built <;> exact haddAll t rs
    | remove t member kind wanted => exact h.removeWhere _ _
    | forget t => exact h.dropType
    | mark t built => exact h
    | clear => exact fun t => List.nodup_nil
  | set t m rs => exact h.setMember m rs

/-- **What a call does to the three maps of a registry.** -/
theorem tables_apply (w : Write) (h : reg.MembersOnce) :
    (w.apply reg).tables = w.onTables reg.tables := by
  cases w with
  | call c =>
    cases c with
    | add t r => exact tables_add r
    | addAll t rs built =>
      have haddAll : (reg.addAll t rs).tables = rs.foldl (fun s r => s.add t r) reg.tables :=
        tables_addAll rs
      cases built with
      | true => exact congrArg (fun s => Tables.mark s t true) haddAll
      | false => exact haddAll
    | remove t member kind wanted => exact tables_removeWhere _ _
    | forget t => exact tables_dropType
    | mark t built => rfl
    | clear => rfl
  | set t m rs => exact tables_setMember h m rs

/-- **A call keeps a registry in order**, unless it sets rules that are not. -/
theorem inOrder_apply {w : Write} (hw : w.SetsInOrder) (h : reg.InOrder) :
    (w.apply reg).InOrder := by
  cases w with
  | call c =>
    cases c with
    | add t r => exact h.add r
    | addAll t rs built =>
      cases built with
      | true => exact (h.addAll rs).mark true
      | false => exact h.addAll rs
    | remove t member kind wanted => exact h.removeWhere _ _
    | forget t => exact h.dropType
    | mark t built => exact h.mark built
    | clear => exact .empty
  | set t m rs => exact h.setMember hw.1 hw.2

/-- **What sets rules that are not in order breaks the order**, whatever was there. -/
theorem setsInOrder_of_inOrder {w : Write} (h : (w.apply reg).InOrder) : w.SetsInOrder := by
  cases w with
  | call c => trivial
  | set t m rs =>
    have hrules : ((set t m rs).apply reg).rulesOfMember t m.key = rs :=
      (rulesOfMember_setMember m rs).trans (if_pos ⟨rfl, rfl⟩)
    have hhome := h.home t m.key
    have hunique := h.unique t m.key
    rw [hrules] at hhome hunique
    exact ⟨hhome, hunique⟩

end Write

/-- Runs calls one after the other. -/
def runWrites (ws : List Write) : Action Unit := ws.forM fun w => do
  let _ ← w.run

/-- The registry after calls. -/
def afterWrites (ws : List Write) (reg : Registry) : Registry :=
  ws.foldl (fun reg w => w.apply reg) reg

/-- The three maps after calls, from empty ones. -/
def Tables.afterWrites (ws : List Write) : Tables := ws.foldl (fun s w => w.onTables s) {}

theorem runWrites_apply (ws : List Write) (e : Engine) :
    ∃ e', runWrites ws e = (.ok (), e') ∧ e'.registry = afterWrites ws e.registry := by
  induction ws generalizing e with
  | nil => exact ⟨e, rfl, rfl⟩
  | cons w ws ih =>
    obtain ⟨n, e₁, hrun, hreg⟩ := w.run_apply e
    obtain ⟨e', hruns, hafter⟩ := ih e₁
    have hfirst : (do let _ ← w.run : Action Unit) e = (.ok (), e₁) := bind_ok hrun
    refine ⟨e', (bind_ok hfirst).trans hruns, ?_⟩
    rw [hafter, hreg]
    rfl

theorem afterWrites_snoc (ws : List Write) (w : Write) :
    afterWrites (ws ++ [w]) reg = w.apply (afterWrites ws reg) := by
  unfold afterWrites
  rw [List.foldl_append]
  rfl

/-- From the empty registry on, each member stands once and the maps are those that calls lead to. -/
theorem afterWrites_tables (ws : List Write) :
    (afterWrites ws {}).MembersOnce ∧ (afterWrites ws {}).tables = Tables.afterWrites ws := by
  induction ws using List.reverseRecOn with
  | nil => exact ⟨fun t => List.nodup_nil, rfl⟩
  | append_singleton ws w ih =>
    obtain ⟨honce, htables⟩ := ih
    rw [afterWrites_snoc, Write.tables_apply w honce, htables]
    refine ⟨w.membersOnce_apply honce, ?_⟩
    unfold Tables.afterWrites
    rw [List.foldl_append]
    rfl

theorem inOrder_afterWrites {ws : List Write} (hws : ∀ w ∈ ws, w.SetsInOrder) :
    (afterWrites ws {}).InOrder := by
  induction ws using List.reverseRecOn with
  | nil => exact .empty
  | append_singleton ws w ih =>
    rw [afterWrites_snoc]
    have hbefore := ih fun w hw => hws w (List.mem_append_left _ hw)
    exact Write.inOrder_apply (hws w (by simp)) hbefore

/-! ## 5. When a registry stays in order -/

/-- **When a registry stays in order.**  All calls end well and lead to the same maps on the registry
and on the maps alone.  In these the rules and the members of a type always stand under the same keys,
each once; and they are in order all the time exactly if every call that sets the rules of a member
gives rules of this member, under different keys. -/
theorem written_inOrder_iff (ws : List Write) (e : Engine) :
    ∃ e', runWrites ws { e with registry := {} } = (.ok (), e') ∧
      e'.registry.tables = Tables.afterWrites ws ∧
      (∀ t, (e'.registry.tables.rulesOf t).map Prod.fst =
          (e'.registry.tables.membersOf t).map Prod.fst ∧
        ((e'.registry.tables.rulesOf t).map Prod.fst).Nodup) ∧
      ((∀ before, before <+: ws → (Tables.afterWrites before).InOrder) ↔
        ∀ t m rs, Write.set t m rs ∈ ws →
          (∀ r ∈ rs, r.member.key = m.key) ∧ (rs.map Rule.uniqueKey).Nodup) := by
  obtain ⟨e', hruns, hafter⟩ := runWrites_apply ws { e with registry := {} }
  obtain ⟨honce, htables⟩ := afterWrites_tables ws
  refine ⟨e', hruns, hafter ▸ htables, fun t => ?_, fun h t m rs hmem => ?_, fun h before hbefore => ?_⟩
  · rw [hafter, (keys_tables _ t).1, (keys_tables _ t).2]
    exact ⟨rfl, honce t⟩
  · obtain ⟨before, after, rfl⟩ := List.append_of_mem hmem
    have hset := h (before ++ [.set t m rs]) ⟨after, by simp⟩
    obtain ⟨hset_once, hset_tables⟩ := afterWrites_tables (before ++ [.set t m rs])
    rw [← hset_tables, tables_inOrder_iff hset_once, afterWrites_snoc] at hset
    exact Write.setsInOrder_of_inOrder hset
  · obtain ⟨hbefore_once, hbefore_tables⟩ := afterWrites_tables before
    rw [← hbefore_tables, tables_inOrder_iff hbefore_once]
    refine inOrder_afterWrites fun w hw => ?_
    cases w with
    | call c => trivial
    | set t m rs => exact h t m rs (hbefore.subset hw)

/-! ### Two rules under one key -/

namespace Mailbox

def user : TypeId := .declared "User"

def email : MemberRef := { declaring := user, name := "email" }

/-- A rule that an address is needed. -/
def needed (id : Nat) : Rule :=
  { id
    member := email
    validator := some { check := .required false }
    uniqueKey := .named "needed" }

end Mailbox

/-- **A registry does not always stay in order**: rules that are set for a member are kept as they are
given, two rules under one key as well. -/
theorem set_not_inOrder : ¬ ∀ (ws : List Write) (e e' : Engine),
    runWrites ws { e with registry := {} } = (.ok (), e') → e'.registry.tables.InOrder := by
  intro h
  have horder := h [.set Mailbox.user Mailbox.email [Mailbox.needed 0, Mailbox.needed 1]] {} _ rfl
  have hunique := horder.unique Mailbox.user (Mailbox.email.key, [Mailbox.needed 0, Mailbox.needed 1])
    List.mem_cons_self
  revert hunique
  decide

end Registry
end MemberRules
