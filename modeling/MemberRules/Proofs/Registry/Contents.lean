/-
# What a registry holds

A registry holds the rules of a type member by member, and whether they are complete.  Rules that are
added stay visible under their keys: a rule takes the place of an older one with its key, and nothing
else makes room for it.

* `Registry.keysOf`: the keys of the rules of a type.
* `Registry.mem_keysOf_addAll`: rules that were added are there, by their keys.
* `Registry.shown`, `Registry.Same`: what a registry holds for a type, by value.
-/
import MemberRules.Rule.Waiting

namespace MemberRules

variable {reg reg' : Registry} {t u : TypeId}

/-! ## 1. Look-ups after changes -/

theorem lookup_updateEntry {κ α : Type} [BEq κ] [LawfulBEq κ] (k : κ) (default : α) (f : α → α)
    (es : List (κ × α)) :
    (updateEntry k default f es).lookup k = some (f ((es.lookup k).getD default)) := by
  induction es with
  | nil => simp [updateEntry]
  | cons e es ih =>
    obtain ⟨k', v⟩ := e
    by_cases h : k' = k
    · simp [updateEntry, h]
    · have hne : (k' == k) = false := beq_eq_false_iff_ne.mpr h
      have hne' : (k == k') = false := beq_eq_false_iff_ne.mpr (Ne.symm h)
      simp only [updateEntry, hne, List.lookup_cons, hne', Bool.false_eq_true, if_false]
      exact ih

theorem lookup_updateEntry_of_ne {κ α : Type} [BEq κ] [LawfulBEq κ] {k k' : κ} (h : k' ≠ k)
    (default : α) (f : α → α) (es : List (κ × α)) :
    (updateEntry k default f es).lookup k' = es.lookup k' := by
  have hne : (k' == k) = false := beq_eq_false_iff_ne.mpr h
  induction es with
  | nil => simp [updateEntry, h]
  | cons e es ih =>
    obtain ⟨k₁, v⟩ := e
    unfold updateEntry
    by_cases h₁ : k₁ = k
    · subst h₁
      simp [List.lookup_cons, hne]
    · rw [if_neg (by simpa using h₁), List.lookup_cons, List.lookup_cons, ih]

/-- A change under a key keeps the keys, and adds this one if it was not there. -/
theorem keys_updateEntry {κ α : Type} [BEq κ] [LawfulBEq κ] (k : κ) (default : α) (f : α → α)
    (es : List (κ × α)) : (updateEntry k default f es).map Prod.fst =
      if (es.map Prod.fst).contains k then es.map Prod.fst else es.map Prod.fst ++ [k] := by
  induction es with
  | nil => rfl
  | cons e es ih =>
    obtain ⟨k₁, v⟩ := e
    unfold updateEntry
    by_cases h₁ : k₁ = k
    · subst h₁
      simp
    · have hne : (k == k₁) = false := beq_eq_false_iff_ne.mpr (Ne.symm h₁)
      rw [if_neg (by simpa using h₁), List.map_cons, ih, List.map_cons, List.contains_cons, hne,
        Bool.false_or]
      split <;> rfl

namespace Registry

theorem allGroups_add (r : Rule) :
    (reg.add t r).allGroups t = RuleGroup.update r.member (RuleGroup.put r) (reg.allGroups t) := by
  unfold add updateGroups allGroups
  rw [lookup_updateEntry, Option.getD_some]

theorem isBuilt_mark (built : Bool) : (reg.mark t built).isBuilt t = built := by
  unfold mark isBuilt
  rw [lookup_updateEntry, Option.getD_some]

theorem marks_addAll (reg : Registry) (t : TypeId) (rs : List Rule) :
    (reg.addAll t rs).marks = reg.marks := by
  induction rs generalizing reg with
  | nil => rfl
  | cons r rs ih => exact ih (reg.add t r)

/-- Members without rules do not show in the rules of a type. -/
theorem mem_rulesOf_iff {r : Rule} : r ∈ reg.rulesOf t ↔ ∃ g ∈ reg.allGroups t, r ∈ g.rules := by
  unfold rulesOf groupsOf
  constructor
  · intro h
    obtain ⟨g, hg, hr⟩ := List.mem_flatMap.mp h
    exact ⟨g, (List.mem_filter.mp hg).1, hr⟩
  · rintro ⟨g, hg, hr⟩
    refine List.mem_flatMap.mpr ⟨g, List.mem_filter.mpr ⟨hg, ?_⟩, hr⟩
    cases hrules : g.rules with
    | nil =>
      rw [hrules] at hr
      cases hr
    | cons x xs => rfl

/-! ## 2. Keys of rules -/

/-- The keys of the rules of a type. -/
def keysOf (reg : Registry) (t : TypeId) : List UniqueKey := (reg.rulesOf t).map Rule.uniqueKey

theorem mem_keysOf_iff {k : UniqueKey} :
    k ∈ reg.keysOf t ↔ ∃ g ∈ reg.allGroups t, k ∈ g.rules.map Rule.uniqueKey := by
  constructor
  · intro h
    obtain ⟨r, hr, rfl⟩ := List.mem_map.mp h
    obtain ⟨g, hg, hr⟩ := mem_rulesOf_iff.mp hr
    exact ⟨g, hg, List.mem_map_of_mem hr⟩
  · rintro ⟨g, hg, h⟩
    obtain ⟨r, hr, rfl⟩ := List.mem_map.mp h
    exact List.mem_map_of_mem (mem_rulesOf_iff.mpr ⟨g, hg, hr⟩)

/-- A rule that is put among rules is there, and the others are still there, by their keys. -/
theorem mem_put_iff {r : Rule} {rs : List Rule} {k : UniqueKey} :
    k ∈ (RuleGroup.put r rs).map Rule.uniqueKey ↔
      k = r.uniqueKey ∨ k ∈ rs.map Rule.uniqueKey := by
  induction rs with
  | nil => simp [RuleGroup.put]
  | cons x xs ih =>
    unfold RuleGroup.put
    by_cases h : x.uniqueKey = r.uniqueKey
    · simp [h]
    · have hne : (x.uniqueKey == r.uniqueKey) = false := beq_eq_false_iff_ne.mpr h
      rw [hne]
      simp only [Bool.false_eq_true, if_false, List.map_cons, List.mem_cons, ih]
      exact or_left_comm

theorem mem_update_put_iff {r : Rule} {gs : List RuleGroup} {k : UniqueKey} :
    (∃ g ∈ RuleGroup.update r.member (RuleGroup.put r) gs, k ∈ g.rules.map Rule.uniqueKey) ↔
      k = r.uniqueKey ∨ ∃ g ∈ gs, k ∈ g.rules.map Rule.uniqueKey := by
  induction gs with
  | nil => simp [RuleGroup.update, RuleGroup.put, eq_comm]
  | cons g gs ih =>
    unfold RuleGroup.update
    cases h : g.member.key == r.member.key with
    | true => simp only [if_true, List.mem_cons, exists_eq_or_imp, mem_put_iff, or_assoc]
    | false =>
      simp only [Bool.false_eq_true, if_false, List.mem_cons, exists_eq_or_imp, ih]
      exact or_left_comm

theorem mem_keysOf_add {r : Rule} {k : UniqueKey} :
    k ∈ (reg.add t r).keysOf t ↔ k = r.uniqueKey ∨ k ∈ reg.keysOf t := by
  rw [mem_keysOf_iff, allGroups_add, mem_update_put_iff, ← mem_keysOf_iff]

/-- **Rules that were added are there**, by their keys, and those that were there still are. -/
theorem mem_keysOf_addAll {rs : List Rule} {k : UniqueKey} :
    k ∈ (reg.addAll t rs).keysOf t ↔ k ∈ rs.map Rule.uniqueKey ∨ k ∈ reg.keysOf t := by
  induction rs generalizing reg with
  | nil => simp [addAll]
  | cons r rs ih =>
    have hcons : reg.addAll t (r :: rs) = (reg.add t r).addAll t rs := rfl
    rw [hcons, ih, mem_keysOf_add, List.map_cons, List.mem_cons, or_assoc]
    exact or_left_comm

end Registry

/-! ## 3. What there is for a type -/

/-- A rule by value: without the identity under which changes reach it. -/
def Rule.value (r : Rule) : Rule := { r with id := 0 }

/-- The rules of a member by value. -/
def RuleGroup.value (g : RuleGroup) : RuleGroup := { g with rules := g.rules.map Rule.value }

namespace Registry

/-- The rules of a type member by member, by value. -/
def shown (reg : Registry) (t : TypeId) : List RuleGroup := (reg.groupsOf t).map RuleGroup.value

/-- A registry that holds for a type what another one holds: the same rules, complete or not. -/
structure Same (t : TypeId) (reg reg' : Registry) : Prop where
  rules : reg'.shown t = reg.shown t
  built : reg'.isBuilt t = reg.isBuilt t
  known : reg'.knows t = reg.knows t

theorem Same.trans {reg₁ reg₂ reg₃ : Registry} (h : Same t reg₁ reg₂) (h' : Same t reg₂ reg₃) :
    Same t reg₁ reg₃ :=
  ⟨h'.rules.trans h.rules, h'.built.trans h.built, h'.known.trans h.known⟩

theorem rulesOf_map_value : (reg.rulesOf t).map Rule.value = (reg.shown t).flatMap RuleGroup.rules := by
  unfold rulesOf shown
  rw [List.map_flatMap, List.flatMap_map]
  rfl

theorem keysOf_eq_shown :
    reg.keysOf t = (reg.shown t).flatMap fun g => g.rules.map Rule.uniqueKey := by
  unfold keysOf
  rw [← List.map_flatMap, ← rulesOf_map_value, List.map_map]
  rfl

/-- A type whose rules are complete is known. -/
theorem knows_of_isBuilt (h : reg.isBuilt t = true) : reg.knows t = true := by
  unfold isBuilt at h
  unfold knows
  cases hm : reg.marks.lookup t with
  | none => simp [hm] at h
  | some b => rfl

/-! ### Changes of other types -/

theorem allGroups_add_of_ne (h : u ≠ t) (r : Rule) : (reg.add t r).allGroups u = reg.allGroups u := by
  unfold add updateGroups allGroups
  rw [lookup_updateEntry_of_ne h]

theorem knows_add (r : Rule) : (reg.add t r).knows u = (reg.knows u || u == t) := by
  unfold add updateGroups knows
  by_cases h : u = t
  · subst h
    simp [lookup_updateEntry]
  · have hne : (u == t) = false := beq_eq_false_iff_ne.mpr h
    simp [lookup_updateEntry_of_ne h, hne]

/-- Adding rules of a type does not show in other types. -/
theorem same_addAll (h : u ≠ t) (rs : List Rule) : Same u reg (reg.addAll t rs) := by
  induction rs generalizing reg with
  | nil => exact ⟨rfl, rfl, rfl⟩
  | cons r rs ih =>
    have hadd : Same u reg (reg.add t r) := by
      refine ⟨?_, rfl, ?_⟩
      · unfold shown groupsOf
        rw [allGroups_add_of_ne h]
      · rw [knows_add, beq_eq_false_iff_ne.mpr h, Bool.or_false]
    exact hadd.trans ih

/-- Marking a type does not show in other types. -/
theorem same_mark (h : u ≠ t) (built : Bool) : Same u reg (reg.mark t built) := by
  refine ⟨rfl, ?_, ?_⟩
  · unfold mark isBuilt
    rw [lookup_updateEntry_of_ne h]
  · unfold mark knows
    rw [lookup_updateEntry_of_ne h]

/-! ## 4. Registries that hold the same -/

/-- A registry that holds for every type what another one holds, of the same types. -/
structure Like (reg reg' : Registry) : Prop where
  types : reg'.types = reg.types
  same : ∀ t, Same t reg reg'

theorem Like.refl (reg : Registry) : Like reg reg := ⟨rfl, fun _ => ⟨rfl, rfl, rfl⟩⟩

theorem types_add (r : Rule) : (reg.add t r).types =
    if reg.types.contains t then reg.types else reg.types ++ [t] :=
  keys_updateEntry t [] (RuleGroup.update r.member (RuleGroup.put r)) reg.groups

/-- Adding a rule of a type, if not only the rules of the type are the same, but also the members
that have none. -/
theorem Like.add (h : Like reg reg') (ht : reg'.allGroups t = reg.allGroups t) (r : Rule) :
    Like (reg.add t r) (reg'.add t r) ∧ (reg'.add t r).allGroups t = (reg.add t r).allGroups t := by
  have hadded : (reg'.add t r).allGroups t = (reg.add t r).allGroups t := by
    rw [allGroups_add, allGroups_add, ht]
  refine ⟨⟨?_, fun u => ⟨?_, (h.same u).built, ?_⟩⟩, hadded⟩
  · rw [types_add, types_add, h.types]
  · unfold shown groupsOf
    by_cases hu : u = t
    · rw [hu, hadded]
    · rw [allGroups_add_of_ne hu, allGroups_add_of_ne hu]
      exact (h.same u).rules
  · rw [knows_add, knows_add, (h.same u).known]

theorem Like.addAll (h : Like reg reg') (ht : reg'.allGroups t = reg.allGroups t) (rs : List Rule) :
    Like (reg.addAll t rs) (reg'.addAll t rs) := by
  induction rs generalizing reg reg' with
  | nil => exact h
  | cons r rs ih =>
    obtain ⟨hlike, hgroups⟩ := h.add ht r
    exact ih hlike hgroups

theorem Like.mark (h : Like reg reg') (t : TypeId) : Like (reg.mark t) (reg'.mark t) := by
  refine ⟨h.types, fun u => ?_⟩
  by_cases hu : u = t
  · subst hu
    refine ⟨(h.same u).rules, by rw [isBuilt_mark, isBuilt_mark], ?_⟩
    rw [knows_of_isBuilt (isBuilt_mark true), knows_of_isBuilt (isBuilt_mark true)]
  · have hmarked : Same u reg (reg.mark t) := same_mark hu true
    have hmarked' : Same u reg' (reg'.mark t) := same_mark hu true
    exact ⟨(h.same u).rules, (hmarked'.built.trans (h.same u).built).trans hmarked.built.symm,
      (hmarked'.known.trans (h.same u).known).trans hmarked.known.symm⟩

theorem allGroups_of_not_knows (h : reg.knows t = false) : reg.allGroups t = [] := by
  unfold knows at h
  have hnone : reg.groups.lookup t = none := by
    simpa using (Bool.or_eq_false_iff.mp h).2
  rw [allGroups, hnone, Option.getD_none]

/-- **Rules of a type that was not known** make no difference to what two registries hold. -/
theorem Like.register (h : Like reg reg') (hnew : reg.knows t = false) (rs : List Rule) :
    Like ((reg.addAll t rs).mark t) ((reg'.addAll t rs).mark t) := by
  have hnew' : reg'.knows t = false := (h.same t).known.trans hnew
  refine (h.addAll ?_ rs).mark t
  rw [allGroups_of_not_knows hnew, allGroups_of_not_knows hnew']

/-! ## 5. Searching registries that hold the same -/

/-- The search for rules that wait sees the rules by value. -/
theorem searchRules_map_value (carried : TypeId → Except Fault Bool)
    (nested : TypeId → List TypeId → Visit) (rs : List Rule) (seen : List TypeId) :
    searchRules carried nested (rs.map Rule.value) seen = searchRules carried nested rs seen := by
  induction rs generalizing seen with
  | nil => rfl
  | cons r rs ih =>
    rw [List.map_cons]
    unfold searchRules
    simp only [ih]
    rfl

theorem Like.searchType (h : Like reg reg') (n : Nat) (asked : List TypeId) (t : TypeId)
    (seen : List TypeId) : reg'.searchType n asked t seen = reg.searchType n asked t seen := by
  induction n generalizing asked t seen with
  | zero => rfl
  | succ n ih =>
    have hrules : (reg'.rulesOf t).map Rule.value = (reg.rulesOf t).map Rule.value := by
      rw [rulesOf_map_value, rulesOf_map_value, (h.same t).rules]
    have hnested : reg'.searchType n asked = reg.searchType n asked :=
      funext fun u => funext fun seen => ih asked u seen
    unfold Registry.searchType
    simp only [ih]
    rw [← searchRules_map_value, hrules, searchRules_map_value, hnested]

/-- **Registries that hold the same** give the same answer to whether a type may have to wait. -/
theorem Like.waits (h : Like reg reg') (t : TypeId) : reg'.waits t = reg.waits t := by
  unfold Registry.waits searchDepth
  rw [h.types, h.searchType]

end Registry
end MemberRules
