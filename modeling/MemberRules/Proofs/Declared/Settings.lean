/-
# What is set for declared rules

A declared rule has a gate, may have a message and a code of its own, and may name a resource
string.  Steps can set each of these items, and the rules that come from a declaration carry what was
set.  Rules are registered one after the other, and the last one under the key of a declared rule
takes its place.

This file says what several changes of the items come to, if each is made on top of those before it
and if the last one is made alone, and what registering rules does to the declared ones.

* `Change`, `Change.onto`, `Change.latest`, `Change.last`: changes, and what several come to.
* `Change.last_onto_eq_iff`: when the last change makes up for all of them.
* `Registry.declaredAt`, `Rule.standing`: the declared rules of a member, and how they stand.
* `Registry.standing_addAll`: how declared rules stand after rules have been registered.
-/
import Mathlib.Data.List.Nodup
import MemberRules.Proofs.Configuration.Keyed

namespace MemberRules

/-! ## 1. What is set for declared rules -/

/-- What steps can set for a declared rule. -/
structure Rule.Settings where
  gate : Gate
  message : Option MessageSource
  errorKey : Option String
  resourceKey : Option String

def Rule.settings (r : Rule) : Rule.Settings := ⟨r.gate, r.message, r.errorKey, r.resourceKey⟩

/-- What a block of steps sets, item by item; `none` for an item that it does not set. -/
structure Change where
  gate : Option Gate := none
  message : Option MessageSource := none
  errorKey : Option String := none
  resourceKey : Option String := none

namespace Change

/-- Settings after a change: what it does not set is as before. -/
def onto (x : Change) (s : Rule.Settings) : Rule.Settings :=
  ⟨x.gate.getD s.gate, x.message.or s.message, x.errorKey.or s.errorKey,
    x.resourceKey.or s.resourceKey⟩

/-- What several changes set one after the other: each item as the last one that sets it does. -/
def latest (xs : List Change) : Change where
  gate := (xs.filterMap gate).getLast?
  message := (xs.filterMap message).getLast?
  errorKey := (xs.filterMap errorKey).getLast?
  resourceKey := (xs.filterMap resourceKey).getLast?

/-- The last one of several changes; without any, nothing is set. -/
def last (xs : List Change) : Change := xs.getLast?.getD {}

/-- A change that sets each item that another one makes a difference to. -/
structure Covers (x y : Change) (s : Rule.Settings) : Prop where
  gate : x.gate.isSome = true ∨ (y.onto s).gate = s.gate
  message : x.message.isSome = true ∨ (y.onto s).message = s.message
  errorKey : x.errorKey.isSome = true ∨ (y.onto s).errorKey = s.errorKey
  resourceKey : x.resourceKey.isSome = true ∨ (y.onto s).resourceKey = s.resourceKey

variable {α : Type} {xs : List Change} {s : Rule.Settings}

/-- An item after several changes and one more. -/
theorem getLast?_filterMap_snoc (f : Change → Option α) (xs : List Change) (x : Change) :
    ((xs ++ [x]).filterMap f).getLast? = (f x).or (xs.filterMap f).getLast? := by
  rw [List.filterMap_append, List.getLast?_append]
  cases h : f x <;> simp [h]

theorem last_snoc (xs : List Change) (x : Change) : last (xs ++ [x]) = x := by
  simp [last]

/-- One more change sets its own items, and leaves the others. -/
theorem latest_snoc_onto (xs : List Change) (x : Change) (s : Rule.Settings) :
    (latest (xs ++ [x])).onto s = x.onto ((latest xs).onto s) := by
  unfold latest onto
  simp only [getLast?_filterMap_snoc, Option.or_assoc]
  cases x.gate <;> rfl

/-- **The latest settings are those after all changes**, made one after the other. -/
theorem latest_onto (xs : List Change) (s : Rule.Settings) :
    (latest xs).onto s = xs.foldl (fun s x => x.onto s) s := by
  induction xs using List.reverseRecOn with
  | nil => rfl
  | append_singleton xs x ih => rw [latest_snoc_onto, ih, List.foldl_append]; rfl

/-- More changes are made on top of the others. -/
theorem latest_append_onto (xs ys : List Change) (s : Rule.Settings) :
    (latest (xs ++ ys)).onto s = (latest ys).onto ((latest xs).onto s) := by
  rw [latest_onto, latest_onto, latest_onto, List.foldl_append]

theorem getD_eq_iff (o : Option α) (a b : α) :
    o.getD a = o.getD b ↔ o.isSome = true ∨ o.getD b = a := by
  cases o <;> simp [eq_comm]

theorem or_eq_iff (o a b : Option α) : o.or a = o.or b ↔ o.isSome = true ∨ o.or b = a := by
  cases o <;> simp [eq_comm]

/-- **Making the last change alone makes no difference** exactly if it covers all of them. -/
theorem last_onto_eq_iff :
    (last xs).onto s = (latest xs).onto s ↔ Covers (last xs) (latest xs) s := by
  induction xs using List.reverseRecOn with
  | nil => exact ⟨fun _ => ⟨.inr rfl, .inr rfl, .inr rfl, .inr rfl⟩, fun _ => rfl⟩
  | append_singleton xs x _ =>
    -- What comes before the last change only matters for the items that this one leaves.
    have hlatest := latest_snoc_onto xs x s
    rw [last_snoc]
    constructor
    · intro h
      rw [hlatest] at h
      simp only [onto, Rule.Settings.mk.injEq, getD_eq_iff, or_eq_iff] at h
      obtain ⟨hgate, hmessage, herrorKey, hresourceKey⟩ := h
      constructor <;> rw [hlatest] <;> assumption
    · rintro ⟨hgate, hmessage, herrorKey, hresourceKey⟩
      rw [hlatest] at hgate hmessage herrorKey hresourceKey ⊢
      simp only [onto, Rule.Settings.mk.injEq, getD_eq_iff, or_eq_iff]
      exact ⟨hgate, hmessage, herrorKey, hresourceKey⟩

end Change

namespace PendingRule

/-- What is set for the declared rules of a member, if no check was gathered for it. -/
def change (p : PendingRule) : Change where
  gate := if p.conditioned then some p.gate else none
  message := p.message
  errorKey := Message.present p.code
  resourceKey := Message.present p.resourceKey

/-- Whether something was gathered for the declared rules of a member. -/
def isFor (k : MemberKey) (p : PendingRule) : Bool := p.checks.isEmpty && p.member.key == k

end PendingRule

/-! ## 2. Registering rules among declared ones -/

/-- The rules of a member that were declared. -/
def Registry.declaredAt (reg : Registry) (t : TypeId) (k : MemberKey) : List Rule :=
  (reg.rulesOfMember t k).filter fun r => r.source == .declared

theorem Registry.mem_declaredAt {reg : Registry} {t : TypeId} {k : MemberKey} {r : Rule} :
    r ∈ reg.declaredAt t k ↔ r ∈ reg.rulesOfMember t k ∧ r.source = .declared := by
  unfold declaredAt
  rw [List.mem_filter, beq_iff_eq]

/-- A rule as it stands among the declared ones: its place, and what is set for it. -/
abbrev Rule.Standing := Rule.Place × Rule.Settings

def Rule.standing (r : Rule) : Rule.Standing := (r.place, r.settings)

/-- The declared rules of a member as they stand with a change. -/
def Registry.standingWith (reg : Registry) (t : TypeId) (k : MemberKey) (x : Change) :
    List Rule.Standing :=
  (reg.declaredAt t k).map fun r => (r.place, x.onto r.settings)

/-- What is set for the rule under a key of a member after rules have been registered. -/
def Rule.settle (k : MemberKey) (key : UniqueKey) (xs : List Rule) (s : Rule.Settings) :
    Rule.Settings :=
  xs.foldl (fun s x => if x.member.key = k ∧ x.uniqueKey = key then x.settings else s) s

namespace Rule

variable {k : MemberKey} {key : UniqueKey} {xs : List Rule} {s s' : Rule.Settings}

theorem settle_append (ys : List Rule) :
    settle k key (xs ++ ys) s = settle k key ys (settle k key xs s) := List.foldl_append ..

/-- Rules of other members and under other keys make no difference. -/
theorem settle_of_forall (h : ∀ x ∈ xs, x.member.key = k → x.uniqueKey = key → x.settings = s) :
    settle k key xs s = s := by
  induction xs with
  | nil => rfl
  | cons x xs ih =>
    obtain ⟨hx, hrest⟩ := List.forall_mem_cons.mp h
    have hfirst : (if x.member.key = k ∧ x.uniqueKey = key then x.settings else s) = s := by
      split
      · rename_i hat
        exact hx hat.1 hat.2
      · rfl
    unfold settle
    rw [List.foldl_cons, hfirst]
    exact ih hrest

/-- A rule under the key takes effect, if all of them agree. -/
theorem settle_of_mem {x : Rule} (hx : x ∈ xs) (hk : x.member.key = k) (hkey : x.uniqueKey = key)
    (h : ∀ x ∈ xs, x.member.key = k → x.uniqueKey = key → x.settings = s') :
    settle k key xs s = s' := by
  induction xs generalizing s with
  | nil => cases hx
  | cons y xs ih =>
    obtain ⟨hy, hrest⟩ := List.forall_mem_cons.mp h
    unfold settle
    rw [List.foldl_cons]
    rcases List.mem_cons.mp hx with rfl | hx
    · rw [if_pos ⟨hk, hkey⟩, hy hk hkey]
      exact settle_of_forall hrest
    · exact ih hx hrest

/-- Rules that are new are under no key of a declared rule. -/
theorem settle_of_isNew {text : String} (h : ∀ x ∈ xs, x.IsNew) :
    settle k (.named text) xs s = s :=
  settle_of_forall fun x hx _ hkey => absurd hkey ((h x hx).2 text)

end Rule

namespace Registry

variable {reg reg' : Registry} {t : TypeId} {k : MemberKey}

/-- The places of the declared rules of a member. -/
def places (reg : Registry) (t : TypeId) (k : MemberKey) : List Rule.Place :=
  (reg.declaredAt t k).map Rule.place

/-- A rule that takes the place of a declared one as it was declared, or of none. -/
structure Fits (reg : Registry) (t : TypeId) (x : Rule) : Prop where
  renews : x.source = .declared → x.place ∈ reg.places t x.member.key
  spares : x.source ≠ .declared → ∀ p ∈ reg.places t x.member.key, p.2.1 ≠ x.uniqueKey

theorem Fits.of_places {x : Rule} (h : reg.Fits t x)
    (hplaces : ∀ k, reg'.places t k = reg.places t k) : reg'.Fits t x := by
  constructor <;> rw [hplaces]
  · exact h.renews
  · exact h.spares

theorem places_of_standing
    (h : (reg'.declaredAt t k).map Rule.standing = (reg.declaredAt t k).map Rule.standing) :
    reg'.places t k = reg.places t k := by
  have hfirst := congrArg (List.map Prod.fst) h
  rw [List.map_map, List.map_map] at hfirst
  exact hfirst

/-- A rule that is put among others under a key of its own, as it shows among the declared ones. -/
theorem standing_put {x : Rule} {rs : List Rule} (hrs : (rs.map Rule.uniqueKey).Nodup)
    (hrenews : x.source = .declared → ∃ r ∈ rs, r.place = x.place)
    (hspares : x.source ≠ .declared → ∀ r ∈ rs, r.source = .declared → r.uniqueKey ≠ x.uniqueKey) :
    ((RuleGroup.put x rs).filter fun r => r.source == .declared).map Rule.standing =
      (rs.filter fun r => r.source == .declared).map fun r =>
        (r.place, if x.uniqueKey = r.uniqueKey then x.settings else r.settings) := by
  induction rs with
  | nil =>
    have hsource : x.source ≠ .declared := fun h => by
      obtain ⟨r, hr, -⟩ := hrenews h
      cases hr
    simp [RuleGroup.put, hsource]
  | cons y rs ih =>
    obtain ⟨hy, hnodup⟩ := List.nodup_cons.mp hrs
    unfold RuleGroup.put
    by_cases hkey : y.uniqueKey = x.uniqueKey
    · have hrest : (rs.filter fun r => r.source == .declared).map Rule.standing =
          (rs.filter fun r => r.source == .declared).map fun r =>
            (r.place, if x.uniqueKey = r.uniqueKey then x.settings else r.settings) := by
        refine List.map_congr_left fun r hr => ?_
        have hne : x.uniqueKey ≠ r.uniqueKey := fun h =>
          hy (hkey ▸ h ▸ List.mem_map_of_mem (List.mem_filter.mp hr).1)
        rw [if_neg hne]
        rfl
      rw [if_pos (by simpa using hkey), List.filter_cons, List.filter_cons]
      by_cases hsource : x.source = .declared
      · -- The rule that is renewed is the one under its key.
        have hplace : y.place = x.place := by
          obtain ⟨r, hr, hplace⟩ := hrenews hsource
          rcases List.mem_cons.mp hr with rfl | hr
          · exact hplace
          · have hsame := Rule.uniqueKey_of_place hplace
            exact absurd (hkey ▸ hsame ▸ List.mem_map_of_mem hr) hy
        have hdeclared : y.source = .declared := (Rule.source_of_place hplace).trans hsource
        simp only [hsource, hdeclared, beq_self_eq_true, if_true, List.map_cons, hrest, hplace,
          hkey]
        rfl
      · have hother : y.source ≠ .declared := fun h =>
          hspares hsource y List.mem_cons_self h hkey
        simp only [beq_eq_false_iff_ne.mpr hsource, beq_eq_false_iff_ne.mpr hother,
          Bool.false_eq_true, if_false, hrest]
    · have hrest := ih hnodup
        (fun h => by
          obtain ⟨r, hr, hplace⟩ := hrenews h
          rcases List.mem_cons.mp hr with rfl | hr
          · exact absurd (Rule.uniqueKey_of_place hplace) hkey
          · exact ⟨r, hr, hplace⟩)
        fun h r hr => hspares h r (List.mem_cons_of_mem y hr)
      rw [if_neg (by simpa using hkey), List.filter_cons, List.filter_cons]
      split
      · rw [List.map_cons, List.map_cons, hrest, if_neg (Ne.symm hkey)]
        rfl
      · exact hrest

/-- **A rule that is added**, as it shows among the declared ones of a member. -/
theorem standing_add (h : reg.Keyed) {x : Rule} (hx : reg.Fits t x) (k : MemberKey) :
    ((reg.add t x).declaredAt t k).map Rule.standing = (reg.declaredAt t k).map fun r =>
      (r.place, Rule.settle k r.uniqueKey [x] r.settings) := by
  unfold declaredAt
  rw [rulesOfMember_add]
  by_cases hk : x.member.key = k
  · subst hk
    rw [if_pos ⟨rfl, rfl⟩, standing_put (h.unique t _)]
    · refine List.map_congr_left fun r _ => ?_
      simp [Rule.settle]
    · intro hsource
      obtain ⟨r, hr, hplace⟩ := List.mem_map.mp (hx.renews hsource)
      exact ⟨r, (mem_declaredAt.mp hr).1, hplace⟩
    · intro hsource r hr hdeclared
      exact hx.spares hsource _ (List.mem_map_of_mem (mem_declaredAt.mpr ⟨hr, hdeclared⟩))
  · rw [if_neg fun h => hk h.2]
    refine List.map_congr_left fun r _ => ?_
    simp [Rule.settle, Rule.standing, hk]

/-- **Rules that are added**, as they show among the declared ones of a member: these keep their
places, and what is set for each is what the last rule under its key says. -/
theorem standing_addAll (h : reg.Keyed) {rs : List Rule} (hrs : ∀ x ∈ rs, x.WellKeyed)
    (hfits : ∀ x ∈ rs, reg.Fits t x) (k : MemberKey) :
    ((reg.addAll t rs).declaredAt t k).map Rule.standing = (reg.declaredAt t k).map fun r =>
      (r.place, Rule.settle k r.uniqueKey rs r.settings) := by
  induction rs generalizing reg with
  | nil => rfl
  | cons x rs ih =>
    obtain ⟨hx, hrest⟩ := List.forall_mem_cons.mp hrs
    obtain ⟨hfitsx, hfitsrest⟩ := List.forall_mem_cons.mp hfits
    have hadd := fun k => standing_add h hfitsx k
    have hplaces : ∀ k, (reg.add t x).places t k = reg.places t k := fun k => by
      have hfirst := congrArg (List.map Prod.fst) (hadd k)
      rw [List.map_map, List.map_map] at hfirst
      exact hfirst
    have hlast := ih (h.add hx t) hrest fun y hy => (hfitsrest y hy).of_places hplaces
    -- What the other rules do only depends on how the declared rules stand after the first one.
    have hstanding := congrArg (List.map fun y : _ × Rule.Settings =>
      (y.1, Rule.settle k y.1.2.1 rs y.2)) (hadd k)
    rw [List.map_map, List.map_map] at hstanding
    exact hlast.trans hstanding

/-- A member has no two rules under one key. -/
theorem Keyed.eq_of_uniqueKey (h : reg.Keyed) (hr : r ∈ reg.rulesOfMember t k)
    (hr' : r' ∈ reg.rulesOfMember t k) (hkey : r'.uniqueKey = r.uniqueKey) : r' = r :=
  List.inj_on_of_nodup_map (h.unique t k) hr' hr hkey

/-- A new rule takes the place of no declared one. -/
theorem Keyed.fits_of_isNew (h : reg.Keyed) (hx : x.IsNew) (t : TypeId) : reg.Fits t x := by
  refine ⟨fun hdeclared => absurd hdeclared hx.1, fun _ p hp => ?_⟩
  obtain ⟨r, hr, rfl⟩ := List.mem_map.mp hp
  obtain ⟨hr, hdeclared⟩ := mem_declaredAt.mp hr
  obtain ⟨-, text, hkey⟩ := h.wellKeyed _ _ r hr hdeclared
  exact fun hsame => hx.2 text (hsame.symm.trans hkey)

/-- A rule that stands for one of its member takes the place of that one only. -/
theorem Keyed.fits_of_place (h : reg.Keyed) (hr : r ∈ reg.rulesOfMember t r.member.key)
    (hplace : x.place = r.place) : reg.Fits t x := by
  have hmember := Rule.member_of_place hplace
  have hsource := Rule.source_of_place hplace
  refine ⟨fun hdeclared => ?_, fun hdeclared p hp hsame => ?_⟩
  · rw [hplace, hmember]
    exact List.mem_map_of_mem (mem_declaredAt.mpr ⟨hr, hsource.symm.trans hdeclared⟩)
  · obtain ⟨r', hr', rfl⟩ := List.mem_map.mp hp
    obtain ⟨hr', hdeclared'⟩ := mem_declaredAt.mp hr'
    rw [hmember] at hr'
    have heq := h.eq_of_uniqueKey hr hr' (hsame.trans (Rule.uniqueKey_of_place hplace))
    exact hdeclared (hsource.trans (heq ▸ hdeclared'))

theorem Keyed.mem_declaredAt_home (h : reg.Keyed) (hr : r ∈ reg.declaredAt t k) :
    r.member.key = k ∧ ∃ text, r.uniqueKey = .named text := by
  obtain ⟨hr, hdeclared⟩ := mem_declaredAt.mp hr
  exact ⟨h.home t k r hr, (h.wellKeyed t k r hr hdeclared).2⟩

end Registry

end MemberRules
