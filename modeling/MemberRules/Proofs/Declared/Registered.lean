/-
# The checks that a build registers

When a type is built, what was gathered for it is registered rule by rule.  A rule whose key is taken
stands in the place of the older one, and every other rule stands behind those of its member.  So a
member keeps the checks that were registered, in their order: the declared ones with what the last
block for the member sets, if there is one, and all of them with the settings for all rules if these
have changed.  Behind them come the checks that were gathered, in their order.

* `RuleGroup.foldl_put_eq`: adding rules to those of a member.
* `RuleGroup.lastOf`: the last rule under a key.
* `Engine.checksToCome`: the checks of a member after a build, as a function of what was gathered.
* `Action.build_registers`: a build that ends well leaves exactly these.
-/
import MemberRules.Proofs.Configuration.Numbering
import MemberRules.Proofs.Registry.Contents

namespace MemberRules

open MemberRules.Computation

/-! ## 1. Adding rules to those of a member -/

namespace RuleGroup

variable {x : Rule} {rs xs : List Rule}

/-- A rule under a key that is taken stands in the place of the older one. -/
theorem put_of_mem (hrs : (rs.map Rule.uniqueKey).Nodup) (h : x.uniqueKey ∈ rs.map Rule.uniqueKey) :
    put x rs = rs.map fun r => if r.uniqueKey = x.uniqueKey then x else r := by
  induction rs with
  | nil => cases h
  | cons r rs ih =>
    obtain ⟨hr, hnodup⟩ := List.nodup_cons.mp hrs
    unfold put
    rw [List.map_cons]
    by_cases hkey : r.uniqueKey = x.uniqueKey
    · rw [if_pos (by simpa using hkey), if_pos hkey]
      refine congrArg (x :: ·) ((List.map_congr_left fun y hy => ?_).trans (List.map_id _)).symm
      have hne : y.uniqueKey ≠ x.uniqueKey := fun heq =>
        hr (by rw [hkey, ← heq]; exact List.mem_map_of_mem hy)
      exact if_neg hne
    · have hrest : x.uniqueKey ∈ rs.map Rule.uniqueKey :=
        (List.mem_cons.mp h).resolve_left fun heq => hkey heq.symm
      rw [if_neg (by simpa using hkey), if_neg hkey, ih hnodup hrest]

/-- It stands there whatever is behind. -/
theorem put_append_of_mem (h : x.uniqueKey ∈ rs.map Rule.uniqueKey) (xs : List Rule) :
    put x (rs ++ xs) = put x rs ++ xs := by
  induction rs with
  | nil => cases h
  | cons r rs ih =>
    rw [List.cons_append]
    unfold put
    by_cases hkey : r.uniqueKey = x.uniqueKey
    · simp [hkey]
    · have hrest : x.uniqueKey ∈ rs.map Rule.uniqueKey :=
        (List.mem_cons.mp h).resolve_left fun heq => hkey heq.symm
      simp [hkey, ih hrest]

/-- The last of some rules under a key. -/
def lastOf (key : UniqueKey) (xs : List Rule) : Option Rule :=
  (xs.filter fun x => x.uniqueKey == key).getLast?

/-- Those of some rules that are under none of the keys of others. -/
def beside (rs xs : List Rule) : List Rule :=
  xs.filter fun x => decide (x.uniqueKey ∉ rs.map Rule.uniqueKey)

theorem mem_beside : x ∈ beside rs xs ↔ x ∈ xs ∧ x.uniqueKey ∉ rs.map Rule.uniqueKey := by
  unfold beside
  rw [List.mem_filter, decide_eq_true_iff]

theorem lastOf_snoc (key : UniqueKey) (xs : List Rule) (x : Rule) :
    lastOf key (xs ++ [x]) = if x.uniqueKey = key then some x else lastOf key xs := by
  unfold lastOf
  rw [List.filter_append, List.getLast?_append]
  by_cases h : x.uniqueKey = key <;> simp [h]

theorem uniqueKey_lastOf {key : UniqueKey} {y : Rule} (h : lastOf key xs = some y) :
    y ∈ xs ∧ y.uniqueKey = key := by
  have hmem := List.mem_filter.mp (List.mem_of_getLast? h)
  exact ⟨hmem.1, by simpa using hmem.2⟩

/-- **Rules that are added one after the other** to those of a member: each of these is replaced by
the last one under its key, and those under other keys stand behind. -/
theorem foldl_put_eq (hrs : (rs.map Rule.uniqueKey).Nodup)
    (hxs : ((beside rs xs).map Rule.uniqueKey).Nodup) :
    xs.foldl (fun rs x => put x rs) rs =
      (rs.map fun r => (lastOf r.uniqueKey xs).getD r) ++ beside rs xs := by
  induction xs using List.reverseRecOn with
  | nil => simp [lastOf, beside]
  | append_singleton xs x ih =>
    have hbeside : beside rs (xs ++ [x]) = beside rs xs ++ beside rs [x] := List.filter_append ..
    rw [hbeside, List.map_append] at hxs
    obtain ⟨hold, -, hapart⟩ := List.nodup_append.mp hxs
    -- The keys of the rules do not change.
    have hkeys : (rs.map fun r => (lastOf r.uniqueKey xs).getD r).map Rule.uniqueKey =
        rs.map Rule.uniqueKey := by
      rw [List.map_map]
      refine List.map_congr_left fun r _ => ?_
      simp only [Function.comp_apply]
      cases hlast : lastOf r.uniqueKey xs with
      | none => rfl
      | some y => exact (uniqueKey_lastOf hlast).2
    rw [List.foldl_append, ih hold, List.foldl_cons, List.foldl_nil]
    by_cases hx : x.uniqueKey ∈ rs.map Rule.uniqueKey
    · have hnone : beside rs [x] = [] := List.filter_cons_of_neg (by simpa only [decide_not,
        Bool.not_eq_true', decide_eq_false_iff_not, not_not] using hx)
      have hthere : x.uniqueKey ∈ (rs.map fun r => (lastOf r.uniqueKey xs).getD r).map
          Rule.uniqueKey := hkeys ▸ hx
      rw [put_append_of_mem hthere, put_of_mem (hkeys ▸ hrs) hthere, hbeside, hnone, List.append_nil,
        List.map_map]
      refine congrArg (· ++ beside rs xs) (List.map_congr_left fun r _ => ?_)
      have hkey : ((lastOf r.uniqueKey xs).getD r).uniqueKey = r.uniqueKey := by
        cases hlast : lastOf r.uniqueKey xs with
        | none => rfl
        | some y => exact (uniqueKey_lastOf hlast).2
      simp only [Function.comp_apply, hkey, lastOf_snoc]
      by_cases heq : r.uniqueKey = x.uniqueKey
      · rw [if_pos heq, if_pos heq.symm]
        rfl
      · rw [if_neg heq, if_neg fun h => heq h.symm]
    · have hsingle : beside rs [x] = [x] := List.filter_cons_of_pos (decide_eq_true hx)
      rw [hsingle] at hapart
      have hnew : x.uniqueKey ∉ ((rs.map fun r => (lastOf r.uniqueKey xs).getD r) ++
          beside rs xs).map Rule.uniqueKey := by
        rw [List.map_append, hkeys, List.mem_append, not_or]
        exact ⟨hx, fun hmem => hapart _ hmem _ List.mem_cons_self rfl⟩
      have hput := @put_append x _ [] hnew
      rw [List.append_nil] at hput
      rw [hput, hbeside, hsingle, ← List.append_assoc]
      refine congrArg (· ++ [x]) (congrArg (· ++ beside rs xs) (List.map_congr_left fun r hr => ?_))
      have hne : x.uniqueKey ≠ r.uniqueKey := fun heq => hx (heq ▸ List.mem_map_of_mem hr)
      rw [lastOf_snoc, if_neg hne]

theorem lastOf_append (key : UniqueKey) (xs ys : List Rule) :
    lastOf key (xs ++ ys) = (lastOf key ys).or (lastOf key xs) := by
  unfold lastOf
  rw [List.filter_append, List.getLast?_append]

theorem lastOf_eq_none {key : UniqueKey} (h : ∀ x ∈ xs, x.uniqueKey ≠ key) :
    lastOf key xs = none := by
  unfold lastOf
  rw [List.filter_eq_nil_iff.mpr fun x hx => by simpa using h x hx]
  rfl

/-- Rules under one key that look alike. -/
theorem look_lastOf {key : UniqueKey} {v : Rule} (hmem : ∃ x ∈ xs, x.uniqueKey = key)
    (h : ∀ x ∈ xs, x.uniqueKey = key → x.look = v) : (lastOf key xs).map Rule.look = some v := by
  cases hlast : lastOf key xs with
  | none =>
    obtain ⟨x, hx, hkey⟩ := hmem
    have hnil := List.getLast?_eq_none_iff.mp hlast
    exact absurd (List.mem_filter.mpr ⟨hx, by simpa using hkey⟩) (hnil ▸ List.not_mem_nil)
  | some y =>
    obtain ⟨hy, hkey⟩ := uniqueKey_lastOf hlast
    exact congrArg some (h y hy hkey)

/-- Those of some rules that are about a member. -/
def ofMember (k : MemberKey) (xs : List Rule) : List Rule := xs.filter fun x => x.member.key == k

theorem mem_ofMember {k : MemberKey} : x ∈ ofMember k xs ↔ x ∈ xs ∧ x.member.key = k := by
  unfold ofMember
  rw [List.mem_filter, beq_iff_eq]

/-- Those of some rules that are new checks of a member with other rules. -/
def fresh (k : MemberKey) (rs xs : List Rule) : List Rule :=
  (beside rs (ofMember k xs)).filter Rule.hasCheck

theorem fresh_append (k : MemberKey) (rs xs ys : List Rule) :
    fresh k rs (xs ++ ys) = fresh k rs xs ++ fresh k rs ys := by
  unfold fresh beside ofMember
  rw [List.filter_append, List.filter_append, List.filter_append]

theorem mem_fresh {k : MemberKey} : x ∈ fresh k rs xs ↔ x ∈ xs ∧ x.member.key = k ∧
    x.uniqueKey ∉ rs.map Rule.uniqueKey ∧ x.hasCheck = true := by
  unfold fresh
  rw [List.mem_filter, mem_beside, mem_ofMember, and_assoc, and_assoc]

theorem fresh_eq_nil {k : MemberKey} (h : ∀ x ∈ xs, x.member.key = k → x.hasCheck = true →
    x.uniqueKey ∈ rs.map Rule.uniqueKey) : fresh k rs xs = [] := by
  refine List.eq_nil_iff_forall_not_mem.mpr fun x hx => ?_
  obtain ⟨hmem, hk, hkey, hcheck⟩ := mem_fresh.mp hx
  exact hkey (h x hmem hk hcheck)

/-- Checks that are under other keys are new where they are about the member. -/
theorem fresh_eq_ofMember {k : MemberKey} (h : ∀ x ∈ xs, x.member.key = k →
    x.uniqueKey ∉ rs.map Rule.uniqueKey ∧ x.hasCheck = true) : fresh k rs xs = ofMember k xs := by
  unfold fresh beside
  rw [List.filter_eq_self.mpr fun x hx => ?_, List.filter_eq_self.mpr fun x hx => ?_]
  · obtain ⟨hmem, hk⟩ := mem_ofMember.mp hx
    exact decide_eq_true (h x hmem hk).1
  · obtain ⟨hmem, hk⟩ := mem_ofMember.mp (List.mem_filter.mp hx).1
    exact (h x hmem hk).2

end RuleGroup

namespace Registry

open RuleGroup

variable {reg : Registry} {t : TypeId} {k : MemberKey}

theorem rulesOfMember_addAll (reg : Registry) (t : TypeId) (k : MemberKey) (rs : List Rule) :
    (reg.addAll t rs).rulesOfMember t k =
      (ofMember k rs).foldl (fun rs x => put x rs) (reg.rulesOfMember t k) := by
  induction rs generalizing reg with
  | nil => rfl
  | cons r rs ih =>
    have hcons : ofMember k (r :: rs) = if r.member.key = k then r :: ofMember k rs
        else ofMember k rs := by
      unfold ofMember
      rw [List.filter_cons]
      simp only [beq_iff_eq]
    have hrest := ih (reg.add t r)
    rw [rulesOfMember_add] at hrest
    rw [hcons]
    refine hrest.trans ?_
    by_cases hk : r.member.key = k
    · rw [if_pos ⟨rfl, hk⟩, if_pos hk]
      rfl
    · rw [if_neg fun h => hk h.2, if_neg hk]

theorem mem_rulesOf_of_member {r : Rule} (h : r ∈ reg.rulesOfMember t k) : r ∈ reg.rulesOf t := by
  unfold rulesOfMember at h
  cases hfind : (reg.allGroups t).find? fun g => g.member.key == k with
  | none =>
    rw [hfind] at h
    cases h
  | some g =>
    rw [hfind] at h
    exact mem_rulesOf_iff.mpr ⟨g, List.mem_of_find?_eq_some hfind, h⟩

/-- The checks of a member. -/
def checksAt (reg : Registry) (t : TypeId) (k : MemberKey) : List Rule :=
  (reg.rulesOfMember t k).filter Rule.hasCheck

theorem mem_checksAt {r : Rule} :
    r ∈ reg.checksAt t k ↔ r ∈ reg.rulesOfMember t k ∧ r.hasCheck = true := List.mem_filter

end Registry

/-! ## 2. What a build leaves of a member -/

namespace Configuration

/-- A rule with the settings for all rules, if these have changed. -/
def refreshed (cfg : Configuration) (r : Rule) : Rule :=
  if cfg.settingsChanged then cfg.complete r else r

/-- A registered rule as a build leaves it: with what a block sets, if the rule was declared and there
is a block, or else with the settings for all rules. -/
def renewed (cfg : Configuration) (block : Option PendingRule) (r : Rule) : Rule :=
  match r.source, block with
  | .declared, some p => Action.declaredWith cfg p r
  | _, _ => cfg.refreshed r

/-- The last block for the declared rules of a member. -/
def lastBlock (cfg : Configuration) (k : MemberKey) : Option PendingRule :=
  (cfg.gathered.filter (PendingRule.isFor k)).getLast?

end Configuration

namespace Engine

/-- The new checks of a member: those that were gathered for it, and those of builders. -/
def newChecks (c : Nat) (k : MemberKey) (e : Engine) : List Rule :=
  let cfg := e.configuration c
  ((cfg.gathered.filter fun p => p.member.key == k).flatMap fun p => p.checks.map fun x =>
    p.checkRule cfg (e.displayed cfg.type p.member.name) x 0) ++
  ((e.listedRules c).filter fun r => r.member.key == k).map fun r => (cfg.complete r).look

/-- The checks of a member after a build, but for their numbers, if a block is the last one for its
declared rules. -/
def checksToCome (c : Nat) (k : MemberKey) (block : Option PendingRule) (e : Engine) : List Rule :=
  let cfg := e.configuration c
  ((e.registry.checksAt cfg.type k).map fun r => (cfg.renewed block r).look) ++ e.newChecks c k

end Engine

/-! ## 3. What is made for a member -/

theorem map_eq_of_forall₂ {α β γ : Type} {f : α → γ} {g : β → γ} {as : List α} {bs : List β}
    (h : List.Forall₂ (fun a b => g b = f a) as bs) : bs.map g = as.map f := by
  induction h with
  | nil => rfl
  | cons hab _ ih => rw [List.map_cons, List.map_cons, hab, ih]

theorem Rule.IsOwn.key_ne {r x : Rule} (h : x.IsOwn) (hr : ¬ r.Uses x.id) :
    x.uniqueKey ≠ r.uniqueKey := fun heq => hr (.inr (heq ▸ h))

namespace Engine.Numbered

variable {e : Engine} {c : Nat} {t : TypeId} {k : MemberKey} {r x : Rule}

/-- A rule that is made anew is under no key of a registered one. -/
theorem key_ne_of_own (h : e.Numbered) (hown : x.IsOwn) (hid : e.nextId ≤ x.id)
    (hr : r ∈ e.registry.rulesOfMember t k) : x.uniqueKey ≠ r.uniqueKey := by
  refine hown.key_ne fun huses => ?_
  have hlt := h.registered t k r hr x.id huses
  omega

/-- Nor is a rule of a builder. -/
theorem key_ne_of_listed (h : e.Numbered) (hx : x ∈ e.listedRules c)
    (hr : r ∈ e.registry.rulesOfMember t k) : x.uniqueKey ≠ r.uniqueKey :=
  (h.listedRules_isOwn hx).1.key_ne (h.listedRules_waiting hx hr)

end Engine.Numbered

namespace PendingRule.Made

open RuleGroup

variable {cfg : Configuration} {e : Engine} {p : PendingRule} {xs : List Rule} {k : MemberKey}
variable {r x : Rule}

/-- **What is made for a member under the key of a registered rule** is a copy of this one with what
was set, if it was declared, and if no check was gathered. -/
theorem lastOf_look (h : p.Made cfg e xs) (he : e.Tidy) (hids : ∀ x ∈ xs, e.nextId ≤ x.id)
    (hr : r ∈ e.registry.rulesOfMember cfg.type k) :
    (lastOf r.uniqueKey (ofMember k xs)).map Rule.look =
      if r.source = .declared ∧ p.isFor k = true then some (Action.declaredWith cfg p r).look
      else none := by
  -- Nothing but a copy of the rule is under its key.
  have hcopy : ∀ x ∈ ofMember k xs, x.uniqueKey = r.uniqueKey →
      (r.source = .declared ∧ p.isFor k = true) ∧
        x.look = (Action.declaredWith cfg p r).look := by
    intro x hx hkey
    obtain ⟨hx, hk⟩ := mem_ofMember.mp hx
    have hnew : ¬ x.IsOwn := fun hown =>
      he.numbered.key_ne_of_own hown (hids x hx) hr hkey
    by_cases hchecks : p.checks = []
    · obtain ⟨copies, carrier, rfl, hcopies, -, hown, -⟩ := h.copies hchecks
      rcases List.mem_append.mp hx with hx | hx
      · obtain ⟨y, hy, hcopied⟩ := exists_of_mem_forall₂ hcopies hx
        obtain ⟨r', hr', rfl⟩ := List.mem_map.mp hy
        have hplace : x.place = r'.place := hcopied.place
        have hp : p.member.key = k := by
          rw [← hk, Rule.member_of_place hplace]
          exact (he.keyed.registry.home _ _ r' (Registry.mem_declaredAt.mp hr').1).symm
        rw [hp] at hr'
        obtain ⟨hthere, hsource⟩ := Registry.mem_declaredAt.mp hr'
        obtain rfl := he.keyed.registry.eq_of_uniqueKey hr hthere
          ((Rule.uniqueKey_of_place hplace).symm.trans hkey)
        exact ⟨⟨hsource, by simp [isFor, hchecks, hp]⟩, hcopied.look⟩
      · exact absurd (List.mem_singleton.mp hx ▸ hown) hnew
    · obtain ⟨-, hmade⟩ := h.checks hchecks
      obtain ⟨check, -, hcheck⟩ := exists_of_mem_forall₂ hmade hx
      exact absurd (by rw [hcheck]; rfl) hnew
  split
  · rename_i hfor
    refine look_lastOf ?_ fun x hx hkey => (hcopy x hx hkey).2
    obtain ⟨hsource, hfor⟩ := hfor
    obtain ⟨hchecks, hp⟩ : p.checks = [] ∧ p.member.key = k := by simpa [isFor] using hfor
    obtain ⟨copies, carrier, rfl, hcopies, -, -⟩ := h.copies hchecks
    have hdeclared : Action.declaredWith cfg p r ∈
        (e.registry.declaredAt cfg.type p.member.key).map (Action.declaredWith cfg p) :=
      List.mem_map_of_mem (Registry.mem_declaredAt.mpr ⟨hp ▸ hr, hsource⟩)
    obtain ⟨x, hx, hcopied⟩ := exists_of_mem_left hcopies hdeclared
    have hplace : x.place = r.place := hcopied.place
    refine ⟨x, mem_ofMember.mpr ⟨List.mem_append_left _ hx, ?_⟩, Rule.uniqueKey_of_place hplace⟩
    rw [Rule.member_of_place hplace]
    exact he.keyed.registry.home _ _ r hr
  · rename_i hfor
    rw [lastOf_eq_none fun x hx hkey => hfor (hcopy x hx hkey).1]
    rfl

/-- **What is made for a member and is new** are the rules for the checks that were gathered. -/
theorem fresh_look (h : p.Made cfg e xs) (he : e.Tidy) (hids : ∀ x ∈ xs, e.nextId ≤ x.id) :
    (fresh k (e.registry.rulesOfMember cfg.type k) xs).map Rule.look =
      if p.member.key = k then p.checks.map fun x =>
        p.checkRule cfg (e.displayed cfg.type p.member.name) x 0 else [] := by
  by_cases hchecks : p.checks = []
  · have hnone : fresh k (e.registry.rulesOfMember cfg.type k) xs = [] := by
      obtain ⟨copies, carrier, rfl, hcopies, -, -, hcheck, -⟩ := h.copies hchecks
      refine fresh_eq_nil fun x hx hk hhas => ?_
      rcases List.mem_append.mp hx with hx | hx
      · obtain ⟨y, hy, hcopied⟩ := exists_of_mem_forall₂ hcopies hx
        obtain ⟨r, hr, rfl⟩ := List.mem_map.mp hy
        have hplace : x.place = r.place := hcopied.place
        have hthere := (Registry.mem_declaredAt.mp hr).1
        rw [← he.keyed.registry.home _ _ r hthere, ← Rule.member_of_place hplace, hk] at hthere
        rw [Rule.uniqueKey_of_place hplace]
        exact List.mem_map_of_mem hthere
      · rw [List.mem_singleton.mp hx, hcheck] at hhas
        cases hhas
    rw [hnone, hchecks]
    split <;> rfl
  · obtain ⟨-, hmade⟩ := h.checks hchecks
    have hrule : ∀ x ∈ xs, x.IsOwn ∧ x.hasCheck = true ∧ x.member = p.member := fun x hx => by
      obtain ⟨check, -, hcheck⟩ := exists_of_mem_forall₂ hmade hx
      rw [hcheck]
      exact ⟨rfl, rfl, rfl⟩
    have hlooks : xs.map Rule.look = p.checks.map fun x =>
        p.checkRule cfg (e.displayed cfg.type p.member.name) x 0 :=
      map_eq_of_forall₂ (hmade.imp fun check x hx => by rw [hx]; rfl)
    rw [fresh_eq_ofMember fun x hx _ => ⟨fun hmem => ?_, (hrule x hx).2.1⟩]
    · unfold ofMember
      split
      · rename_i hp
        rw [List.filter_eq_self.mpr fun x hx => by rw [(hrule x hx).2.2, hp, beq_self_eq_true],
          hlooks]
      · rename_i hp
        rw [List.filter_eq_nil_iff.mpr fun x hx => by
          rw [(hrule x hx).2.2, beq_iff_eq]
          exact hp]
        rfl
    · obtain ⟨r, hr, hkey⟩ := List.mem_map.mp hmem
      exact he.numbered.key_ne_of_own (hrule x hx).1 (hids x hx) hr hkey.symm

end PendingRule.Made

/-! ## 4. Everything that is made for members -/

section Members

open RuleGroup

variable {cfg : Configuration} {e : Engine} {ps : List PendingRule} {xss : List (List Rule)}
variable {k : MemberKey} {r : Rule}

/-- What was gathered last for the declared rules of a member is what their copies show. -/
theorem lastOf_flatten (h : List.Forall₂ (PendingRule.Made cfg e) ps xss) (he : e.Tidy)
    (hids : ∀ x ∈ xss.flatten, e.nextId ≤ x.id) (hr : r ∈ e.registry.rulesOfMember cfg.type k) :
    (lastOf r.uniqueKey (ofMember k xss.flatten)).map Rule.look =
      if r.source = .declared then (ps.filter (PendingRule.isFor k)).getLast?.map fun p =>
        (Action.declaredWith cfg p r).look else none := by
  induction h with
  | nil => simp [lastOf, ofMember]
  | @cons p xs ps xss hp _ ih =>
    rw [List.flatten_cons] at hids ⊢
    have hfirst := hp.lastOf_look he (fun x hx => hids x (List.mem_append_left _ hx)) hr
    have hrest := ih fun x hx => hids x (List.mem_append_right _ hx)
    have hsplit : ofMember k (xs ++ xss.flatten) = ofMember k xs ++ ofMember k xss.flatten :=
      List.filter_append ..
    rw [hsplit, lastOf_append, Option.map_or, hrest, hfirst, List.filter_cons]
    by_cases hsource : r.source = .declared
    · cases hfor : p.isFor k with
      | false => simp
      | true =>
        cases hlast : (ps.filter (PendingRule.isFor k)).getLast? <;>
          simp [hsource, List.getLast?_cons, hlast]
    · simp [hsource]

theorem fresh_flatten (h : List.Forall₂ (PendingRule.Made cfg e) ps xss) (he : e.Tidy)
    (hids : ∀ x ∈ xss.flatten, e.nextId ≤ x.id) :
    (fresh k (e.registry.rulesOfMember cfg.type k) xss.flatten).map Rule.look =
      (ps.filter fun p => p.member.key == k).flatMap fun p => p.checks.map fun x =>
        p.checkRule cfg (e.displayed cfg.type p.member.name) x 0 := by
  induction h with
  | nil => rfl
  | @cons p xs ps xss hp _ ih =>
    rw [List.flatten_cons] at hids ⊢
    have hfirst := hp.fresh_look (k := k) he fun x hx => hids x (List.mem_append_left _ hx)
    have hrest := ih fun x hx => hids x (List.mem_append_right _ hx)
    rw [fresh_append, List.map_append, hfirst, hrest, List.filter_cons]
    by_cases hp : p.member.key = k
    · simp [hp]
    · simp [hp]

end Members

/-! ## 5. Everything that is gathered -/

namespace Engine

variable {c : Nat} {e mid : Engine} {again providers : List Rule} {xss : List (List Rule)}
variable {k : MemberKey} {r x : Rule}

namespace Gathered

open RuleGroup

/-- Copies of registered rules take their places. -/
theorem copy_of_mem (h : e.Gathered c again xss providers mid) (he : e.Tidy) (hx : x ∈ again)
    (hk : x.member.key = k) : (e.configuration c).settingsChanged = true ∧
      ∃ r ∈ e.registry.rulesOfMember (e.configuration c).type k,
        ((e.configuration c).complete r).IsCopy x := by
  obtain ⟨y, hy, hcopied⟩ := exists_of_mem_forall₂ h.copies hx
  split at hy
  · obtain ⟨r, hr, rfl⟩ := List.mem_map.mp hy
    have hplace : x.place = r.place := hcopied.place
    have hthere := he.keyed.registry.mem_rulesOfMember (List.mem_filter.mp hr).1
    rw [← Rule.member_of_place hplace, hk] at hthere
    exact ⟨‹_›, r, hthere, hcopied⟩
  · cases hy

/-- **What is gathered under the key of a registered rule** has its place. -/
theorem place_eq (h : e.Gathered c again xss providers mid) (he : e.Tidy)
    (hr : r ∈ e.registry.rulesOfMember (e.configuration c).type k)
    (hx : x ∈ whole c e again xss providers) (hk : x.member.key = k)
    (hkey : x.uniqueKey = r.uniqueKey) : x.place = r.place := by
  rcases mem_whole.mp hx with hx | ⟨y, hy, rfl⟩
  · rcases h.cases_of_mem he.keyed hx with ⟨r', hr', hplace⟩ | hown
    · rw [hk] at hr'
      obtain rfl := he.keyed.registry.eq_of_uniqueKey hr hr'
        ((Rule.uniqueKey_of_place hplace).symm.trans hkey)
      exact hplace
    · exact absurd hkey (he.numbered.key_ne_of_own hown (h.bounds hx).1 hr)
  · have hne : y.uniqueKey ≠ r.uniqueKey := he.numbered.key_ne_of_listed hy hr
    exact absurd hkey hne

/-- What is gathered under no key of a registered rule has its own number in its key. -/
theorem own_of_beside (h : e.Gathered c again xss providers mid) (he : e.Tidy)
    (hx : x ∈ beside (e.registry.rulesOfMember (e.configuration c).type k)
      (ofMember k (whole c e again xss providers))) : x.IsOwn := by
  obtain ⟨hx, hkey⟩ := mem_beside.mp hx
  obtain ⟨hx, hk⟩ := mem_ofMember.mp hx
  rcases mem_whole.mp hx with hx | ⟨y, hy, rfl⟩
  · rcases h.cases_of_mem he.keyed hx with ⟨r, hr, hplace⟩ | hown
    · rw [hk] at hr
      rw [Rule.uniqueKey_of_place hplace] at hkey
      exact absurd (List.mem_map_of_mem hr) hkey
    · exact hown
  · exact (he.numbered.listedRules_isOwn hy).1

/-- No two rules that are gathered have the same number. -/
theorem nodup_whole (h : e.Gathered c again xss providers mid) (he : e.Tidy) :
    ((whole c e again xss providers).map Rule.id).Nodup := by
  have hperm : ((again ++ xss.flatten ++ providers) ++
      (e.listedRules c).map (e.configuration c).complete).Perm (whole c e again xss providers) := by
    unfold whole
    rw [List.append_assoc (again ++ xss.flatten), List.append_assoc (again ++ xss.flatten)]
    exact List.perm_append_comm.append_left _
  refine (hperm.map Rule.id).nodup_iff.mp ?_
  rw [List.map_append, h.ids, List.map_map]
  refine List.nodup_append.mpr ⟨List.nodup_range', he.numbered.nodup_listedRules c, ?_⟩
  intro id hid id' hid'
  obtain ⟨y, hy, rfl⟩ := List.mem_map.mp hid'
  have hle := (List.mem_range'_1.mp hid).1
  have hlt := (he.numbered.listedRules_isOwn hy).2.1
  show id ≠ y.id
  omega

/-- So none of the new ones are under the same key. -/
theorem nodup_beside (h : e.Gathered c again xss providers mid) (he : e.Tidy) (k : MemberKey) :
    ((beside (e.registry.rulesOfMember (e.configuration c).type k)
      (ofMember k (whole c e again xss providers))).map Rule.uniqueKey).Nodup := by
  have hsub : (beside (e.registry.rulesOfMember (e.configuration c).type k)
      (ofMember k (whole c e again xss providers))).Sublist (whole c e again xss providers) :=
    List.filter_sublist.trans List.filter_sublist
  have hids := (h.nodup_whole he).sublist (hsub.map Rule.id)
  refine List.pairwise_map.mpr ((List.pairwise_map.mp hids).imp_of_mem fun hx hy hne heq => ?_)
  exact hne ((h.own_of_beside he hy).id_eq (h.own_of_beside he hx) heq)

/-- What is gathered under the key of a registered rule comes from what was gathered for members, or
is a copy that is registered again. -/
theorem lastOf_whole_eq (h : e.Gathered c again xss providers mid) (he : e.Tidy)
    (hr : r ∈ e.registry.rulesOfMember (e.configuration c).type k) :
    lastOf r.uniqueKey (ofMember k (whole c e again xss providers)) =
      (lastOf r.uniqueKey (ofMember k xss.flatten)).or (lastOf r.uniqueKey (ofMember k again)) := by
  have hcarried : lastOf r.uniqueKey (ofMember k providers) = none := lastOf_eq_none fun x hx => by
    have hx := (mem_ofMember.mp hx).1
    obtain ⟨p, -, -, hown, -⟩ := exists_of_mem_forall₂ h.carriers hx
    exact he.numbered.key_ne_of_own hown (h.bounds (List.mem_append_right _ hx)).1 hr
  have hbuilt : lastOf r.uniqueKey
      (ofMember k ((e.listedRules c).map (e.configuration c).complete)) = none :=
    lastOf_eq_none fun x hx => by
      obtain ⟨y, hy, rfl⟩ := List.mem_map.mp (mem_ofMember.mp hx).1
      have hne : y.uniqueKey ≠ r.uniqueKey := he.numbered.key_ne_of_listed hy hr
      exact hne
  have hsplit : ofMember k (whole c e again xss providers) = ofMember k again ++
      ofMember k xss.flatten ++ ofMember k ((e.listedRules c).map (e.configuration c).complete) ++
      ofMember k providers := by
    unfold whole ofMember
    rw [List.filter_append, List.filter_append, List.filter_append]
  rw [hsplit, lastOf_append, lastOf_append, lastOf_append, hcarried, hbuilt, Option.none_or,
    Option.none_or]

/-- **The last rule that is gathered under the key of a registered one** is as this one comes to
stand, but for its number. -/
theorem lastOf_whole (h : e.Gathered c again xss providers mid) (he : e.Tidy)
    (hr : r ∈ (e.registry.checksAt (e.configuration c).type k)) :
    ((lastOf r.uniqueKey (ofMember k (whole c e again xss providers))).getD r).look =
      ((e.configuration c).renewed
        (((e.configuration c).pending.filter (PendingRule.isFor k)).getLast?) r).look := by
  obtain ⟨hr, hcheck⟩ := Registry.mem_checksAt.mp hr
  have hmade := lastOf_flatten h.made he
    (fun x hx => (h.bounds (List.mem_append_left _ (List.mem_append_right _ hx))).1) hr
  have hagain : (lastOf r.uniqueKey (ofMember k again)).map Rule.look =
      if (e.configuration c).settingsChanged then some ((e.configuration c).complete r).look
      else none := by
    have hcopy : ∀ x ∈ ofMember k again, x.uniqueKey = r.uniqueKey →
        (e.configuration c).settingsChanged = true ∧
          x.look = ((e.configuration c).complete r).look := by
      intro x hx hkey
      obtain ⟨hx, hk⟩ := mem_ofMember.mp hx
      obtain ⟨hsettings, r', hr', hcopied⟩ := h.copy_of_mem he hx hk
      obtain rfl := he.keyed.registry.eq_of_uniqueKey hr hr'
        ((Rule.uniqueKey_of_place hcopied.place).symm.trans hkey)
      exact ⟨hsettings, hcopied.look⟩
    split
    · rename_i hsettings
      have hcopies := h.copies
      rw [if_pos hsettings] at hcopies
      refine look_lastOf ?_ fun x hx hkey => (hcopy x hx hkey).2
      have hthere : r ∈ e.registry.rulesOf (e.configuration c).type :=
        Registry.mem_rulesOf_of_member hr
      obtain ⟨x, hx, hcopied⟩ := exists_of_mem_left hcopies
        (List.mem_map_of_mem (List.mem_filter.mpr ⟨hthere, hcheck⟩))
      have hplace : x.place = r.place := hcopied.place
      refine ⟨x, mem_ofMember.mpr ⟨hx, ?_⟩, Rule.uniqueKey_of_place hplace⟩
      rw [Rule.member_of_place hplace]
      exact he.keyed.registry.home _ _ r hr
    · rename_i hsettings
      rw [lastOf_eq_none fun x hx hkey => hsettings (hcopy x hx hkey).1]
      rfl
  have hlook : ∀ o : Option Rule, (o.getD r).look = (o.map Rule.look).getD r.look := fun o => by
    cases o <;> rfl
  rw [hlook, h.lastOf_whole_eq he hr, Option.map_or, hmade, hagain]
  unfold Configuration.renewed Configuration.refreshed
  cases hsource : r.source <;>
    cases ((e.configuration c).pending.filter (PendingRule.isFor k)).getLast? <;>
    cases (e.configuration c).settingsChanged <;> simp

/-- **What is gathered and new** are the checks that were gathered, and those of builders. -/
theorem fresh_whole (h : e.Gathered c again xss providers mid) (he : e.Tidy)
    (hnone : (e.configuration c).current = none) (k : MemberKey) :
    (fresh k (e.registry.rulesOfMember (e.configuration c).type k)
      (whole c e again xss providers)).map Rule.look = e.newChecks c k := by
  have hids : ∀ x ∈ xss.flatten, e.nextId ≤ x.id := fun x hx =>
    (h.bounds (List.mem_append_left _ (List.mem_append_right _ hx))).1
  have hagain : fresh k (e.registry.rulesOfMember (e.configuration c).type k) again = [] :=
    fresh_eq_nil fun x hx hk _ => by
      obtain ⟨-, r, hr, hcopied⟩ := h.copy_of_mem he hx hk
      have hplace : x.place = r.place := hcopied.place
      rw [Rule.uniqueKey_of_place hplace]
      exact List.mem_map_of_mem hr
  have hcarried : fresh k (e.registry.rulesOfMember (e.configuration c).type k) providers = [] :=
    fresh_eq_nil fun x hx _ hhas => by
      obtain ⟨p, -, -, -, hcheck⟩ := exists_of_mem_forall₂ h.carriers hx
      rw [hcheck] at hhas
      cases hhas
  have hbuilt : fresh k (e.registry.rulesOfMember (e.configuration c).type k)
      ((e.listedRules c).map (e.configuration c).complete) =
      ((e.listedRules c).filter fun r => r.member.key == k).map (e.configuration c).complete := by
    rw [fresh_eq_ofMember fun x hx _ => ?_]
    · unfold ofMember
      rw [List.filter_map]
      rfl
    · obtain ⟨y, hy, rfl⟩ := List.mem_map.mp hx
      refine ⟨fun hmem => ?_, (he.numbered.listedRules_isOwn hy).2.2⟩
      obtain ⟨r, hr, hkey⟩ := List.mem_map.mp hmem
      exact he.numbered.key_ne_of_listed hy hr hkey.symm
  have hgathered := Configuration.gathered_eq_pending hnone
  unfold whole newChecks
  dsimp only
  rw [fresh_append, fresh_append, fresh_append, hagain, hcarried, hbuilt, List.nil_append,
    List.append_nil, List.map_append, fresh_flatten h.made he hids, List.map_map, hgathered]
  rfl

/-- **What a member is left with** when everything that was gathered has been registered. -/
theorem registers (h : e.Gathered c again xss providers mid) (he : e.Tidy)
    (hnone : (e.configuration c).current = none) (k : MemberKey) :
    ((mid.registry.addAll (e.configuration c).type (whole c e again xss providers)).checksAt
      (e.configuration c).type k).map Rule.look =
      e.checksToCome c k ((e.configuration c).lastBlock k) := by
  have hkeys := he.keyed.registry.unique (e.configuration c).type k
  have hchecks : ∀ r ∈ e.registry.rulesOfMember (e.configuration c).type k,
      ((lastOf r.uniqueKey (ofMember k (whole c e again xss providers))).getD r).hasCheck =
        r.hasCheck := by
    intro r hr
    cases hlast : lastOf r.uniqueKey (ofMember k (whole c e again xss providers)) with
    | none => rfl
    | some x =>
      obtain ⟨hx, hkey⟩ := uniqueKey_lastOf hlast
      obtain ⟨hx, hk⟩ := mem_ofMember.mp hx
      exact congrArg Option.isSome (Rule.validator_of_place (h.place_eq he hr hx hk hkey))
  have hgathered := Configuration.gathered_eq_pending hnone
  unfold Registry.checksAt
  rw [Registry.rulesOfMember_addAll, h.registry, foldl_put_eq hkeys (h.nodup_beside he k),
    List.filter_append, List.map_append, List.filter_map]
  unfold checksToCome
  refine congrArg₂ (· ++ ·) ?_ (h.fresh_whole he hnone k)
  have hfilter : (e.registry.rulesOfMember (e.configuration c).type k).filter (Rule.hasCheck ∘
      fun r => (lastOf r.uniqueKey (ofMember k (whole c e again xss providers))).getD r) =
      e.registry.checksAt (e.configuration c).type k := List.filter_congr hchecks
  rw [hfilter, List.map_map]
  refine List.map_congr_left fun r hr => ?_
  rw [Configuration.lastBlock, hgathered]
  exact h.lastOf_whole he hr

end Gathered

end Engine

/-! ## 6. Building -/

namespace Action

open Engine

variable {c : Nat} {e e' : Engine} {out : List Rule}

/-- What was started last is put away before everything is gathered. -/
theorem configuration_committed (hc : c < e.configurations.length) :
    (e.committed c).configuration c = { e.configuration c with
      pending := (e.configuration c).gathered, current := none } :=
  configuration_updateConfiguration_self hc _

/-- **A build registers everything that is gathered** once what was started last has been put away. -/
theorem build_gathers (he : e.Tidy) (hc : c < e.configurations.length)
    (h : build c e = (.ok out, e')) :
    (e.committed c).Tidy ∧ ∃ again xss providers mid,
      (e.committed c).Gathered c again xss providers mid ∧
      e'.registry = mid.registry.registering ((e.configuration c).type,
        whole c (e.committed c) again xss providers) := by
  obtain ⟨_, mid, hgather, hregistry⟩ := build_registry h
  obtain ⟨_, e₁, hput, hgather⟩ := bind_eq_ok.mp hgather
  obtain ⟨cfg, e₂, hcfg, hgather⟩ := bind_eq_ok.mp hgather
  cases hcfg
  obtain ⟨rs, e₃, hgather, hlast⟩ := bind_eq_ok.mp hgather
  cases hlast
  have htidy := (commit_tidy c e he).1
  rw [hput] at htidy
  rw [commit_apply (congrArg Prod.fst hput)] at hput
  obtain rfl : e.committed c = e₁ := congrArg Prod.snd hput
  obtain ⟨again, xss, providers, rfl, hgathered⟩ := gather_eq_ok htidy.numbered hgather
  refine ⟨htidy, again, xss, providers, _, hgathered, ?_⟩
  have htype : ((e.committed c).configuration c).type = (e.configuration c).type := by
    rw [configuration_committed hc]
  rw [hregistry, htype]

/-- Putting away what was started last makes no difference to what comes to stand. -/
theorem checksToCome_committed (hc : c < e.configurations.length) (k : MemberKey)
    (block : Option PendingRule) :
    (e.committed c).checksToCome c k block = e.checksToCome c k block := by
  have hgathered : ((e.committed c).configuration c).gathered = (e.configuration c).gathered := by
    rw [configuration_committed hc, Configuration.gathered]
    exact List.append_nil _
  unfold checksToCome newChecks listedRules
  dsimp only
  rw [hgathered, configuration_committed hc]
  rfl

/-- **What a build leaves of the checks of a member**: those that were registered, with the last block
for their member, and those that were gathered. -/
theorem build_registers (he : e.Tidy) (hc : c < e.configurations.length)
    (h : build c e = (.ok out, e')) (k : MemberKey) :
    (e'.registry.checksAt (e.configuration c).type k).map Rule.look =
      e.checksToCome c k ((e.configuration c).lastBlock k) := by
  obtain ⟨htidy, again, xss, providers, mid, hgathered, hregistry⟩ := build_gathers he hc h
  have hcfg := configuration_committed hc
  have hregisters := hgathered.registers htidy (by rw [hcfg]) k
  have htype : ((e.committed c).configuration c).type = (e.configuration c).type := by rw [hcfg]
  have hblock : ((e.committed c).configuration c).lastBlock k = (e.configuration c).lastBlock k := by
    rw [hcfg]
    unfold Configuration.lastBlock Configuration.gathered
    rw [Option.toList_none, List.append_nil]
  rw [hblock, checksToCome_committed hc, htype] at hregisters
  rw [hregistry]
  exact hregisters

/-- If a type has been built for which checks were gathered, its members can be read. -/
theorem canReflect_of_build (he : e.Tidy) (hc : c < e.configurations.length)
    (h : build c e = (.ok out, e')) {p : PendingRule} (hp : p ∈ (e.configuration c).gathered)
    (hchecks : p.checks ≠ []) : e.CanReflect (e.configuration c).type := by
  obtain ⟨-, again, xss, providers, mid, hgathered, -⟩ := build_gathers he hc h
  have hcfg := configuration_committed hc
  have hpending : p ∈ ((e.committed c).configuration c).pending := by
    rw [hcfg]
    exact hp
  obtain ⟨xs, -, hmade⟩ := exists_of_mem_left hgathered.made hpending
  have hreflects := (hmade.checks hchecks).1
  rw [hcfg] at hreflects
  exact hreflects

end Action

end MemberRules
