/-
# The declared rules of a type in a registry

Deriving the declared rules of a type and registering them gives the registry just these rules, in
the order of the members and, within a member, of its attributes.  Doing so again changes nothing
but the identities of the rules: the members of a type have different names, the attributes of a
member have different places, and the key of a rule is made of both, so every rule that comes in
again takes the place of its former self.

That keys tell rules apart is a fact about texts.  The place of an attribute is written in digits
after the last colon before the name of the type, so two rules of one member have different keys
whatever their kinds are called.  The name of the member stands after the last dot, so two members
have different keys as long as no dot stands in their names.

* `UniqueKey.ofDeclaration_inj`, `UniqueKey.member_of_ofDeclaration_eq`: keys tell rules apart.
* `RuleGroup.enter_groups`: rules that come in group by group, for the first time or again.
* `Adapts`: the rules of a type with given members, one for each place of an attribute.
* `registers_what_was_declared`: registering them once or several times.
-/
import MemberRules.Proofs.Model.Reflection
import MemberRules.Proofs.Registry.History

namespace MemberRules

open MemberRules.Computation

/-! ## 1. Keys -/

/-- A list that was put together around a mark which its end does not hold is taken apart again at
its last mark. -/
theorem append_cons_inj_of_notMem {α : Type} {as as' bs bs' : List α} {c : α} (hbs : c ∉ bs)
    (hbs' : c ∉ bs') (h : as ++ c :: bs = as' ++ c :: bs') : as = as' ∧ bs = bs' := by
  rcases List.append_eq_append_iff.mp h with ⟨mid, rfl, hmid⟩ | ⟨mid, rfl, hmid⟩
  · cases mid with
    | nil => exact ⟨by simp, (List.cons.inj hmid).2⟩
    | cons x mid =>
      obtain ⟨-, rfl⟩ := List.cons.inj hmid
      exact absurd (List.mem_append_right mid List.mem_cons_self) hbs
  · cases mid with
    | nil => exact ⟨by simp, (List.cons.inj hmid).2.symm⟩
    | cons x mid =>
      obtain ⟨-, rfl⟩ := List.cons.inj hmid
      exact absurd (List.mem_append_right mid List.mem_cons_self) hbs'

namespace Number

theorem natText_inj {m n : Nat} (h : natText m = natText n) : m = n := by
  have hdigits : Nat.toDigits 10 m = Nat.toDigits 10 n := String.ofList_injective h
  calc
    m = Nat.ofDigitChars 10 (Nat.toDigits 10 m) 0 := Nat.ofDigitChars_ten_toDigits.symm
    _ = Nat.ofDigitChars 10 (Nat.toDigits 10 n) 0 := by rw [hdigits]
    _ = n := Nat.ofDigitChars_ten_toDigits

/-- Only digits are written for a number. -/
theorem notMem_natText {c : Char} (hc : c.isDigit = false) (n : Nat) : c ∉ (natText n).toList := by
  intro hmem
  have hdigits : c ∈ Nat.toDigits 10 n := by simpa [natText] using hmem
  have hdigit := Nat.isDigit_of_mem_toDigits (by decide) (by decide) hdigits
  rw [hc] at hdigit
  cases hdigit

end Number

namespace UniqueKey

variable {kind kind' : String} {n n' : Nat} {t : TypeId} {m m' : String}

/-- **Keys tell the attributes of a member apart**: the place of an attribute stands between the last
colon and what the keys of one member have in common. -/
theorem ofDeclaration_inj (h : ofDeclaration kind n t m = ofDeclaration kind' n' t m) :
    kind = kind' ∧ n = n' := by
  have htexts := congrArg String.toList (UniqueKey.named.inj h)
  unfold compose at htexts
  simp only [String.toList_append] at htexts
  have hkinds := List.append_cancel_right (List.append_cancel_right
    (List.append_cancel_right (List.append_cancel_right htexts)))
  have hparts : ∀ k i, "[".toList ++ k ++ ":".toList ++ i = ("[".toList ++ k) ++ ':' :: i :=
    fun k i => by simp
  rw [hparts, hparts] at hkinds
  have hcolon : Char.isDigit ':' = false := rfl
  obtain ⟨hkind, hplace⟩ := append_cons_inj_of_notMem (Number.notMem_natText hcolon n)
    (Number.notMem_natText hcolon n') hkinds
  exact ⟨String.toList_injective (List.append_cancel_left hkind),
    Number.natText_inj (String.toList_injective hplace)⟩

/-- **Keys tell members apart** whose names hold no dot: the name stands after the last one. -/
theorem member_of_ofDeclaration_eq (hm : '.' ∉ m.toList) (hm' : '.' ∉ m'.toList)
    (h : ofDeclaration kind n t m = ofDeclaration kind' n' t m') : m = m' := by
  have htexts := congrArg String.toList (UniqueKey.named.inj h)
  unfold compose at htexts
  simp only [String.toList_append] at htexts
  have hparts : ∀ front name, front ++ ".".toList ++ name = front ++ '.' :: name :=
    fun front name => by simp
  rw [hparts, hparts] at htexts
  exact String.toList_injective (append_cons_inj_of_notMem hm hm' htexts).2

end UniqueKey

/-! ## 2. The rules of a member -/

namespace MemberInfo

variable {s : Schema} {t : TypeId} {m : MemberInfo} {r : Rule}

/-- The rules that a member makes, one for each place among its attributes. -/
def placedRules (s : Schema) (t : TypeId) (m : MemberInfo) : List Rule :=
  if m.attributes.isEmpty then (if s.isValidatable t then [m.anchor t] else [])
  else m.attributes.zipIdx.map fun a => m.declaredRule t a.1 a.2

theorem eq_placedRules {rs : List Rule} (h : m.declaredRules s t = .ok rs) :
    rs = m.placedRules s t := by
  unfold declaredRules at h
  unfold placedRules
  split at h
  · rename_i hempty
    rw [if_pos hempty]
    cases h
    rfl
  · rename_i hne
    rw [if_neg hne, ← List.map_id rs]
    refine map_of_mapM_eq_ok h fun a r hr => ?_
    obtain ⟨-, -, hr⟩ := except_bind_eq_ok.mp hr
    cases hr
    rfl

theorem mem_placedRules : r ∈ m.placedRules s t ↔
    (∃ n a, m.attributes[n]? = some a ∧ r = m.declaredRule t a n) ∨
      m.attributes = [] ∧ s.isValidatable t = true ∧ r = m.anchor t := by
  unfold placedRules
  split
  · rename_i hempty
    have hnil : m.attributes = [] := List.isEmpty_iff.mp hempty
    by_cases hvalidatable : s.isValidatable t = true
    · simp [hnil, hvalidatable]
    · simp [hnil, hvalidatable]
  · rename_i hne
    have hnil : m.attributes ≠ [] := fun h => hne (List.isEmpty_iff.mpr h)
    constructor
    · intro hr
      obtain ⟨⟨a, n⟩, ha, rfl⟩ := List.mem_map.mp hr
      exact .inl ⟨n, a, List.mem_zipIdx_iff_getElem?.mp ha, rfl⟩
    · rintro (⟨n, a, ha, rfl⟩ | ⟨hempty, -⟩)
      · exact List.mem_map.mpr ⟨(a, n), List.mem_zipIdx_iff_getElem?.mpr ha, rfl⟩
      · exact absurd hempty hnil

theorem member_of_mem_placedRules (h : r ∈ m.placedRules s t) : r.member = m.member := by
  rcases mem_placedRules.mp h with ⟨n, a, -, rfl⟩ | ⟨-, -, rfl⟩ <;> rfl

theorem value_of_mem_placedRules (h : r ∈ m.placedRules s t) : r.value = r := by
  rcases mem_placedRules.mp h with ⟨n, a, -, rfl⟩ | ⟨-, -, rfl⟩ <;> rfl

/-- A rule of a member has a key that names the member. -/
theorem key_of_mem_placedRules (h : r ∈ m.placedRules s t) :
    ∃ kind n, r.uniqueKey = .ofDeclaration kind n t m.member.name := by
  rcases mem_placedRules.mp h with ⟨n, a, -, rfl⟩ | ⟨-, -, rfl⟩ <;> exact ⟨_, _, rfl⟩

theorem keys_placedRules_nodup (s : Schema) (t : TypeId) (m : MemberInfo) :
    ((m.placedRules s t).map Rule.uniqueKey).Nodup := by
  unfold placedRules
  split
  · split
    · exact List.nodup_singleton _
    · exact List.nodup_nil
  · rw [List.map_map]
    have hplaces : (m.attributes.zipIdx.map Prod.snd).Nodup := by
      rw [List.zipIdx_map_snd]
      exact List.nodup_range'
    refine List.pairwise_map.mpr ((List.pairwise_map.mp hplaces).imp fun hne heq => hne ?_)
    exact (UniqueKey.ofDeclaration_inj heq).2

end MemberInfo

theorem Schema.eq_placedRules {s : Schema} {t : TypeId} {ms : List MemberInfo} {rs : List Rule}
    (h : s.declaredRules t ms = .ok rs) : rs = ms.flatMap (MemberInfo.placedRules s t) := by
  obtain ⟨rss, hmade, rfl⟩ := except_map_eq_ok.mp h
  have hrss : rss.map id = ms.map (MemberInfo.placedRules s t) :=
    map_of_mapM_eq_ok hmade fun m rs hrs => MemberInfo.eq_placedRules hrs
  rw [List.map_id] at hrss
  rw [hrss, List.flatMap_def]

/-! ## 3. Rules that come in group by group -/

namespace RuleGroup

/-- A group of rules of its member with different keys. -/
structure Proper (g : RuleGroup) : Prop where
  nonempty : g.rules ≠ []
  member : ∀ r ∈ g.rules, r.member.key = g.member.key
  keys : (g.rules.map Rule.uniqueKey).Nodup

/-- The keys of a group: that of its member, and those of its rules. -/
def keys (g : RuleGroup) : MemberKey × List UniqueKey := (g.member.key, g.rules.map Rule.uniqueKey)

/-- The members of groups. -/
def members (gs : List RuleGroup) : List MemberKey := gs.map fun g => g.member.key

/-- The groups of a type after rules have come in. -/
def enter (gs : List RuleGroup) (rs : List Rule) : List RuleGroup :=
  rs.foldl (fun gs r => update r.member (put r) gs) gs

theorem put_append {r : Rule} {done rs : List Rule}
    (h : r.uniqueKey ∉ done.map Rule.uniqueKey) : put r (done ++ rs) = done ++ put r rs := by
  induction done with
  | nil => rfl
  | cons x done ih =>
    rw [List.map_cons, List.mem_cons, not_or] at h
    obtain ⟨hx, hdone⟩ := h
    rw [List.cons_append, put, if_neg (by simpa using Ne.symm hx), ih hdone, List.cons_append]

theorem update_append {m : MemberRef} {f : List Rule → List Rule} {done gs : List RuleGroup}
    (h : m.key ∉ members done) : update m f (done ++ gs) = done ++ update m f gs := by
  induction done with
  | nil => rfl
  | cons g done ih =>
    unfold members at h
    rw [List.map_cons, List.mem_cons, not_or] at h
    obtain ⟨hg, hdone⟩ := h
    rw [List.cons_append, update, if_neg (by simpa using Ne.symm hg), ih hdone, List.cons_append]

/-- **Rules that come in again take the places of those with their keys**; the first ones that are
new stand behind them.  The induction is on the rules that still have to come in, with those that
have come in kept in front. -/
theorem foldl_put {done old rs : List Rule}
    (hkeys : old.map Rule.uniqueKey <+: rs.map Rule.uniqueKey)
    (hnodup : ((done ++ rs).map Rule.uniqueKey).Nodup) :
    rs.foldl (fun xs r => put r xs) (done ++ old) = done ++ rs := by
  induction rs generalizing done old with
  | nil =>
    obtain rfl : old = [] := by simpa using hkeys
    rfl
  | cons r rs ih =>
    have hnew : r.uniqueKey ∉ done.map Rule.uniqueKey := by
      rw [List.map_append, List.map_cons] at hnodup
      exact fun hmem => (List.nodup_append.mp hnodup).2.2 _ hmem _ List.mem_cons_self rfl
    have hassoc : done ++ r :: rs = (done ++ [r]) ++ rs := by simp
    rw [hassoc] at hnodup ⊢
    rw [List.foldl_cons, put_append hnew]
    cases old with
    | nil =>
      have hput : done ++ put r [] = (done ++ [r]) ++ [] := by simp [put]
      rw [hput]
      exact ih List.nil_prefix hnodup
    | cons x old =>
      rw [List.map_cons, List.map_cons, List.cons_prefix_cons] at hkeys
      obtain ⟨hkey, hrest⟩ := hkeys
      have hput : done ++ put r (x :: old) = (done ++ [r]) ++ old := by simp [put, hkey]
      rw [hput]
      exact ih hrest hnodup

/-- Rules of one member come into its group. -/
theorem enter_rules {done gs : List RuleGroup} {g : RuleGroup} {rs : List Rule}
    (hmember : ∀ r ∈ rs, r.member.key = g.member.key) (hnew : g.member.key ∉ members done) :
    enter (done ++ g :: gs) rs =
      done ++ { g with rules := rs.foldl (fun xs r => put r xs) g.rules } :: gs := by
  induction rs generalizing g with
  | nil => rfl
  | cons r rs ih =>
    obtain ⟨hr, hrs⟩ := List.forall_mem_cons.mp hmember
    have hfirst : update r.member (put r) (done ++ g :: gs) =
        done ++ { g with rules := put r g.rules } :: gs := by
      rw [update_append (hr ▸ hnew), update, if_pos (beq_iff_eq.mpr hr.symm)]
    have hstep : enter (done ++ g :: gs) (r :: rs) =
        enter (update r.member (put r) (done ++ g :: gs)) rs := rfl
    rw [hstep, hfirst]
    exact ih (g := { g with rules := put r g.rules }) hrs hnew

/-- The rules of a group whose member is not there yet make a group of their own. -/
theorem enter_new {done : List RuleGroup} {g : RuleGroup} (hg : g.Proper)
    (hnew : g.member.key ∉ members done) :
    ∃ r ∈ g.rules, enter done g.rules = done ++ [⟨r.member, g.rules⟩] := by
  cases hrules : g.rules with
  | nil => exact absurd hrules hg.nonempty
  | cons r rs =>
    have hmember := hg.member
    have hkeys := hg.keys
    rw [hrules] at hmember hkeys
    obtain ⟨hr, hrs⟩ := List.forall_mem_cons.mp hmember
    have hfirst : update r.member (put r) done = done ++ [⟨r.member, [r]⟩] := by
      have happend : update r.member (put r) (done ++ []) = done ++ update r.member (put r) [] :=
        update_append (hr ▸ hnew)
      rw [List.append_nil] at happend
      rw [happend]
      rfl
    have hstep : enter done (r :: rs) = enter (update r.member (put r) done) rs := rfl
    have hrest : enter (done ++ [⟨r.member, [r]⟩]) rs =
        done ++ [⟨r.member, rs.foldl (fun xs r => put r xs) [r]⟩] :=
      enter_rules (fun r' hr' => (hrs r' hr').trans hr.symm) (hr ▸ hnew)
    have hput : rs.foldl (fun xs r => put r xs) ([r] ++ []) = [r] ++ rs :=
      foldl_put List.nil_prefix hkeys
    rw [List.append_nil] at hput
    refine ⟨r, List.mem_cons_self, ?_⟩
    rw [hstep, hfirst, hrest, hput]
    rfl

/-- The rules of groups whose members are not there yet make these groups. -/
theorem enter_new_groups {done gs : List RuleGroup} (hgs : ∀ g ∈ gs, g.Proper)
    (hmember : ∀ g ∈ gs, ∀ r ∈ g.rules, r.member = g.member)
    (hnodup : (members (done ++ gs)).Nodup) : enter done (gs.flatMap rules) = done ++ gs := by
  induction gs generalizing done with
  | nil => exact (List.append_nil done).symm
  | cons g gs ih =>
    obtain ⟨hg, hrest⟩ := List.forall_mem_cons.mp hgs
    obtain ⟨hmine, hothers⟩ := List.forall_mem_cons.mp hmember
    have hnew : g.member.key ∉ members done := by
      unfold members at hnodup ⊢
      rw [List.map_append, List.map_cons] at hnodup
      exact fun hmem => (List.nodup_append.mp hnodup).2.2 _ hmem _ List.mem_cons_self rfl
    obtain ⟨r, hr, hfirst⟩ := enter_new hg hnew
    rw [hmine r hr] at hfirst
    have hassoc : done ++ g :: gs = (done ++ [g]) ++ gs := by simp
    have hsplit : enter done ((g :: gs).flatMap rules) =
        enter (enter done g.rules) (gs.flatMap rules) := by
      unfold enter
      rw [List.flatMap_cons, List.foldl_append]
    rw [hassoc] at hnodup ⊢
    rw [hsplit, hfirst]
    exact ih hrest hothers hnodup

/-- **Rules that come in group by group make these groups**, if there was nothing, or only groups
that the first of them renew. -/
theorem enter_groups {done old gs : List RuleGroup} (hgs : ∀ g ∈ gs, g.Proper)
    (hnodup : (members (done ++ gs)).Nodup) (hkeys : old.map keys <+: gs.map keys) :
    ∃ new, enter (done ++ old) (gs.flatMap rules) = done ++ new ∧
      List.Forall₂ (fun g g' : RuleGroup => g'.member.key = g.member.key ∧ g'.rules = g.rules)
        gs new := by
  induction gs generalizing done old with
  | nil =>
    obtain rfl : old = [] := by simpa using hkeys
    exact ⟨[], rfl, .nil⟩
  | cons g gs ih =>
    obtain ⟨hg, hrest⟩ := List.forall_mem_cons.mp hgs
    have hnew : g.member.key ∉ members done := by
      unfold members at hnodup ⊢
      rw [List.map_append, List.map_cons] at hnodup
      exact fun hmem => (List.nodup_append.mp hnodup).2.2 _ hmem _ List.mem_cons_self rfl
    obtain ⟨m, old', hm, hold, hfirst⟩ : ∃ (m : MemberRef) (old' : List RuleGroup),
        m.key = g.member.key ∧ old'.map keys <+: gs.map keys ∧
          enter (done ++ old) g.rules = (done ++ [⟨m, g.rules⟩]) ++ old' := by
      cases old with
      | nil =>
        obtain ⟨r, hr, hfirst⟩ := enter_new hg hnew
        refine ⟨r.member, [], hg.member r hr, List.nil_prefix, ?_⟩
        rw [List.append_nil, List.append_nil, hfirst]
      | cons x old =>
        rw [List.map_cons, List.map_cons, List.cons_prefix_cons] at hkeys
        obtain ⟨hkeys, hold⟩ := hkeys
        obtain ⟨hmember, hrules⟩ := Prod.mk.inj hkeys
        refine ⟨x.member, old, hmember, hold, ?_⟩
        have hput : g.rules.foldl (fun xs r => put r xs) ([] ++ x.rules) = [] ++ g.rules :=
          foldl_put (hrules ▸ List.prefix_rfl) hg.keys
        rw [List.nil_append, List.nil_append] at hput
        rw [enter_rules (fun r hr => (hg.member r hr).trans hmember.symm) (hmember ▸ hnew), hput]
        simp
    have hmembers : members (done ++ [⟨m, g.rules⟩] ++ gs) = members (done ++ g :: gs) := by
      simp [members, hm]
    obtain ⟨new, hrun, hnewGroups⟩ := ih hrest (hmembers ▸ hnodup) hold
    have hsplit : enter (done ++ old) ((g :: gs).flatMap rules) =
        enter (enter (done ++ old) g.rules) (gs.flatMap rules) := by
      unfold enter
      rw [List.flatMap_cons, List.foldl_append]
    refine ⟨⟨m, g.rules⟩ :: new, ?_, .cons ⟨hm, rfl⟩ hnewGroups⟩
    rw [hsplit, hfirst, hrun]
    simp

/-- Groups are told apart by their keys also if their rules are known by value only. -/
theorem keys_value (g : RuleGroup) : g.value.keys = g.keys := by
  unfold keys value
  rw [List.map_map]
  rfl

theorem Proper.of_value {g : RuleGroup} (h : g.value.Proper) : g.Proper where
  nonempty hnil := h.nonempty (by simp [value, hnil])
  member r hr := h.member r.value (List.mem_map_of_mem hr)
  keys := by
    have hkeys : g.value.rules.map Rule.uniqueKey = g.rules.map Rule.uniqueKey :=
      congrArg Prod.snd (keys_value g)
    exact hkeys ▸ h.keys

/-- Rules that are those of groups by value are those of such groups. -/
theorem exists_groups_of_value {gs : List RuleGroup} {rs : List Rule}
    (h : rs.map Rule.value = gs.flatMap rules) :
    ∃ gs' : List RuleGroup, rs = gs'.flatMap rules ∧ gs'.map value = gs := by
  induction gs generalizing rs with
  | nil => exact ⟨[], by simpa using h, rfl⟩
  | cons g gs ih =>
    rw [List.flatMap_cons] at h
    obtain ⟨first, rest, rfl, hfirst, hrest⟩ := List.map_eq_append_iff.mp h
    obtain ⟨gs', rfl, hgs'⟩ := ih hrest
    refine ⟨⟨g.member, first⟩ :: gs', rfl, ?_⟩
    rw [List.map_cons, hgs', value, hfirst]

end RuleGroup

namespace Registry

variable {reg : Registry} {t : TypeId} {gs : List RuleGroup} {rs : List Rule}

theorem allGroups_addAll_eq_enter (reg : Registry) (t : TypeId) (rs : List Rule) :
    (reg.addAll t rs).allGroups t = RuleGroup.enter (reg.allGroups t) rs := by
  rw [allGroups_addAll, List.foldl_map]
  unfold RuleGroup.enter Event.onGroups
  simp only [if_true]

/-- **Rules that are those of groups by value** are what a registry lists after they have been
registered, in their order, if it listed nothing or rules with the same keys before. -/
theorem rulesOf_addAll (hgs : ∀ g ∈ gs, g.Proper) (hnodup : (RuleGroup.members gs).Nodup)
    (hrs : rs.map Rule.value = gs.flatMap RuleGroup.rules)
    (hold : (reg.allGroups t).map RuleGroup.keys <+: gs.map RuleGroup.keys) :
    (reg.addAll t rs).rulesOf t = rs ∧
      ((reg.addAll t rs).allGroups t).map RuleGroup.keys = gs.map RuleGroup.keys := by
  obtain ⟨gs', rfl, rfl⟩ := RuleGroup.exists_groups_of_value hrs
  have hmembers : RuleGroup.members (gs'.map RuleGroup.value) = RuleGroup.members gs' := by
    unfold RuleGroup.members
    rw [List.map_map]
    rfl
  have hkeys : (gs'.map RuleGroup.value).map RuleGroup.keys = gs'.map RuleGroup.keys := by
    rw [List.map_map]
    exact List.map_congr_left fun g _ => RuleGroup.keys_value g
  have hproper : ∀ g ∈ gs', g.Proper := fun g hg => (hgs _ (List.mem_map_of_mem hg)).of_value
  rw [hkeys] at hold ⊢
  have hdone : (RuleGroup.members ([] ++ gs')).Nodup := hmembers ▸ hnodup
  obtain ⟨new, henter, hnew⟩ := RuleGroup.enter_groups hproper hdone hold
  rw [List.nil_append, List.nil_append] at henter
  unfold rulesOf groupsOf
  rw [allGroups_addAll_eq_enter, henter]
  clear henter hdone hgs hnodup hrs hold hmembers hkeys
  induction hnew with
  | nil => exact ⟨rfl, rfl⟩
  | @cons g g' gs' new hg _ ih =>
    obtain ⟨hmember, hrules⟩ := hg
    obtain ⟨hfirst, hrest⟩ := List.forall_mem_cons.mp hproper
    obtain ⟨hlisted, hkeys⟩ := ih hrest
    have hlist : (!g'.rules.isEmpty) = true := by
      rw [hrules]
      simpa using hfirst.nonempty
    constructor
    · rw [List.filter_cons, if_pos hlist, List.flatMap_cons, List.flatMap_cons, hlisted, hrules]
    · rw [List.map_cons, List.map_cons, hkeys]
      unfold RuleGroup.keys
      rw [hmember, hrules]

/-- **Rules that are those of groups by value** make these groups, if nothing was registered for the
type before. -/
theorem shown_addAll (hgs : ∀ g ∈ gs, g.Proper)
    (hmember : ∀ g ∈ gs, ∀ r ∈ g.rules, r.member = g.member) (hnodup : (RuleGroup.members gs).Nodup)
    (hrs : rs.map Rule.value = gs.flatMap RuleGroup.rules) (hnone : reg.allGroups t = []) :
    (reg.addAll t rs).shown t = gs := by
  obtain ⟨gs', rfl, rfl⟩ := RuleGroup.exists_groups_of_value hrs
  have hproper : ∀ g ∈ gs', g.Proper := fun g hg => (hgs _ (List.mem_map_of_mem hg)).of_value
  have hmine : ∀ g ∈ gs', ∀ r ∈ g.rules, r.member = g.member := fun g hg r hr =>
    hmember g.value (List.mem_map_of_mem hg) r.value (List.mem_map_of_mem hr)
  have hdone : (RuleGroup.members ([] ++ gs')).Nodup := by
    unfold RuleGroup.members at hnodup ⊢
    rwa [List.map_map] at hnodup
  have hlisted : gs'.filter (fun g => !g.rules.isEmpty) = gs' :=
    List.filter_eq_self.mpr fun g hg => by simpa using (hproper g hg).nonempty
  unfold shown groupsOf
  rw [allGroups_addAll_eq_enter, hnone, RuleGroup.enter_new_groups hproper hmine hdone,
    List.nil_append, hlisted]

end Registry

/-! ## 4. The rules of a type -/

/-- **The rules of a type with given members.** -/
structure Adapts (s : Schema) (t : TypeId) (ms : List MemberInfo) (rs : List Rule) : Prop where
  /-- They stand member by member, and those of a member in the order of its attributes. -/
  inOrder : rs.map Rule.value = ms.flatMap (MemberInfo.placedRules s t)
  /-- There is one rule to each place among the attributes of a member. -/
  attributes : ∀ m ∈ ms, ∀ n a, m.attributes[n]? = some a →
    ∃! r, r ∈ rs ∧ r.value = m.declaredRule t a n
  /-- There is one anchor to each member without attributes, if the type asks for it. -/
  anchors : ∀ m ∈ ms, m.attributes = [] → s.isValidatable t = true →
    ∃! r, r ∈ rs ∧ r.value = m.anchor t
  /-- There are no other rules. -/
  only : ∀ r ∈ rs, ∃ m ∈ ms, (∃ n a, m.attributes[n]? = some a ∧ r.value = m.declaredRule t a n) ∨
    m.attributes = [] ∧ s.isValidatable t = true ∧ r.value = m.anchor t
  /-- No two rules of one member have the same key. -/
  apart : (rs.map fun r => (r.member.name, r.uniqueKey)).Nodup
  /-- No two rules have the same key. -/
  keys : (∀ m ∈ ms, '.' ∉ m.member.name.toList) → (rs.map Rule.uniqueKey).Nodup

section

variable {s : Schema} {t : TypeId} {ms : List MemberInfo} {rs : List Rule}

/-- What tells the rules of each member apart, and the members, tells all rules apart. -/
theorem placedRules_nodup {κ : Type} (k : Rule → κ) (hnames : (Schema.memberNames ms).Nodup)
    (hmember : ∀ m ∈ ms, ((m.placedRules s t).map k).Nodup)
    (happart : ∀ m ∈ ms, ∀ m' ∈ ms, m.member.name ≠ m'.member.name →
      ∀ r ∈ m.placedRules s t, ∀ r' ∈ m'.placedRules s t, k r ≠ k r') :
    ((ms.flatMap (MemberInfo.placedRules s t)).map k).Nodup := by
  rw [List.map_flatMap, List.nodup_flatMap]
  refine ⟨hmember, (List.pairwise_map.mp hnames).imp_of_mem fun hm hm' hne => ?_⟩
  intro key hkey hkey'
  obtain ⟨r, hr, rfl⟩ := List.mem_map.mp hkey
  obtain ⟨r', hr', heq⟩ := List.mem_map.mp hkey'
  exact happart _ hm _ hm' hne r hr r' hr' heq.symm

/-- Rules that are by value the rules of members with different names are the rules of the type. -/
theorem adapts_of_value (hnames : (Schema.memberNames ms).Nodup)
    (hrs : rs.map Rule.value = ms.flatMap (MemberInfo.placedRules s t)) : Adapts s t ms rs := by
  have hapart : (rs.map fun r => (r.member.name, r.uniqueKey)).Nodup := by
    have hvalue : rs.map (fun r => (r.member.name, r.uniqueKey)) =
        (rs.map Rule.value).map fun r => (r.member.name, r.uniqueKey) := by
      rw [List.map_map]
      rfl
    rw [hvalue, hrs]
    refine placedRules_nodup _ hnames (fun m _ => ?_) fun m _ m' _ hne r hr r' hr' heq => hne ?_
    · refine List.Nodup.of_map Prod.snd ?_
      rw [List.map_map]
      exact MemberInfo.keys_placedRules_nodup s t m
    · have hname := congrArg Prod.fst heq
      dsimp only at hname
      rwa [MemberInfo.member_of_mem_placedRules hr, MemberInfo.member_of_mem_placedRules hr'] at hname
  have hunique : ∀ m ∈ ms, ∀ x ∈ m.placedRules s t, ∃! r, r ∈ rs ∧ r.value = x := by
    intro m hm x hx
    have hmem : x ∈ rs.map Rule.value := hrs ▸ List.mem_flatMap.mpr ⟨m, hm, hx⟩
    obtain ⟨r, hr, rfl⟩ := List.mem_map.mp hmem
    refine ⟨r, ⟨hr, rfl⟩, fun r' hr' => ?_⟩
    have hsame : (r'.value.member.name, r'.value.uniqueKey) =
        (r.value.member.name, r.value.uniqueKey) := by rw [hr'.2]
    exact List.inj_on_of_nodup_map hapart hr'.1 hr hsame
  refine ⟨hrs, fun m hm n a ha => ?_, fun m hm hnil hvalidatable => ?_, fun r hr => ?_, hapart,
    fun hdots => ?_⟩
  · exact hunique m hm _ (MemberInfo.mem_placedRules.mpr (.inl ⟨n, a, ha, rfl⟩))
  · exact hunique m hm _ (MemberInfo.mem_placedRules.mpr (.inr ⟨hnil, hvalidatable, rfl⟩))
  · have hmem : r.value ∈ ms.flatMap (MemberInfo.placedRules s t) := hrs ▸ List.mem_map_of_mem hr
    obtain ⟨m, hm, hr⟩ := List.mem_flatMap.mp hmem
    exact ⟨m, hm, MemberInfo.mem_placedRules.mp hr⟩
  · have hvalue : rs.map Rule.uniqueKey = (rs.map Rule.value).map Rule.uniqueKey := by
      rw [List.map_map]
      rfl
    rw [hvalue, hrs]
    refine placedRules_nodup _ hnames (fun m _ => MemberInfo.keys_placedRules_nodup s t m)
      fun m hm m' hm' hne r hr r' hr' heq => hne ?_
    obtain ⟨kind, n, hkey⟩ := MemberInfo.key_of_mem_placedRules hr
    obtain ⟨kind', n', hkey'⟩ := MemberInfo.key_of_mem_placedRules hr'
    rw [hkey, hkey'] at heq
    exact UniqueKey.member_of_ofDeclaration_eq (hdots m hm) (hdots m' hm') heq

/-- The groups that the rules of a type make. -/
def placedGroups (s : Schema) (t : TypeId) (ms : List MemberInfo) : List RuleGroup :=
  (ms.map fun m => ⟨m.member, m.placedRules s t⟩).filter fun g => !g.rules.isEmpty

theorem rules_placedGroups (s : Schema) (t : TypeId) (ms : List MemberInfo) :
    (placedGroups s t ms).flatMap RuleGroup.rules = ms.flatMap (MemberInfo.placedRules s t) := by
  unfold placedGroups
  induction ms with
  | nil => rfl
  | cons m ms ih =>
    rw [List.map_cons, List.filter_cons, List.flatMap_cons, ← ih]
    split
    · rfl
    · rename_i hempty
      have hnil : m.placedRules s t = [] := by simpa using hempty
      rw [hnil, List.nil_append]

theorem placedGroups_proper : ∀ g ∈ placedGroups s t ms, g.Proper := by
  intro g hg
  obtain ⟨hmem, hne⟩ := List.mem_filter.mp hg
  obtain ⟨m, -, rfl⟩ := List.mem_map.mp hmem
  exact ⟨by simpa using hne, fun r hr => by rw [MemberInfo.member_of_mem_placedRules hr],
    MemberInfo.keys_placedRules_nodup s t m⟩

theorem member_of_mem_placedGroups : ∀ g ∈ placedGroups s t ms, ∀ r ∈ g.rules, r.member = g.member := by
  intro g hg r hr
  obtain ⟨m, -, rfl⟩ := List.mem_map.mp (List.mem_filter.mp hg).1
  exact MemberInfo.member_of_mem_placedRules hr

theorem placedGroups_nodup (hnames : (Schema.memberNames ms).Nodup) :
    (RuleGroup.members (placedGroups s t ms)).Nodup := by
  refine List.Nodup.sublist (List.filter_sublist.map _) ?_
  rw [List.map_map]
  refine List.Nodup.of_map MemberKey.name ?_
  rw [List.map_map]
  exact hnames

end

/-! ## 5. Registering rules -/

namespace Action

variable {e : Engine} {s : Schema} {t : TypeId} {ms : List MemberInfo} {known : Reflected}
  {rs : List Rule}

/-- Derives the declared rules of a type and registers them. -/
def registerDeclared (t : TypeId) : Action Unit := do
  addRules t (← declaredRules t)

/-- Does a step several times. -/
def repeated : Nat → Action Unit → Action Unit
  | 0, _ => return
  | n + 1, x => do
    x
    repeated n x

/-- **A step that can be done again after it has been done** can be done several times, and leaves
what it leaves each time. -/
theorem repeated_ok {I Q : Engine → Prop} {x : Action Unit}
    (hx : ∀ e, I e → ∃ e', x e = (.ok (), e') ∧ I e' ∧ Q e') {n : Nat} (hn : 0 < n) (he : I e) :
    ∃ e', repeated n x e = (.ok (), e') ∧ Q e' := by
  induction n generalizing e with
  | zero => exact absurd hn (Nat.lt_irrefl 0)
  | succ n ih =>
    obtain ⟨e₁, hstep, he₁, hleft⟩ := hx e he
    rcases Nat.eq_zero_or_pos n with rfl | hpos
    · exact ⟨e₁, bind_ok hstep, hleft⟩
    · obtain ⟨e', hrest, he'⟩ := ih hpos he₁
      exact ⟨e', (bind_ok hstep).trans hrest, he'⟩

theorem map_value_numbered (first : Nat) (rs : List Rule) :
    (Rule.numbered first rs).map Rule.value = rs.map Rule.value := by
  unfold Rule.numbered
  have hvalues : rs.map Rule.value = ((rs.zipIdx first).map Prod.fst).map Rule.value := by
    rw [List.zipIdx_map_fst]
  rw [hvalues, List.map_map, List.map_map]
  rfl

/-- Deriving the declared rules of a type starts with reading its members. -/
theorem declaredRules_apply (t : TypeId) (e : Engine) :
    declaredRules t e = match e.world.schema.reflect t e.reflected with
      | (.ok ms, known) => (do
          let rs ← lift (e.world.schema.declaredRules t ms)
          let rs ← numbered rs
          note "registry" "attributes_adapted"
            [("model_type", .text t.name), ("rules", .int rs.length)]
          return rs : Action (List Rule)) { e with reflected := known }
      | (.error f, known) => (.error f, { e with reflected := known }) := by
  have hmembers : members t e = ((e.world.schema.reflect t e.reflected).1,
      { e with reflected := (e.world.schema.reflect t e.reflected).2 }) := rfl
  unfold declaredRules
  rcases hread : e.world.schema.reflect t e.reflected with ⟨f | ms, known⟩ <;>
    rw [hread] at hmembers
  · exact bind_error hmembers
  · exact bind_ok hmembers

/-- Deriving the declared rules of a type, whether it ends well or not, reads its members, and leaves
the world and the registry alone. -/
theorem declaredRules_leaves (t : TypeId) (e : Engine) :
    (declaredRules t e).2.world = e.world ∧ (declaredRules t e).2.registry = e.registry ∧
      (declaredRules t e).2.reflected = (e.world.schema.reflect t e.reflected).2 := by
  rw [declaredRules_apply]
  rcases e.world.schema.reflect t e.reflected with ⟨f | ms, known⟩
  · exact ⟨rfl, rfl, rfl⟩
  · dsimp only
    rw [bind_apply, lift_apply]
    rcases e.world.schema.declaredRules t ms with f | rs <;> exact ⟨rfl, rfl, rfl⟩

/-- **Deriving the declared rules of a type** reads its members, and gives the rules that they make
with identities of their own. -/
theorem declaredRules_eq_ok {e' : Engine} (h : declaredRules t e = (.ok rs, e')) :
    ∃ ms, e.world.schema.reflect t e.reflected = (.ok ms, e'.reflected) ∧
      (∃ rs, e.world.schema.declaredRules t ms = .ok rs) ∧
      rs.map Rule.value = ms.flatMap (MemberInfo.placedRules e.world.schema t) ∧
      e'.world = e.world ∧ e'.registry = e.registry := by
  rw [declaredRules_apply] at h
  rcases hread : e.world.schema.reflect t e.reflected with ⟨f | ms, known⟩ <;> rw [hread] at h
  · cases h
  · obtain ⟨rs₀, e₁, hrs₀, h⟩ := bind_eq_ok.mp h
    obtain ⟨hdeclared, rfl⟩ := Prod.mk.inj hrs₀
    cases h
    refine ⟨ms, rfl, ⟨rs₀, hdeclared⟩, ?_, rfl, rfl⟩
    obtain rfl := Schema.eq_placedRules hdeclared
    rw [map_value_numbered]
    refine (List.map_congr_left fun r hr => ?_).trans (List.map_id _)
    obtain ⟨m, -, hr⟩ := List.mem_flatMap.mp hr
    exact MemberInfo.value_of_mem_placedRules hr

/-- Members that have made rules make them again. -/
theorem declaredRules_again (hs : e.world.schema = s)
    (hread : s.reflect t e.reflected = (.ok ms, known))
    (hdeclared : ∃ rs, s.declaredRules t ms = .ok rs) :
    ∃ rs e', declaredRules t e = (.ok rs, e') := by
  subst hs
  obtain ⟨rs, hrs⟩ := hdeclared
  rw [declaredRules_apply, hread]
  dsimp only
  rw [hrs]
  exact ⟨_, _, rfl⟩

/-- What is left after the rules of a type have been registered: a registry that lists them, and
their members in mind. -/
structure Registers (s : Schema) (t : TypeId) (ms : List MemberInfo) (known : Reflected)
    (e : Engine) : Prop where
  schema : e.world.schema = s
  reads : s.reflect t e.reflected = (.ok ms, known)
  keys : (e.registry.allGroups t).map RuleGroup.keys <+:
    (placedGroups s t ms).map RuleGroup.keys

/-- Registering rules of a type of which nothing is registered, or rules with the same keys. -/
theorem addRules_registers (he : Registers s t ms known e) (hnames : (Schema.memberNames ms).Nodup)
    (hrs : rs.map Rule.value = ms.flatMap (MemberInfo.placedRules s t)) :
    ∃ e', addRules t rs true e = (.ok (), e') ∧ Registers s t ms known e' ∧
      e'.registry.rulesOf t = rs := by
  obtain ⟨hlisted, hkeys⟩ := Registry.rulesOf_addAll placedGroups_proper
    (placedGroups_nodup hnames) (hrs.trans (rules_placedGroups s t ms).symm) he.keys
  refine ⟨_, rfl, ⟨he.schema, he.reads, ?_⟩, hlisted⟩
  have hkeys' : ((e.registry.addAll t rs).allGroups t).map RuleGroup.keys <+:
      (placedGroups s t ms).map RuleGroup.keys := hkeys ▸ List.prefix_rfl
  exact hkeys'

/-- Deriving the declared rules of a type and registering them, for the first time or again. -/
theorem registerDeclared_registers (he : Registers s t ms known e)
    (hknown : known.lookup t = some ms) (hnames : (Schema.memberNames ms).Nodup)
    (hdeclared : ∃ rs, s.declaredRules t ms = .ok rs) :
    ∃ e', registerDeclared t e = (.ok (), e') ∧ Registers s t ms known e' ∧
      (e'.registry.rulesOf t).map Rule.value = ms.flatMap (MemberInfo.placedRules s t) := by
  obtain ⟨rs, e₁, hrun⟩ := declaredRules_again he.schema he.reads hdeclared
  obtain ⟨ms', hread, -, hrs, hworld, hregistry⟩ := declaredRules_eq_ok hrun
  rw [he.schema] at hread hrs
  obtain ⟨hms, hreflected⟩ := Prod.mk.inj (hread.symm.trans he.reads)
  obtain rfl := Except.ok.inj hms
  have he₁ : Registers s t ms' known e₁ := by
    refine ⟨(congrArg World.schema hworld).trans he.schema, ?_, hregistry ▸ he.keys⟩
    rw [hreflected]
    exact Schema.reflect_of_lookup hknown
  obtain ⟨e', hadd, he', hlisted⟩ := addRules_registers he₁ hnames hrs
  exact ⟨e', (bind_ok hrun).trans hadd, he', by rw [hlisted, hrs]⟩

end Action

/-- **Registering the declared rules of a type gives just these rules**, once or several times, be
they derived once or anew each time: those that one derivation gives, in their order. -/
theorem registers_what_was_declared {e e₁ : Engine} {t : TypeId} {rs : List Rule} {n : Nat}
    (hfaithful : e.world.schema.Faithful e.reflected) (hnew : e.registry.knows t = false)
    (hrun : Action.declaredRules t e = (.ok rs, e₁)) (hn : 0 < n) :
    ∃ ms, e.world.schema.Reads t ms ∧ Adapts e.world.schema t ms rs ∧
      (∃ e', Action.repeated n (Action.addRules t rs) e₁ = (.ok (), e') ∧
        e'.registry.rulesOf t = rs) ∧
      ∃ e', Action.repeated n (Action.registerDeclared t) e = (.ok (), e') ∧
        (e'.registry.rulesOf t).map Rule.value = rs.map Rule.value := by
  obtain ⟨ms, hread, hdeclared, hrs, hworld, hregistry⟩ := Action.declaredRules_eq_ok hrun
  have hreads : e.world.schema.Reads t ms :=
    (Schema.faithful_reflect _ t hfaithful).2 ms (congrArg Prod.fst hread)
  have hlookup : e₁.reflected.lookup t = some ms := hfaithful.lookup_reflect hread
  have hempty : e.registry.allGroups t = [] := Registry.allGroups_of_not_knows hnew
  have hkeys : (e.registry.allGroups t).map RuleGroup.keys <+:
      (placedGroups e.world.schema t ms).map RuleGroup.keys := hempty ▸ List.nil_prefix
  have he : Action.Registers e.world.schema t ms e₁.reflected e := ⟨rfl, hread, hkeys⟩
  have he₁ : Action.Registers e.world.schema t ms e₁.reflected e₁ :=
    ⟨congrArg World.schema hworld, Schema.reflect_of_lookup hlookup, hregistry ▸ hkeys⟩
  refine ⟨ms, hreads, adapts_of_value hreads.nodup hrs, ?_, ?_⟩
  · exact Action.repeated_ok (fun e' he' => Action.addRules_registers he' hreads.nodup hrs) hn he₁
  · rw [hrs]
    exact Action.repeated_ok
      (fun e' he' => Action.registerDeclared_registers he' hlookup hreads.nodup hdeclared) hn he

/-! ### A member with two attributes of one kind, and one without attributes -/

namespace Account

def password : Hint :=
  .annotated (.type (.builtin .text)) [
    { check := .minLength (.int 8) }, { check := .required false }, { check := .minLength (.int 12) }]

def schema : Schema := ⟨[
  { name := "Account"
    members := [⟨"password", .field password none none none⟩,
      ⟨"note", .field (.type (.builtin .text)) none none none⟩]
    validatable := true
    line := [.declared "Account"] }]⟩

def engine : Engine := { world := { schema } }

/-- The rules of accounts. -/
def rules : List Rule := (Action.declaredRules (.declared "Account") engine).1.toOption.getD []

theorem rules_eq : Action.declaredRules (.declared "Account") engine =
    (.ok rules, (Action.declaredRules (.declared "Account") engine).2) := by
  have hsome : (Action.declaredRules (.declared "Account") engine).1.toOption.isSome = true := by
    decide +kernel
  obtain ⟨rs, hrs⟩ := Option.isSome_iff_exists.mp hsome
  have hrules : rules = rs := by rw [rules, hrs, Option.getD_some]
  exact hrules ▸ eq_ok_of_toOption hrs

end Account

/-- The rules of accounts, registered twice, have the keys that one derivation gives. -/
theorem account_rules_registered_twice :
    ∃ e', Action.repeated 2 (Action.registerDeclared (.declared "Account")) Account.engine =
        (.ok (), e') ∧
      (e'.registry.rulesOf (.declared "Account")).map Rule.uniqueKey = [
        .ofDeclaration "MinLength" 0 (.declared "Account") "password",
        .ofDeclaration "Required" 1 (.declared "Account") "password",
        .ofDeclaration "MinLength" 2 (.declared "Account") "password",
        .ofDeclaration "Anchor" 0 (.declared "Account") "note"] := by
  obtain ⟨ms, -, -, -, e', hrun, hlisted⟩ := registers_what_was_declared (n := 2)
    (Schema.faithful_nil Account.schema) (by decide +kernel) Account.rules_eq (by decide)
  refine ⟨e', hrun, ?_⟩
  have hkeys := congrArg (List.map Rule.uniqueKey) hlisted
  rw [List.map_map, List.map_map] at hkeys
  refine Eq.trans hkeys ?_
  decide +kernel

end MemberRules
