/-
# The order in which a build leaves the checks of a type

The checks of a type stand member by member.  A member gets its place when the first rule of it is
registered, and keeps it.  So a build leaves the members that had rules where they were, and puts
the others behind them, in the order in which rules were gathered for them: first those that were
started one after the other, then those of builders, then those with value providers.

* `enlist`: taking keys down, each once.
* `Registry.checksOf_eq`: the checks of a type are those of its members, member by member.
* `flatMap_eq_iff`: when two such lists are the same.
* `Action.build_members`, `Action.build_checks`: the members of a type after a build, and its checks.
-/
import MemberRules.Proofs.Declared.Registered

namespace MemberRules

open MemberRules.Computation

/-! ## 1. Taking keys down -/

section Enlist

variable {κ : Type} [DecidableEq κ] {k : κ} {ks new : List κ}

/-- Keys with one more, if it is not among them. -/
def enlist (ks : List κ) (k : κ) : List κ := if k ∈ ks then ks else ks ++ [k]

theorem mem_enlist {k' : κ} : k' ∈ enlist ks k ↔ k' ∈ ks ∨ k' = k := by
  unfold enlist
  split
  · constructor
    · exact .inl
    · rintro (h | rfl)
      · exact h
      · assumption
  · simp

theorem mem_foldl_enlist : k ∈ new.foldl enlist ks ↔ k ∈ ks ∨ k ∈ new := by
  induction new generalizing ks with
  | nil => simp
  | cons k' new ih => rw [List.foldl_cons, ih, mem_enlist, List.mem_cons, or_assoc]

/-- Keys that are there already make no difference. -/
theorem foldl_enlist_of_subset (h : ∀ k ∈ new, k ∈ ks) : new.foldl enlist ks = ks := by
  induction new with
  | nil => rfl
  | cons k new ih =>
    obtain ⟨hk, hrest⟩ := List.forall_mem_cons.mp h
    rw [List.foldl_cons, enlist, if_pos hk, ih hrest]

/-- Nor does a key that is given several times. -/
theorem foldl_enlist_of_forall_eq (hnew : new ≠ []) (h : ∀ k' ∈ new, k' = k) :
    new.foldl enlist ks = enlist ks k := by
  cases new with
  | nil => exact absurd rfl hnew
  | cons k' new =>
    obtain ⟨rfl, hrest⟩ := List.forall_mem_cons.mp h
    rw [List.foldl_cons]
    exact foldl_enlist_of_subset fun k hk => mem_enlist.mpr (.inr (hrest k hk))

/-- Nor does leaving out something whose key is there. -/
theorem foldl_enlist_filter {α : Type} {key : α → κ} {as : List α} (p : α → Bool)
    (hp : ∀ a ∈ as, p a = false → key a ∈ ks) :
    ((as.filter p).map key).foldl enlist ks = (as.map key).foldl enlist ks := by
  induction as generalizing ks with
  | nil => rfl
  | cons a as ih =>
    obtain ⟨ha, hrest⟩ := List.forall_mem_cons.mp hp
    have hafter : ((as.filter p).map key).foldl enlist (enlist ks (key a)) =
        (as.map key).foldl enlist (enlist ks (key a)) := ih fun a' ha' hleft =>
      mem_enlist.mpr (.inl (hrest a' ha' hleft))
    rw [List.filter_cons, List.map_cons, List.foldl_cons]
    cases hpa : p a with
    | true =>
      simp only [if_true, List.map_cons, List.foldl_cons]
      exact hafter
    | false =>
      have hthere : enlist ks (key a) = ks := if_pos (ha hpa)
      rw [hthere] at hafter ⊢
      simpa using hafter

/-- What holds of some of the keys can be asked before they are taken down. -/
theorem filter_foldl_enlist (p : κ → Bool) :
    (new.foldl enlist ks).filter p = (new.filter p).foldl enlist (ks.filter p) := by
  have hstep : ∀ ks k, (enlist ks k).filter p = if p k then enlist (ks.filter p) k
      else ks.filter p := fun ks k => by
    unfold enlist
    by_cases hk : k ∈ ks
    · rw [if_pos hk]
      cases hp : p k <;> simp [hk, hp]
    · rw [if_neg hk]
      cases hp : p k <;> simp [hk, hp]
  induction new generalizing ks with
  | nil => rfl
  | cons k new ih =>
    rw [List.foldl_cons, ih, hstep, List.filter_cons]
    split <;> rfl

end Enlist

/-! ## 2. Lists that stand key by key -/

section ByKey

variable {α κ : Type} [DecidableEq κ] {key : α → κ} {ks ks' : List κ} {f g : κ → List α} {k : κ}

theorem filter_flatMap_key (hf : ∀ k, ∀ a ∈ f k, key a = k) (hks : ks.Nodup) :
    ((ks.flatMap f).filter fun a => key a == k) = if k ∈ ks then f k else [] := by
  have hsame : (f k).filter (fun a => key a == k) = f k :=
    List.filter_eq_self.mpr fun a ha => by simp [hf k a ha]
  have hnone : ∀ k', k' ≠ k → (f k').filter (fun a => key a == k) = [] := fun k' hk' =>
    List.filter_eq_nil_iff.mpr fun a ha => by simpa [hf k' a ha] using hk'
  induction ks with
  | nil => rfl
  | cons k' ks ih =>
    obtain ⟨hk', hrest⟩ := List.nodup_cons.mp hks
    rw [List.flatMap_cons, List.filter_append, ih hrest]
    by_cases heq : k' = k
    · subst heq
      simp [hsame, hk']
    · simp [hnone k' heq, Ne.symm heq]

/-- The keys of such a list are those under which there is something. -/
theorem foldl_enlist_flatMap (hf : ∀ k, ∀ a ∈ f k, key a = k) (hks : (ks' ++ ks).Nodup) :
    ((ks.flatMap f).map key).foldl enlist ks' = ks' ++ ks.filter fun k => !(f k).isEmpty := by
  induction ks generalizing ks' with
  | nil => simp
  | cons k ks ih =>
    have hnew : k ∉ ks' := fun hmem =>
      (List.nodup_append.mp hks).2.2 k hmem k List.mem_cons_self rfl
    rw [List.flatMap_cons, List.map_append, List.foldl_append, List.filter_cons]
    cases hempty : (f k).isEmpty with
    | true =>
      rw [List.isEmpty_iff.mp hempty]
      refine ih (hks.sublist ?_)
      exact (List.sublist_cons_self k ks).append_left ks'
    | false =>
      have hfirst : ((f k).map key).foldl enlist ks' = ks' ++ [k] := by
        rw [foldl_enlist_of_forall_eq (k := k) (by simpa using hempty) fun k' hk' => ?_]
        · exact if_neg hnew
        · obtain ⟨a, ha, rfl⟩ := List.mem_map.mp hk'
          exact hf k a ha
      rw [hfirst, ih (by rwa [List.append_assoc])]
      simp

/-- **Two lists that stand key by key** are the same if under each key there is the same, and the keys
under which there is something come in the same order. -/
theorem flatMap_eq_iff (hf : ∀ k, ∀ a ∈ f k, key a = k) (hg : ∀ k, ∀ a ∈ g k, key a = k)
    (hks : ks.Nodup) (hks' : ks'.Nodup) (hnone : ∀ k ∉ ks, f k = []) (hnone' : ∀ k ∉ ks', g k = []) :
    ks.flatMap f = ks'.flatMap g ↔ (∀ k, f k = g k) ∧
      (ks.filter fun k => !(f k).isEmpty) = ks'.filter fun k => !(f k).isEmpty := by
  have hat : ∀ k, (ks.flatMap f).filter (fun a => key a == k) = f k := fun k => by
    rw [filter_flatMap_key hf hks]
    split
    · rfl
    · exact (hnone k ‹_›).symm
  have hat' : ∀ k, (ks'.flatMap g).filter (fun a => key a == k) = g k := fun k => by
    rw [filter_flatMap_key hg hks']
    split
    · rfl
    · exact (hnone' k ‹_›).symm
  constructor
  · intro heq
    have hsame : ∀ k, f k = g k := fun k => by rw [← hat k, ← hat' k, heq]
    obtain rfl : f = g := funext hsame
    have hkeys : ∀ {ks : List κ}, ks.Nodup → ((ks.flatMap f).map key).foldl enlist [] =
        ks.filter fun k => !(f k).isEmpty := fun hks => foldl_enlist_flatMap hf hks
    rw [← hkeys hks, ← hkeys hks', heq]
    exact ⟨hsame, rfl⟩
  · rintro ⟨hsame, hkeys⟩
    obtain rfl : f = g := funext hsame
    have hdrop : ∀ ks : List κ, ks.flatMap f = (ks.filter fun k => !(f k).isEmpty).flatMap f := by
      intro ks
      induction ks with
      | nil => rfl
      | cons k ks ih =>
        rw [List.flatMap_cons, List.filter_cons, ih]
        cases hempty : (f k).isEmpty with
        | true => simp [List.isEmpty_iff.mp hempty]
        | false => simp
    rw [hdrop ks, hdrop ks', hkeys]

end ByKey

/-! ## 3. The checks of a type -/

namespace Registry

variable {reg : Registry} {t : TypeId} {k : MemberKey}

/-- The members of a type, in order, those without rules included. -/
def membersOf (reg : Registry) (t : TypeId) : List MemberKey := RuleGroup.members (reg.allGroups t)

/-- The checks of a type, in order. -/
def checksOf (reg : Registry) (t : TypeId) : List Rule := (reg.rulesOf t).filter Rule.hasCheck

theorem membersOf_add (r : Rule) :
    (reg.add t r).membersOf t = enlist (reg.membersOf t) r.member.key := by
  unfold membersOf enlist RuleGroup.members
  rw [allGroups_add, members_update]

theorem membersOf_addAll (reg : Registry) (t : TypeId) (rs : List Rule) :
    (reg.addAll t rs).membersOf t =
      (rs.map fun r => r.member.key).foldl enlist (reg.membersOf t) := by
  induction rs generalizing reg with
  | nil => rfl
  | cons r rs ih =>
    rw [List.map_cons, List.foldl_cons, ← membersOf_add]
    exact ih (reg.add t r)

theorem rulesOfMember_eq_nil (h : k ∉ reg.membersOf t) : reg.rulesOfMember t k = [] := by
  by_contra hne
  have hrules : rulesAt k (reg.allGroups t) ≠ [] := hne
  obtain ⟨g, hg, hk, -⟩ := mem_of_rulesAt_ne_nil hrules
  exact h (List.mem_map.mpr ⟨g, hg, hk⟩)

/-- **The checks of a type** are those of its members, member by member. -/
theorem checksOf_eq (h : reg.Keyed) (t : TypeId) :
    reg.checksOf t = (reg.membersOf t).flatMap (reg.checksAt t) := by
  have hgroups : reg.rulesOf t = (reg.allGroups t).flatMap RuleGroup.rules := by
    unfold rulesOf groupsOf
    induction reg.allGroups t with
    | nil => rfl
    | cons g gs ih =>
      rw [List.filter_cons, List.flatMap_cons]
      cases hempty : g.rules.isEmpty with
      | true => simp [List.isEmpty_iff.mp hempty, ih]
      | false => simp [ih]
  unfold checksOf membersOf RuleGroup.members
  rw [hgroups, List.flatMap_map, List.filter_flatMap]
  refine List.flatMap_congr fun g hg => ?_
  have hrules : reg.rulesOfMember t g.member.key = g.rules := rulesAt_of_mem (h.members t) hg
  rw [checksAt, hrules]

end Registry

/-! ## 4. The members of a type after a build -/

/-- Something is made for a member, and all of it is about this member. -/
theorem PendingRule.Made.about {cfg : Configuration} {e : Engine} {p : PendingRule}
    {xs : List Rule} (h : p.Made cfg e xs) (hkeyed : e.Keyed) :
    xs ≠ [] ∧ ∀ x ∈ xs, x.member.key = p.member.key := by
  by_cases hchecks : p.checks = []
  · obtain ⟨copies, carrier, rfl, hcopies, hcarrier, -⟩ := h.copies hchecks
    refine ⟨by simp, fun x hx => ?_⟩
    rcases List.mem_append.mp hx with hx | hx
    · obtain ⟨y, hy, hcopied⟩ := exists_of_mem_forall₂ hcopies hx
      obtain ⟨r, hr, rfl⟩ := List.mem_map.mp hy
      have hplace : x.place = r.place := hcopied.place
      rw [Rule.member_of_place hplace]
      exact hkeyed.registry.home _ _ r (Registry.mem_declaredAt.mp hr).1
    · rw [List.mem_singleton.mp hx, hcarrier]
  · obtain ⟨-, hmade⟩ := h.checks hchecks
    constructor
    · intro hnil
      rw [hnil] at hmade
      exact hchecks (List.forall₂_nil_right_iff.mp hmade)
    · intro x hx
      obtain ⟨check, -, hcheck⟩ := exists_of_mem_forall₂ hmade hx
      rw [hcheck]
      rfl

namespace Engine

variable {c : Nat} {e mid : Engine} {again providers : List Rule} {xss : List (List Rule)}

/-- The members of a type after a build, in order: those that had rules, and those for which rules
have been gathered. -/
def membersToCome (c : Nat) (e : Engine) : List MemberKey :=
  let cfg := e.configuration c
  (cfg.gathered.map (fun p => p.member.key) ++ (e.listedRules c).map (fun r => r.member.key) ++
    cfg.providers.map fun p => p.1.key).foldl enlist (e.registry.membersOf cfg.type)

/-- Something is made for each member, and all that is made is about this member. -/
theorem map_member_flatten {cfg : Configuration} {ps : List PendingRule}
    (h : List.Forall₂ (PendingRule.Made cfg e) ps xss) (hkeyed : e.Keyed) (ks : List MemberKey) :
    (xss.flatten.map fun x => x.member.key).foldl enlist ks =
      (ps.map fun p => p.member.key).foldl enlist ks := by
  induction h generalizing ks with
  | nil => rfl
  | @cons p xs ps xss hp _ ih =>
    obtain ⟨hne, habout⟩ := hp.about hkeyed
    have hfirst : (xs.map fun x => x.member.key).foldl enlist ks = enlist ks p.member.key := by
      refine foldl_enlist_of_forall_eq (by simpa using hne) fun k hk => ?_
      obtain ⟨x, hx, rfl⟩ := List.mem_map.mp hk
      exact habout x hx
    rw [List.flatten_cons, List.map_append, List.foldl_append, hfirst, ih]
    rfl

namespace Gathered

/-- Everything that is gathered brings the members for which it has been gathered. -/
theorem membersOf_addAll (h : e.Gathered c again xss providers mid) (he : e.Tidy)
    (hnone : (e.configuration c).current = none) :
    (mid.registry.addAll (e.configuration c).type (whole c e again xss providers)).membersOf
      (e.configuration c).type = e.membersToCome c := by
  have hgathered := Configuration.gathered_eq_pending hnone
  have hbefore : mid.registry.membersOf (e.configuration c).type =
      e.registry.membersOf (e.configuration c).type := h.members _
  have hagain : (again.map fun x => x.member.key).foldl enlist
      (e.registry.membersOf (e.configuration c).type) =
        e.registry.membersOf (e.configuration c).type := by
    refine foldl_enlist_of_subset fun k hk => ?_
    obtain ⟨x, hx, rfl⟩ := List.mem_map.mp hk
    obtain ⟨-, r, hr, -⟩ := h.copy_of_mem he hx rfl
    by_contra hnot
    rw [Registry.rulesOfMember_eq_nil hnot] at hr
    cases hr
  have hcarried : providers.map (fun x => x.member.key) =
      (e.configuration c).providers.map fun p => p.1.key :=
    map_eq_of_forall₂ (h.carriers.imp fun p x hx => congrArg MemberRef.key hx.1)
  have hbuilt : ((e.listedRules c).map (e.configuration c).complete).map (fun r => r.member.key) =
      (e.listedRules c).map fun r => r.member.key := by
    rw [List.map_map]
    rfl
  unfold whole membersToCome
  dsimp only
  rw [Registry.membersOf_addAll, hbefore, List.map_append, List.map_append, List.map_append,
    List.foldl_append, List.foldl_append, List.foldl_append, hagain,
    map_member_flatten h.made he.keyed, hbuilt, hcarried, hgathered, List.foldl_append,
    List.foldl_append]

end Gathered

end Engine

namespace Action

open Engine

variable {c : Nat} {e e' : Engine} {out : List Rule}

/-- **The members of a type after a build**: those that had rules, and behind them those for which
rules were gathered, in the order in which they were. -/
theorem build_members (he : e.Tidy) (hc : c < e.configurations.length)
    (h : build c e = (.ok out, e')) :
    e'.registry.membersOf (e.configuration c).type = e.membersToCome c := by
  obtain ⟨htidy, again, xss, providers, mid, hgathered, hregistry⟩ := build_gathers he hc h
  have hcfg := configuration_committed hc
  have hmembers := hgathered.membersOf_addAll htidy (by rw [hcfg])
  have hsame : (e.committed c).membersToCome c = e.membersToCome c := by
    have hgathered : ((e.committed c).configuration c).gathered =
        (e.configuration c).gathered := by
      rw [hcfg, Configuration.gathered]
      exact List.append_nil _
    unfold membersToCome listedRules
    dsimp only
    rw [hgathered, hcfg]
    rfl
  have htype : ((e.committed c).configuration c).type = (e.configuration c).type := by rw [hcfg]
  rw [hsame, htype] at hmembers
  rw [hregistry]
  exact hmembers

/-- **The checks of a type after a build**, member by member, but for their numbers. -/
theorem build_checks (he : e.Tidy) (hc : c < e.configurations.length)
    (h : build c e = (.ok out, e')) :
    (e'.registry.checksOf (e.configuration c).type).map Rule.look = (e.membersToCome c).flatMap
      fun k => e.checksToCome c k ((e.configuration c).lastBlock k) := by
  have hkeyed := (build_keyed c e he.keyed).1
  rw [h] at hkeyed
  rw [Registry.checksOf_eq hkeyed.registry, build_members he hc h, List.map_flatMap]
  exact List.flatMap_congr fun k _ => build_registers he hc h k

/-- No member comes twice, and only members that come have checks. -/
theorem members_of_build (he : e.Tidy) (hc : c < e.configurations.length)
    (h : build c e = (.ok out, e')) : (e.membersToCome c).Nodup ∧
      ∀ k ∉ e.membersToCome c, e.checksToCome c k ((e.configuration c).lastBlock k) = [] := by
  have hkeyed := (build_keyed c e he.keyed).1
  rw [h] at hkeyed
  rw [← build_members he hc h]
  refine ⟨hkeyed.registry.members _, fun k hk => ?_⟩
  rw [← build_registers he hc h, Registry.checksAt, Registry.rulesOfMember_eq_nil hk]
  rfl

end Action

end MemberRules
