/-
# When the search for rules that wait ends

The search of a type enters every other type once, so on its own it always ends.  But a rule that
carries the rules of another type asks for the answer of that type, in a new search with nothing
visited, and the searches that ask for each other need not end: the types that were visited by the
one that asks are unknown to the one that is asked.

A search that ends has asked for types whose searches are smaller.  Hence no type that is asked for,
however indirectly, asks for itself.  Conversely, where the search of the registry breaks off, it has
come to a type that is being asked for already; a type is entered only once for each type that is
asked for, so the bound on its depth does not come in.

* `Registry.carriesItself_of_waits`: the search has an answer unless a type carries itself.
* `Registry.answers_iff`: the search ends exactly if no type that is asked for asks for itself.
* `Registry.not_answers_of_configured`: types nested in themselves can be configured so that the
  search never ends.
-/
import Mathlib.Data.Finset.Card
import Mathlib.Data.Finset.Dedup
import Mathlib.Data.Finset.SDiff
import Mathlib.Tactic.Ring
import MemberRules.Configuration.Gathering
import MemberRules.Proofs.Waiting.Awaiting

namespace MemberRules

open Relation (ReflTransGen TransGen)

namespace Registry

variable {reg : Registry} {t u : TypeId} {rs : List Rule} {seen : List TypeId}

/-! ## 1. Why the search of the registry breaks off -/

section Search

variable {carried : TypeId → Except Fault Bool} {nested : TypeId → List TypeId → Visit}

/-- Where a search of rules breaks off: at a type that it asks for, or in a nested search, which
comes to nothing that the search of the rules does not come to. -/
theorem Sound.searchRules_eq_error (hs : reg.Sound carried nested) {f : Fault}
    (h : Registry.searchRules carried nested rs seen = .error f) :
    (∃ u, reg.Comes rs seen u ∧ carried u = .error f) ∨
      ∃ v s, nested v s = .error f ∧ seen ⊆ s ∧
        (v ∉ s → ∀ u, reg.Comes (reg.rulesOf v) (v :: s) u → reg.Comes rs seen u) := by
  induction rs generalizing seen with
  | nil => cases h
  | cons r rs ih =>
    -- what the other rules come to, once this one is passed
    have further : ∀ {mid : List TypeId}, reg.Finds [r] seen false mid →
        Registry.searchRules carried nested rs mid = .error f →
        (∃ u, reg.Comes (r :: rs) seen u ∧ carried u = .error f) ∨
          ∃ v s, nested v s = .error f ∧ seen ⊆ s ∧
            (v ∉ s → ∀ u, reg.Comes (reg.rulesOf v) (v :: s) u → reg.Comes (r :: rs) seen u) := by
      intro mid found herr
      rcases ih herr with ⟨u, hu, hc⟩ | ⟨v, s, hn, hsub, hcomes⟩
      · exact .inl ⟨u, .past found hu, hc⟩
      · exact .inr ⟨v, s, hn, fun w hw => hsub (found.subset hw),
          fun hv u hu => .past found (hcomes hv u hu)⟩
    rw [searchRules_of_lead] at h
    cases lead : r.lead with
    | waits =>
      rw [lead] at h
      cases h
    | ends =>
      rw [lead] at h
      exact further (.ends lead .nil) h
    | carries u =>
      simp only [lead] at h
      rcases hc : carried u with f' | _ | _ <;> simp only [hc] at h
      · cases h
        exact .inl ⟨u, .here lead, hc⟩
      · obtain ⟨s, answer⟩ := hs.carried u false hc
        exact further (.carries lead answer .nil) h
      · cases h
    | applies u =>
      simp only [lead] at h
      rcases hn : nested u seen with f' | ⟨_ | _, mid⟩ <;> simp only [hn] at h
      · cases h
        exact .inr ⟨u, seen, hn, fun _ hw => hw, fun hu w hw => .inside lead hu hw⟩
      · rcases hs.nested u seen false mid hn with ⟨hu, -, rfl⟩ | ⟨hu, hfinds⟩
        · exact further (.visited lead hu .nil) h
        · exact further (.applies lead hu hfinds .nil) h
      · cases h

end Search

/-- The number of types with rules that are not in a list. -/
def remaining (reg : Registry) (l : List TypeId) : Nat := (reg.types.toFinset \ l.toFinset).card

theorem remaining_lt {l l' : List TypeId} (ht : t ∈ reg.types) (hl : t ∉ l) (h : t :: l ⊆ l') :
    reg.remaining l' < reg.remaining l := by
  refine Finset.card_lt_card ⟨fun u hu => ?_, fun hsub => ?_⟩
  · simp only [Finset.mem_sdiff, List.mem_toFinset] at hu ⊢
    exact ⟨hu.1, fun hu' => hu.2 (h (List.mem_cons_of_mem t hu'))⟩
  · have hmem : t ∈ reg.types.toFinset \ l'.toFinset :=
      hsub (Finset.mem_sdiff.mpr ⟨List.mem_toFinset.mpr ht, fun h => hl (List.mem_toFinset.mp h)⟩)
    exact (Finset.mem_sdiff.mp hmem).2 (List.mem_toFinset.mpr (h List.mem_cons_self))

theorem remaining_le (l : List TypeId) : reg.remaining l ≤ reg.types.length :=
  (Finset.card_le_card Finset.sdiff_subset).trans (List.toFinset_card_le _)

/-- A type without rules ends the search at once; any other one is visited once for each type that
is asked for. -/
def need (reg : Registry) (asked : List TypeId) (t : TypeId) (seen : List TypeId) : Nat :=
  if t ∈ reg.types then
    reg.remaining asked * (reg.types.length + 1) + reg.remaining seen
  else 0

/-- Asking for one type more takes less, even if nothing is visited yet. -/
theorem need_lt {asked : List TypeId} {n : Nat} (hu : u ∉ asked)
    (hn : reg.remaining asked * (reg.types.length + 1) ≤ n) (hpos : 0 < n) :
    reg.need (u :: asked) u [] < n := by
  unfold need
  split
  · rename_i hmem
    have hlt : reg.remaining (u :: asked) < reg.remaining asked := remaining_lt hmem hu fun _ hw => hw
    have hle : reg.remaining [] ≤ reg.types.length := remaining_le []
    have hmul : (reg.remaining (u :: asked) + 1) * (reg.types.length + 1) ≤
        reg.remaining asked * (reg.types.length + 1) := Nat.mul_le_mul_right _ hlt
    rw [Nat.add_mul, Nat.one_mul] at hmul
    omega
  · exact hpos

theorem rulesOf_eq_nil (h : t ∉ reg.types) : reg.rulesOf t = [] := by
  have hnone : reg.groups.lookup t = none := by
    rw [List.lookup_eq_none_iff]
    intro p hp
    rw [bne_iff_ne]
    exact fun heq => h (heq ▸ List.mem_map_of_mem hp)
  simp [rulesOf, groupsOf, allGroups, hnone]

/-- **A search with enough fuel breaks off only at a type that is being asked for already.**  Here
`a` is the type whose search this is, and `asked` are the types that led to asking for it. -/
theorem searchType_eq_error {fuel : Nat} {a : TypeId} {asked : List TypeId} {f : Fault}
    (hfuel : reg.need asked t seen < fuel) (hasked : ∀ x ∈ asked, ReflTransGen reg.Asks x a)
    (hpart : t ∉ seen → ∀ u, reg.Comes (reg.rulesOf t) (t :: seen) u → reg.Asks a u)
    (h : reg.searchType fuel asked t seen = .error f) :
    f = .tooDeep ∧ ∃ u, ReflTransGen reg.Asks a u ∧ TransGen reg.Asks u u := by
  induction fuel generalizing a asked t seen with
  | zero => omega
  | succ fuel ih =>
    rw [searchType] at h
    by_cases hseen : seen.contains t
    · rw [if_pos hseen] at h
      cases h
    rw [if_neg hseen] at h
    have ht : t ∈ reg.types := by
      by_contra ht
      rw [rulesOf_eq_nil ht] at h
      cases h
    have hnotin : t ∉ seen := fun hmem => hseen (List.contains_iff_mem.mpr hmem)
    rw [need, if_pos ht] at hfuel
    have hsmaller : reg.remaining (t :: seen) < reg.remaining seen :=
      remaining_lt ht hnotin fun _ hu => hu
    rcases (sound_searchType fuel asked).searchRules_eq_error h with
      ⟨u, hu, herr⟩ | ⟨v, s, herr, hsub, hcomes⟩
    -- a type that is asked for: either one that is being asked for, or a new one
    · have hasks : reg.Asks a u := hpart hnotin u hu
      unfold answerWithin at herr
      split at herr
      · rename_i hmem
        cases herr
        have hback := hasked u (List.contains_iff_mem.mp hmem)
        exact ⟨rfl, u, .single hasks, .tail' hback hasks⟩
      · rename_i hmem
        rcases hv : reg.searchType fuel (u :: asked) u [] with f' | v <;> rw [hv] at herr <;>
          cases herr
        have hneed : reg.need (u :: asked) u [] < fuel :=
          need_lt (fun h => hmem (List.contains_iff_mem.mpr h)) (by omega) (by omega)
        have hchain : ∀ x ∈ u :: asked, ReflTransGen reg.Asks x u := by
          intro x hx
          rcases List.mem_cons.mp hx with rfl | hx
          · exact .refl
          · exact (hasked x hx).tail hasks
        obtain ⟨hf, w, hw, hcycle⟩ := ih hneed hchain (fun _ w hw => hw) hv
        exact ⟨hf, w, .head hasks hw, hcycle⟩
    · have hlt : reg.remaining s < reg.remaining seen := remaining_lt ht hnotin hsub
      refine ih ?_ hasked (fun hv u hu => hpart hnotin u (hcomes hv u hu)) herr
      unfold need
      split <;> omega

/-- **The search of the registry breaks off only if a type that is asked for asks for itself.** -/
theorem asks_of_waits {f : Fault} (h : reg.waits t = .error f) :
    f = .tooDeep ∧ ∃ u, ReflTransGen reg.Asks t u ∧ TransGen reg.Asks u u := by
  unfold waits at h
  rcases hv : reg.searchType reg.searchDepth [t] t [] with f' | v <;> rw [hv] at h <;> cases h
  refine searchType_eq_error ?_ (by simp [ReflTransGen.refl]) (fun _ u hu => hu) hv
  have hasked : reg.remaining [t] ≤ reg.types.length := remaining_le [t]
  have hseen : reg.remaining [] ≤ reg.types.length := remaining_le []
  have hmul := Nat.mul_le_mul_right (reg.types.length + 1) hasked
  have hdepth : reg.searchDepth = reg.types.length * (reg.types.length + 1) +
      3 * reg.types.length + 4 := by
    unfold searchDepth
    ring
  unfold need
  split <;> omega

/-- A type has an answer exactly if the registry gives it. -/
theorem waits_eq_ok_iff {b : Bool} : reg.waits t = .ok b ↔ reg.Answers t b := by
  refine ⟨answers_of_waits, fun h => ?_⟩
  rcases hw : reg.waits t with f | b'
  · obtain ⟨-, u, hu, hcycle⟩ := asks_of_waits hw
    exact absurd hcycle (h.ending.of_asks hu).not_asks
  · obtain ⟨s, hfinds⟩ := h
    obtain ⟨s', hfinds'⟩ := answers_of_waits hw
    rw [(hfinds.unique hfinds').1]

/-! ## 2. Types that carry themselves -/

/-- A type whose rules, however indirectly, lead to a check that carries the rules of the type. -/
def CarriesItself (reg : Registry) (t : TypeId) : Prop :=
  ∃ u r, reg.Reaches t u ∧ r ∈ reg.rulesOf u ∧ r.carriedType? = some t

/-- Rules of types that the rules of a type lead to. -/
def Below (reg : Registry) (t : TypeId) (rs : List Rule) : Prop :=
  ∀ r ∈ rs, ∃ u, reg.Reaches t u ∧ r ∈ reg.rulesOf u

theorem Below.tail {r : Rule} (h : reg.Below t (r :: rs)) : reg.Below t rs :=
  fun r' hr' => h r' (List.mem_cons_of_mem r hr')

theorem Below.nestedRules {r : Rule} (h : reg.Below t (r :: rs)) (hu : r.nestedType? = some u) :
    reg.Below t (reg.rulesOf u) := by
  obtain ⟨v, hv, hr⟩ := h r List.mem_cons_self
  exact fun r' hr' => ⟨u, hv.step hr hu, hr'⟩

/-- What a search asks for is carried by a rule that the type leads to. -/
theorem Comes.carried (h : reg.Comes rs seen u) (hrs : reg.Below t rs) :
    ∃ w r, reg.Reaches t w ∧ r ∈ reg.rulesOf w ∧ r.carriedType? = some u := by
  induction h with
  | @here r rs seen u lead =>
    obtain ⟨w, hw, hr⟩ := hrs r List.mem_cons_self
    exact ⟨w, r, hw, hr, Rule.carriedType?_of_lead lead⟩
  | inside lead _ _ ih =>
    exact ih (hrs.nestedRules (Rule.nestedType?_of_nestedModel? (Rule.nestedModel?_of_lead lead)))
  | past _ _ ih => exact ih hrs.tail

theorem below_self (t : TypeId) : reg.Below t (reg.rulesOf t) := fun _ hr => ⟨t, .refl, hr⟩

theorem Asks.reaches (h : reg.Asks t u) :
    ∃ w r, reg.Reaches t w ∧ r ∈ reg.rulesOf w ∧ r.carriedType? = some u :=
  h.carried (below_self t)

theorem reaches_of_asks (h : ReflTransGen reg.Asks t u) : reg.Reaches t u := by
  induction h with
  | refl => exact .refl
  | tail _ hasks ih =>
    obtain ⟨w, r, hw, hr, hcarried⟩ := hasks.reaches
    exact (ih.trans hw).step hr (Rule.nestedType?_of_carriedType? hcarried)

/-- **A type that asks for itself carries itself.** -/
theorem carriesItself_of_asks (h : TransGen reg.Asks u u) : reg.CarriesItself u := by
  obtain ⟨v, huv, hvu⟩ := TransGen.tail'_iff.mp h
  obtain ⟨w, r, hw, hr, hcarried⟩ := hvu.reaches
  exact ⟨w, r, (reaches_of_asks huv).trans hw, hr, hcarried⟩

/-- **Only a type that carries itself leaves the search without an answer.** -/
theorem carriesItself_of_waits {f : Fault} (h : reg.waits t = .error f) :
    f = .tooDeep ∧ ∃ u, reg.Reaches t u ∧ reg.CarriesItself u := by
  obtain ⟨hf, u, hu, hcycle⟩ := asks_of_waits h
  exact ⟨hf, u, reaches_of_asks hu, carriesItself_of_asks hcycle⟩

theorem reaches_of_applies (h : ReflTransGen reg.Applies t u) : reg.Reaches t u := by
  induction h with
  | refl => exact .refl
  | tail _ happlies ih =>
    obtain ⟨r, hr, hv⟩ := happlies
    exact ih.step hr (Rule.nestedType?_of_nestedModel? hv)

/-- A type that may have to wait leads to a rule that waits. -/
theorem Awaits.not_prompt (h : reg.Awaits t) : ¬ reg.Prompt t := by
  induction h with
  | waits hu hr hwaits =>
    exact fun hprompt => (hprompt _ (reaches_of_applies hu) _ hr).not_waitsItself hwaits
  | carries hu hr hcarries _ ih =>
    have hv := (reaches_of_applies hu).step hr (Rule.nestedType?_of_carriedType? hcarries)
    exact fun hprompt => ih (hprompt.of_reaches hv)

theorem Answers.eq_false {b : Bool} (h : reg.Answers t b) (hprompt : reg.Prompt t) : b = false := by
  obtain ⟨s, hfinds⟩ := h
  cases b with
  | false => rfl
  | true => exact absurd hprompt (hfinds.awaits rfl (within_self t)).not_prompt

/-- The type whose rules are carried by a rule of a type that a type leads to is asked for. -/
theorem Answers.asks (h : reg.Answers t false) {w : TypeId} {r : Rule} (hw : reg.Reaches t w)
    (hr : r ∈ reg.rulesOf w) (hu : r.carriedType? = some u) :
    TransGen reg.Asks t u ∧ reg.Answers u false := by
  obtain ⟨a, s, ha, hfinds, hmem⟩ := h.visited hw
  obtain ⟨hprompt, hcarries, -⟩ := hfinds.examined_of_mem hmem r hr
  have hasks : reg.Asks a u := hcarries u (hprompt.lead_of_carriedType? hu)
  exact ⟨.tail' ha hasks, (hfinds.asked u hasks).2 rfl⟩

/-- **A search that found nothing has come to no type that carries itself.** -/
theorem Answers.not_carriesItself (h : reg.Answers t false) (hu : reg.Reaches t u) :
    ¬ reg.CarriesItself u := by
  rintro ⟨w, r, hw, hr, hcarried⟩
  obtain ⟨-, hanswer⟩ := h.asks (hu.trans hw) hr hcarried
  exact hanswer.ending.not_asks (hanswer.asks hw hr hcarried).1

/-- **When the search for rules that wait ends.**  Its answer is the one that the registry gives, and
it ends exactly if no type that is asked for asks for itself.  So it ends if no type that the type
leads to carries itself, and only then if no rule waits. -/
theorem answers_iff (reg : Registry) (t : TypeId) :
    (∀ b, reg.waits t = .ok b ↔ reg.Answers t b) ∧
    ((∃ b, reg.Answers t b) ↔ ¬ ∃ u, ReflTransGen reg.Asks t u ∧ TransGen reg.Asks u u) ∧
    ((∀ u, reg.Reaches t u → ¬ reg.CarriesItself u) → ∃ b, reg.Answers t b) ∧
    (reg.Prompt t → (∃ b, reg.Answers t b) → ∀ u, reg.Reaches t u → ¬ reg.CarriesItself u) := by
  have hends : (¬ ∃ u, ReflTransGen reg.Asks t u ∧ TransGen reg.Asks u u) → ∃ b, reg.Answers t b := by
    intro hacyclic
    rcases hw : reg.waits t with f | b
    · exact absurd (asks_of_waits hw).2 hacyclic
    · exact ⟨b, waits_eq_ok_iff.mp hw⟩
  refine ⟨fun b => waits_eq_ok_iff, ⟨?_, hends⟩, fun hnot => hends ?_, ?_⟩
  · rintro ⟨b, h⟩ ⟨u, hu, hcycle⟩
    exact (h.ending.of_asks hu).not_asks hcycle
  · rintro ⟨u, hu, hcycle⟩
    exact hnot u (reaches_of_asks hu) (carriesItself_of_asks hcycle)
  · rintro hprompt ⟨b, h⟩ u hu
    exact (h.eq_false hprompt ▸ h).not_carriesItself hu

/-! ## 3. Trees

The children of a tree are to be validated by a rule for their names, which is a rule for trees. -/

namespace Tree

def tree : TypeId := .declared "Tree"

def schema : Schema := ⟨[
  { name := "Tree"
    members := [⟨"name", .field (.type (.builtin .text)) none none none⟩,
      ⟨"children", .field (.list (.type tree)) none none none⟩]
    line := [tree] }]⟩

def steps : List TypeStep := [
  .builder (.ref ⟨tree, "children", .field⟩) true none [
    .childRules [
      .builder (.ref ⟨tree, "name", .field⟩) false none [
        .check (.attach (.ok { check := .required false }))]] none]]

/-- What configuration calls make of an engine without rules. -/
def configured (s : Schema) (t : TypeId) (steps : List TypeStep) : Except Fault Unit × Engine :=
  (do runTypeSteps (← Action.configure t) steps; Action.buildAll : Action Unit)
    { world := { schema := s } }

end Tree

/-- **Configuration calls can lead to a registry whose search never ends.** -/
theorem not_answers_of_configured :
    ¬ ∀ (s : Schema) (t : TypeId) (steps : List TypeStep),
      (Tree.configured s t steps).1 = .ok () →
      ∀ u, ∃ b, (Tree.configured s t steps).2.registry.Answers u b := by
  intro h
  have hok : (Tree.configured Tree.schema Tree.tree Tree.steps).1.isOk = true := by decide +kernel
  have hnone : (((Tree.configured Tree.schema Tree.tree Tree.steps).2.registry.waits Tree.tree)).isOk
      = false := by decide +kernel
  have hrun : (Tree.configured Tree.schema Tree.tree Tree.steps).1 = .ok () := by
    rcases hr : (Tree.configured Tree.schema Tree.tree Tree.steps).1 with f | ⟨⟩
    · rw [hr] at hok
      cases hok
    · rfl
  obtain ⟨b, hb⟩ := h Tree.schema Tree.tree Tree.steps hrun Tree.tree
  rw [waits_eq_ok_iff.mpr hb] at hnone
  cases hnone

end Registry
end MemberRules
