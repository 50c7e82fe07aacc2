/-
# What the search for rules that wait finds

`Registry.waits` walks through the rules of a type and of the types that it applies to nested
values, and stops at the first rule that waits.  A rule that applies the declared rules of another
type goes on with the same search, which enters every type once.  A rule that carries the rules of
another type asks for the answer of that type, and this starts a new search with nothing visited.

`Finds` describes these searches without any bound on their depth: a derivation is a search that
ends.  From a derivation for a type one reads off derivations, smaller ones, for all types that its
search asks for.  A search that found nothing has looked at all rules of the types that it has
entered: the types that they apply are visited as well, and those that they carry have been asked
for.  So no rule that a validation can come to waits, however deep it is nested.

* `Registry.Reaches`: the types whose rules a validation can come to.
* `Registry.Prompt`: no rule that a type reaches waits.
* `Registry.Finds`, `Registry.Answers`: searches that end, and with which answer.
* `Registry.Asks`: the search of a type comes to a rule that carries the rules of another one.
* `Registry.prompt_of_waits`: the search finds nothing only for types that reach no rule that waits.
-/
import Mathlib.Logic.Relation
import MemberRules.Rule.Waiting

namespace MemberRules

open Relation (ReflTransGen TransGen)

/-! ## 1. Types that rules lead to -/

/-- The type by whose rules a check validates a nested value. -/
def Check.nestedType? : Check → Option TypeId
  | .childRules t | .validateWith t | .validateEach t => some t
  | _ => none

namespace Rule

variable {r : Rule} {t : TypeId}

/-- The type by whose rules a rule validates a nested value. -/
def nestedType? (r : Rule) : Option TypeId := r.check?.bind Check.nestedType?

/-- The type whose declared rules a rule asks for. -/
def nestedModel? (r : Rule) : Option TypeId := r.check?.bind Check.nestedModel?

/-- The type whose rules the check of a rule carries. -/
def carriedType? (r : Rule) : Option TypeId :=
  match r.check? with
  | some (.childRules t) => some t
  | _ => none

/-- A rule that does not wait itself, whatever it does with nested values. -/
def Prompt (r : Rule) : Prop := r.waits (fun _ => .ok false) = .ok false

theorem nestedType?_of_carriedType? (h : r.carriedType? = some t) :
    r.nestedType? = some t := by
  unfold carriedType? at h
  split at h <;> cases h
  rename_i hc
  simp [nestedType?, hc, Check.nestedType?]

/-- A rule that does not ask for the declared rules of a type carries its rules. -/
theorem carriedType?_of_nestedType? (h : r.nestedType? = some t) (hmodel : r.nestedModel? = none) :
    r.carriedType? = some t := by
  obtain ⟨c, hc, ht⟩ := Option.bind_eq_some_iff.mp h
  unfold nestedModel? at hmodel
  rw [hc] at hmodel
  unfold Check.nestedType? at ht
  split at ht <;> cases ht
  · simp [carriedType?, hc]
  · cases hmodel
  · cases hmodel

theorem nestedType?_of_nestedModel? (h : r.nestedModel? = some t) :
    r.nestedType? = some t := by
  obtain ⟨c, hc, ht⟩ := Option.bind_eq_some_iff.mp h
  unfold Check.nestedModel? at ht
  split at ht <;> cases ht <;> simp [nestedType?, hc, Check.nestedType?]

end Rule

namespace Registry

variable {reg : Registry} {t u : TypeId}

/-- The types whose rules a validation by the rules of a type can come to. -/
inductive Reaches (reg : Registry) (t : TypeId) : TypeId → Prop
  | refl : reg.Reaches t t
  | step {u v : TypeId} {r : Rule} : reg.Reaches t u → r ∈ reg.rulesOf u →
      r.nestedType? = some v → reg.Reaches t v

/-- No rule that a validation by the rules of a type can come to waits. -/
def Prompt (reg : Registry) (t : TypeId) : Prop :=
  ∀ u, reg.Reaches t u → ∀ r ∈ reg.rulesOf u, r.Prompt

theorem Reaches.trans {v : TypeId} (h : reg.Reaches t u) (h' : reg.Reaches u v) :
    reg.Reaches t v := by
  induction h' with
  | refl => exact h
  | step _ hr hv ih => exact ih.step hr hv

theorem Prompt.of_reaches (h : reg.Prompt t) (hu : reg.Reaches t u) : reg.Prompt u :=
  fun v hv => h v (hu.trans hv)

end Registry

/-! ## 2. What a rule means for the search -/

/-- What a rule means for the search: that something waits, that the answer of another type is
needed, that the search goes on with another type, or nothing. -/
inductive Lead
  | waits
  | carries (t : TypeId)
  | applies (t : TypeId)
  | ends

/-- What a check means for the search. -/
def Check.lead : Check → Lead
  | .mustAsync _ => .waits
  | .custom _ _ _ isAsync _ => if isAsync then .waits else .ends
  | .childRules t => .carries t
  | .validateWith t | .validateEach t => .applies t
  | _ => .ends

/-- What a rule means for the search; a gate that waits comes before the check. -/
def Rule.lead (r : Rule) : Lead :=
  if r.gate.asyncCondition.isSome then .waits
  else match r.check? with
    | some c => c.lead
    | none => .ends

namespace Rule

variable {r : Rule} {t : TypeId}

theorem carriedType?_of_lead (h : r.lead = .carries t) : r.carriedType? = some t := by
  unfold lead at h
  split at h
  · cases h
  · unfold carriedType?
    cases hc : r.check? with
    | none => rw [hc] at h; cases h
    | some c =>
      rw [hc] at h
      cases c with
      | childRules u => cases h; rfl
      | custom kind template code isAsync e => cases isAsync <;> cases h
      | _ => cases h

theorem nestedModel?_of_lead (h : r.lead = .applies t) : r.nestedModel? = some t := by
  unfold lead at h
  split at h
  · cases h
  · unfold nestedModel?
    cases hc : r.check? with
    | none => rw [hc] at h; cases h
    | some c =>
      rw [hc] at h
      cases c with
      | validateWith u | validateEach u => cases h; rfl
      | custom kind template code isAsync e => cases isAsync <;> cases h
      | _ => cases h

/-- A rule that does not wait itself leads where its check leads. -/
theorem Prompt.lead (h : r.Prompt) : r.lead = match r.check? with
    | some (.childRules t) => .carries t
    | some (.validateWith t) | some (.validateEach t) => .applies t
    | _ => .ends := by
  unfold Prompt waits at h
  unfold Rule.lead
  split at h
  · cases h
  · rename_i hgate
    rw [if_neg hgate]
    cases hc : r.check? with
    | none => rfl
    | some c =>
      rw [hc] at h
      cases c with
      | mustAsync p => cases h
      | custom kind template code isAsync e => cases h; rfl
      | _ => rfl

theorem Prompt.lead_of_carriedType? (h : r.Prompt) (ht : r.carriedType? = some t) :
    r.lead = .carries t := by
  rw [h.lead]
  unfold carriedType? at ht
  split at ht <;> cases ht
  rename_i hc
  rw [hc]

/-- A rule that does not wait itself either carries the rules of the type that it leads to, or applies
the declared ones. -/
theorem Prompt.lead_of_nestedType? (h : r.Prompt) (ht : r.nestedType? = some t) :
    r.lead = .carries t ∨ r.lead = .applies t := by
  rw [h.lead]
  obtain ⟨c, hc, ht⟩ := Option.bind_eq_some_iff.mp ht
  unfold Check.nestedType? at ht
  split at ht <;> cases ht <;> rw [hc]
  · exact .inl rfl
  · exact .inr rfl
  · exact .inr rfl

theorem prompt_of_lead (h : r.lead ≠ .waits) : r.Prompt := by
  unfold Prompt waits
  unfold lead at h
  split at h
  · exact absurd rfl h
  · rename_i hgate
    rw [if_neg hgate]
    cases hc : r.check? with
    | none => rfl
    | some c =>
      rw [hc] at h
      cases c with
      | mustAsync p => exact absurd rfl h
      | custom kind template code isAsync e =>
        cases isAsync with
        | true => exact absurd rfl h
        | false => rfl
      | _ => rfl

end Rule

namespace Registry

/-! ## 3. Searches that end -/

/-- A search of rules that ends: with some types visited it finds out whether something waits, and
leaves more types visited.  The types whose rules are carried are searched on their own. -/
inductive Finds (reg : Registry) : List Rule → List TypeId → Bool → List TypeId → Prop
  | nil {seen} : Finds reg [] seen false seen
  | waits {r rs seen} (lead : r.lead = .waits) : Finds reg (r :: rs) seen true seen
  | ends {r rs seen b after} (lead : r.lead = .ends) (rest : Finds reg rs seen b after) :
    Finds reg (r :: rs) seen b after
  | carriesWaiting {r rs seen u s} (lead : r.lead = .carries u)
    (answer : Finds reg (reg.rulesOf u) [u] true s) : Finds reg (r :: rs) seen true seen
  | carries {r rs seen u s b after} (lead : r.lead = .carries u)
    (answer : Finds reg (reg.rulesOf u) [u] false s) (rest : Finds reg rs seen b after) :
    Finds reg (r :: rs) seen b after
  | visited {r rs seen u b after} (lead : r.lead = .applies u) (visited : u ∈ seen)
    (rest : Finds reg rs seen b after) : Finds reg (r :: rs) seen b after
  | appliesWaiting {r rs seen u after} (lead : r.lead = .applies u) (new : u ∉ seen)
    (nested : Finds reg (reg.rulesOf u) (u :: seen) true after) :
    Finds reg (r :: rs) seen true after
  | applies {r rs seen u mid b after} (lead : r.lead = .applies u) (new : u ∉ seen)
    (nested : Finds reg (reg.rulesOf u) (u :: seen) false mid) (rest : Finds reg rs mid b after) :
    Finds reg (r :: rs) seen b after

/-- The search of a type ends with an answer. -/
def Answers (reg : Registry) (t : TypeId) (b : Bool) : Prop := ∃ s, reg.Finds (reg.rulesOf t) [t] b s

/-- A search of rules comes to a rule that carries the rules of a type. -/
inductive Comes (reg : Registry) : List Rule → List TypeId → TypeId → Prop
  | here {r rs seen u} (lead : r.lead = .carries u) : Comes reg (r :: rs) seen u
  | inside {r rs seen v u} (lead : r.lead = .applies v) (new : v ∉ seen)
    (nested : Comes reg (reg.rulesOf v) (v :: seen) u) : Comes reg (r :: rs) seen u
  | past {r rs seen mid u} (found : reg.Finds [r] seen false mid) (rest : Comes reg rs mid u) :
    Comes reg (r :: rs) seen u

/-- The search of a type asks for the answer of another type. -/
def Asks (reg : Registry) (t u : TypeId) : Prop := reg.Comes (reg.rulesOf t) [t] u

variable {reg : Registry} {t u : TypeId} {rs : List Rule} {seen : List TypeId}

/-- A search ends in one way. -/
theorem Finds.unique {b b' : Bool} {s s' : List TypeId} (h : reg.Finds rs seen b s)
    (h' : reg.Finds rs seen b' s') : b = b' ∧ s = s' := by
  induction h generalizing b' s' with
  | nil => cases h'; exact ⟨rfl, rfl⟩
  | waits lead => cases h' <;> simp_all
  | ends lead rest ih =>
    cases h' with
    | ends lead' rest' => exact ih rest'
    | _ => simp_all
  | carriesWaiting lead answer ih =>
    cases h' with
    | carries lead' answer' =>
      cases lead.symm.trans lead'
      cases (ih answer').1
    | _ => simp_all
  | carries lead answer rest ihAnswer ihRest =>
    cases h' with
    | carriesWaiting lead' answer' =>
      cases lead.symm.trans lead'
      cases (ihAnswer answer').1
    | carries lead' answer' rest' => exact ihRest rest'
    | _ => simp_all
  | visited lead visited rest ih =>
    cases h' with
    | visited lead' visited' rest' => exact ih rest'
    | _ => simp_all
  | appliesWaiting lead new nested ih =>
    cases h' with
    | appliesWaiting lead' new' nested' =>
      cases lead.symm.trans lead'
      exact ih nested'
    | applies lead' new' nested' =>
      cases lead.symm.trans lead'
      cases (ih nested').1
    | _ => simp_all
  | applies lead new nested rest ihNested ihRest =>
    cases h' with
    | appliesWaiting lead' new' nested' =>
      cases lead.symm.trans lead'
      cases (ihNested nested').1
    | applies lead' new' nested' rest' =>
      cases lead.symm.trans lead'
      obtain ⟨-, rfl⟩ := ihNested nested'
      exact ihRest rest'
    | _ => simp_all

/-- A type from which no endless chain of types that ask for each other starts. -/
abbrev Ending (reg : Registry) (t : TypeId) : Prop := Acc (fun u t => reg.Asks t u) t

/-- **What a search that ends has asked for has been answered**, by a smaller search: so no chain of
types that ask for each other starts there.  If nothing waits, nothing waits there either. -/
theorem Finds.asked {b : Bool} {s : List TypeId} (h : reg.Finds rs seen b s) :
    ∀ u, reg.Comes rs seen u → reg.Ending u ∧ (b = false → reg.Answers u false) := by
  -- Where the derivation passes a rule, the search can only have passed it in the same way.
  have passed : ∀ {r : Rule} {seen mid mid' : List TypeId}, reg.Finds [r] seen false mid →
      reg.Finds [r] seen false mid' → mid' = mid := fun h h' => (h'.unique h).2
  have stopped : ∀ {r : Rule} {seen mid s : List TypeId}, reg.Finds [r] seen true s →
      ¬ reg.Finds [r] seen false mid := fun h h' => by cases (h.unique h').1
  induction h with
  | nil => exact fun u hu => by cases hu
  | waits lead =>
    rintro u (lead' | ⟨lead', -, -⟩ | ⟨found, -⟩)
    · cases lead.symm.trans lead'
    · cases lead.symm.trans lead'
    · exact absurd found (stopped (.waits lead))
  | ends lead rest ih =>
    rintro u (lead' | ⟨lead', -, -⟩ | ⟨found, hrest⟩)
    · cases lead.symm.trans lead'
    · cases lead.symm.trans lead'
    · exact ih u (passed (.ends lead .nil) found ▸ hrest)
  | carriesWaiting lead answer ih =>
    rintro u (lead' | ⟨lead', -, -⟩ | ⟨found, -⟩)
    · cases lead.symm.trans lead'
      exact ⟨.intro _ fun v hv => (ih v hv).1, fun hb => by cases hb⟩
    · cases lead.symm.trans lead'
    · exact absurd found (stopped (.carriesWaiting lead answer))
  | carries lead answer rest ihAnswer ihRest =>
    rintro u (lead' | ⟨lead', -, -⟩ | ⟨found, hrest⟩)
    · cases lead.symm.trans lead'
      exact ⟨.intro _ fun v hv => (ihAnswer v hv).1, fun _ => ⟨_, answer⟩⟩
    · cases lead.symm.trans lead'
    · exact ihRest u (passed (.carries lead answer .nil) found ▸ hrest)
  | visited lead visited rest ih =>
    rintro u (lead' | ⟨lead', new, -⟩ | ⟨found, hrest⟩)
    · cases lead.symm.trans lead'
    · cases lead.symm.trans lead'
      exact absurd visited new
    · exact ih u (passed (.visited lead visited .nil) found ▸ hrest)
  | appliesWaiting lead new nested ih =>
    rintro u (lead' | ⟨lead', -, hnested⟩ | ⟨found, -⟩)
    · cases lead.symm.trans lead'
    · cases lead.symm.trans lead'
      exact ⟨(ih u hnested).1, fun hb => by cases hb⟩
    · exact absurd found (stopped (.appliesWaiting lead new nested))
  | applies lead new nested rest ihNested ihRest =>
    rintro u (lead' | ⟨lead', -, hnested⟩ | ⟨found, hrest⟩)
    · cases lead.symm.trans lead'
    · cases lead.symm.trans lead'
      exact ⟨(ihNested u hnested).1, fun _ => (ihNested u hnested).2 rfl⟩
    · exact ihRest u (passed (.applies lead new nested .nil) found ▸ hrest)

theorem Answers.ending {b : Bool} (h : reg.Answers t b) : reg.Ending t := by
  obtain ⟨s, h⟩ := h
  exact .intro t fun u hu => (h.asked u hu).1

/-- No chain of asked types that ends comes back to where it started. -/
theorem Ending.not_asks (h : reg.Ending t) : ¬ TransGen reg.Asks t t := by
  induction h with
  | intro t _ ih =>
    intro hcycle
    obtain ⟨u, hu, hback⟩ := TransGen.head'_iff.mp hcycle
    exact ih u hu (TransGen.tail' hback hu)

theorem Ending.of_asks (h : reg.Ending t) (hu : ReflTransGen reg.Asks t u) : reg.Ending u := by
  induction hu with
  | refl => exact h
  | tail _ hasks ih => exact ih.inv hasks

/-! ## 4. The search of the registry -/

/-- What a search comes to at a rule, by what the rule means for it. -/
theorem searchRules_of_lead (carried : TypeId → Except Fault Bool)
    (nested : TypeId → List TypeId → Visit) (r : Rule) (rs : List Rule) (seen : List TypeId) :
    searchRules carried nested (r :: rs) seen = match r.lead with
      | .waits => .ok (true, seen)
      | .ends => searchRules carried nested rs seen
      | .carries u => match carried u with
        | .error f => .error f
        | .ok true => .ok (true, seen)
        | .ok false => searchRules carried nested rs seen
      | .applies u => match nested u seen with
        | .error f => .error f
        | .ok (true, mid) => .ok (true, mid)
        | .ok (false, mid) => searchRules carried nested rs mid := by
  rw [searchRules]
  unfold Rule.waits Rule.lead
  split
  · rfl
  · cases r.check? with
    | none => rfl
    | some c =>
      cases c with
      | childRules u =>
        rcases hc : carried u with f | _ | _ <;> simp only [Check.waits, Check.lead, hc] <;> rfl
      | custom kind template code isAsync e => cases isAsync <;> rfl
      | validateWith u =>
        show (nested u seen >>= fun x => _) = _
        rcases hn : nested u seen with f | ⟨_ | _, mid⟩ <;> simp only [hn, Check.lead] <;> rfl
      | validateEach u =>
        show (nested u seen >>= fun x => _) = _
        rcases hn : nested u seen with f | ⟨_ | _, mid⟩ <;> simp only [hn, Check.lead] <;> rfl
      | _ => rfl

/-- A search of a type that ends: it was visited before, or its rules are searched. -/
def FindsIn (reg : Registry) (t : TypeId) (seen : List TypeId) (b : Bool) (after : List TypeId) :
    Prop :=
  (t ∈ seen ∧ b = false ∧ after = seen) ∨ t ∉ seen ∧ reg.Finds (reg.rulesOf t) (t :: seen) b after

/-- What answers and nested searches must be right about for a search of rules to be right. -/
structure Sound (reg : Registry) (carried : TypeId → Except Fault Bool)
    (nested : TypeId → List TypeId → Visit) : Prop where
  carried : ∀ u b, carried u = .ok b → reg.Answers u b
  nested : ∀ u seen b after, nested u seen = .ok (b, after) → reg.FindsIn u seen b after

section Search

variable {carried : TypeId → Except Fault Bool} {nested : TypeId → List TypeId → Visit}

theorem Sound.searchRules (hs : reg.Sound carried nested) {b : Bool} {after : List TypeId}
    (h : searchRules carried nested rs seen = .ok (b, after)) : reg.Finds rs seen b after := by
  induction rs generalizing seen with
  | nil =>
    cases h
    exact .nil
  | cons r rs ih =>
    rw [searchRules_of_lead] at h
    cases lead : r.lead with
    | waits =>
      rw [lead] at h
      cases h
      exact .waits lead
    | ends =>
      rw [lead] at h
      exact .ends lead (ih h)
    | carries u =>
      simp only [lead] at h
      rcases hc : carried u with f | _ | _ <;> simp only [hc] at h
      · cases h
      · obtain ⟨s, answer⟩ := hs.carried u false hc
        exact .carries lead answer (ih h)
      · cases h
        obtain ⟨s, answer⟩ := hs.carried u true hc
        exact .carriesWaiting lead answer
    | applies u =>
      simp only [lead] at h
      rcases hn : nested u seen with f | ⟨_ | _, mid⟩ <;> simp only [hn] at h
      · cases h
      · rcases hs.nested u seen false mid hn with ⟨hu, -, rfl⟩ | ⟨hu, hfinds⟩
        · exact .visited lead hu (ih h)
        · exact .applies lead hu hfinds (ih h)
      · cases h
        rcases hs.nested u seen true after hn with ⟨-, hb, -⟩ | ⟨hu, hfinds⟩
        · cases hb
        · exact .appliesWaiting lead hu hfinds

end Search

/-- The answer of a type that a search asks for, unless it is being asked for already. -/
def answerWithin (reg : Registry) (fuel : Nat) (asked : List TypeId) (u : TypeId) :
    Except Fault Bool :=
  if asked.contains u then .error .tooDeep
  else (reg.searchType fuel (u :: asked) u []).map Prod.fst

/-- A search that is right with less fuel is right where it is used. -/
theorem sound_of_findsIn {fuel : Nat} {asked : List TypeId}
    (h : ∀ {asked seen after t b}, reg.searchType fuel asked t seen = .ok (b, after) →
      reg.FindsIn t seen b after) :
    reg.Sound (answerWithin reg fuel asked) (reg.searchType fuel asked) := by
  refine ⟨fun u b hu => ?_, fun u seen b after hu => h hu⟩
  unfold answerWithin at hu
  split at hu
  · cases hu
  · rcases hv : reg.searchType fuel (u :: asked) u [] with f | ⟨found, visited⟩ <;>
      rw [hv] at hu <;> cases hu
    rcases h hv with ⟨hmem, -⟩ | ⟨-, hfinds⟩
    · cases hmem
    · exact ⟨visited, hfinds⟩

/-- **What the search of the registry finds is what searches without a bound find.** -/
theorem findsIn_of_searchType {fuel : Nat} {asked after : List TypeId} {b : Bool}
    (h : reg.searchType fuel asked t seen = .ok (b, after)) : reg.FindsIn t seen b after := by
  induction fuel generalizing asked t seen after b with
  | zero => cases h
  | succ fuel ih =>
    rw [searchType] at h
    by_cases hseen : seen.contains t
    · rw [if_pos hseen] at h
      cases h
      exact .inl ⟨List.contains_iff_mem.mp hseen, rfl, rfl⟩
    · rw [if_neg hseen] at h
      refine .inr ⟨fun ht => hseen (List.contains_iff_mem.mpr ht),
        (sound_of_findsIn fun hu => ih hu).searchRules h⟩

theorem sound_searchType (fuel : Nat) (asked : List TypeId) :
    reg.Sound (answerWithin reg fuel asked) (reg.searchType fuel asked) :=
  sound_of_findsIn findsIn_of_searchType

/-- Visited types stay visited. -/
theorem Finds.subset {b : Bool} {after : List TypeId} (h : reg.Finds rs seen b after) :
    seen ⊆ after := by
  induction h with
  | nil | waits | carriesWaiting => exact fun _ h => h
  | ends _ _ ih | carries _ _ _ _ ih | visited _ _ _ ih => exact ih
  | appliesWaiting _ _ _ ih => exact fun _ h => ih (List.mem_cons_of_mem _ h)
  | applies _ _ _ _ ihNested ihRest => exact fun _ h => ihRest (ihNested (List.mem_cons_of_mem _ h))

/-- The answer of the registry is the one of searches without a bound. -/
theorem answers_of_waits {b : Bool} (h : reg.waits t = .ok b) : reg.Answers t b := by
  unfold waits at h
  rcases hv : reg.searchType reg.searchDepth [t] t [] with f | ⟨found, visited⟩ <;>
    rw [hv] at h <;> cases h
  rcases findsIn_of_searchType hv with ⟨hmem, -⟩ | ⟨-, hfinds⟩
  · cases hmem
  · exact ⟨visited, hfinds⟩

/-! ## 5. What a search that found nothing has examined -/

/-- What a search of `rs` that found nothing knows of rules: they do not wait, it has asked for the
types whose rules they carry, and has visited those whose declared rules they apply. -/
def Examined (reg : Registry) (rs : List Rule) (seen after : List TypeId) (l : List Rule) : Prop :=
  ∀ r ∈ l, r.Prompt ∧ (∀ u, r.lead = .carries u → reg.Comes rs seen u) ∧
    ∀ u, r.lead = .applies u → u ∈ after

/-- A rule that is passed is examined, as are those that are examined by the search of the others. -/
theorem Examined.cons {r : Rule} {mid after : List TypeId} {l : List Rule}
    (found : reg.Finds [r] seen false mid) (h : reg.Examined rs mid after l) :
    reg.Examined (r :: rs) seen after l := fun r' hr' =>
  ⟨(h r' hr').1, fun u hu => .past found ((h r' hr').2.1 u hu), (h r' hr').2.2⟩

/-- **A search that found nothing has examined** its rules and those of every type that it has
entered. -/
theorem Finds.examined {b : Bool} {after : List TypeId} (h : reg.Finds rs seen b after)
    (hb : b = false) : reg.Examined rs seen after rs ∧
      ∀ w ∈ after, w ∉ seen → reg.Examined rs seen after (reg.rulesOf w) := by
  -- what is known of the first rule, and what the search of the other rules knows
  have step : ∀ {r : Rule} {rs : List Rule} {seen mid after : List TypeId},
      reg.Finds [r] seen false mid → r.lead ≠ .waits →
      (∀ u, r.lead = .applies u → u ∈ after) → reg.Examined rs mid after rs →
      reg.Examined (r :: rs) seen after (r :: rs) := by
    intro r rs seen mid after found hprompt happlies hrest r' hr'
    rcases List.mem_cons.mp hr' with rfl | hr'
    · exact ⟨Rule.prompt_of_lead hprompt, fun u hu => .here hu, happlies⟩
    · exact hrest.cons found r' hr'
  induction h with
  | nil => exact ⟨fun r hr => (by cases hr), fun w hw hn => absurd hw hn⟩
  | waits | carriesWaiting | appliesWaiting => cases hb
  | ends lead _ ih =>
    obtain ⟨hrest, hentered⟩ := ih hb
    refine ⟨step (.ends lead .nil) (by simp [lead]) (by simp [lead]) hrest, fun w hw hn => ?_⟩
    exact (hentered w hw hn).cons (.ends lead .nil)
  | carries lead answer _ _ ih =>
    obtain ⟨hrest, hentered⟩ := ih hb
    refine ⟨step (.carries lead answer .nil) (by simp [lead]) (by simp [lead]) hrest,
      fun w hw hn => ?_⟩
    exact (hentered w hw hn).cons (.carries lead answer .nil)
  | visited lead hu rest ih =>
    obtain ⟨hrest, hentered⟩ := ih hb
    refine ⟨step (.visited lead hu .nil) (by simp [lead]) (fun v hv => ?_) hrest,
      fun w hw hn => ?_⟩
    · cases lead.symm.trans hv
      exact rest.subset hu
    · exact (hentered w hw hn).cons (.visited lead hu .nil)
  | @applies r rs seen u mid b after lead hu nested rest ihNested ihRest =>
    obtain ⟨hrules, hnested⟩ := ihNested rfl
    obtain ⟨hrest, hentered⟩ := ihRest hb
    -- what the nested search has examined is examined by this one
    have inside : ∀ {l : List Rule}, reg.Examined (reg.rulesOf u) (u :: seen) mid l →
        reg.Examined (r :: rs) seen after l := fun hl r' hr' =>
      ⟨(hl r' hr').1, fun v hv => .inside lead hu ((hl r' hr').2.1 v hv),
        fun v hv => rest.subset ((hl r' hr').2.2 v hv)⟩
    refine ⟨step (.applies lead hu nested .nil) (by simp [lead]) (fun v hv => ?_) hrest,
      fun w hw hn => ?_⟩
    · cases lead.symm.trans hv
      exact rest.subset (nested.subset List.mem_cons_self)
    · by_cases hmid : w ∈ mid
      · by_cases hwu : w = u
        · exact hwu ▸ inside hrules
        · exact inside (hnested w hmid (by simp [hwu, hn]))
      · exact (hentered w hw hmid).cons (.applies lead hu nested .nil)

theorem Finds.examined_of_mem {a w : TypeId} {s : List TypeId}
    (h : reg.Finds (reg.rulesOf a) [a] false s) (hw : w ∈ s) :
    reg.Examined (reg.rulesOf a) [a] s (reg.rulesOf w) := by
  obtain ⟨hown, hentered⟩ := h.examined rfl
  by_cases heq : w = a
  · exact heq ▸ hown
  · exact hentered w hw (by simpa using heq)

/-- **If a search found nothing, every type that its type leads to is visited** by the search of one
of the types that are asked for. -/
theorem Answers.visited (h : reg.Answers t false) (hu : reg.Reaches t u) :
    ∃ a s, ReflTransGen reg.Asks t a ∧ reg.Finds (reg.rulesOf a) [a] false s ∧ u ∈ s := by
  induction hu with
  | refl =>
    obtain ⟨s, hfinds⟩ := h
    exact ⟨t, s, .refl, hfinds, hfinds.subset List.mem_cons_self⟩
  | @step u v r hu hr hv ih =>
    obtain ⟨a, s, ha, hfinds, hmem⟩ := ih
    obtain ⟨hprompt, hcarries, happlies⟩ := hfinds.examined_of_mem hmem r hr
    rcases hprompt.lead_of_nestedType? hv with lead | lead
    · have hasks : reg.Asks a v := hcarries v lead
      obtain ⟨s', hfinds'⟩ := (hfinds.asked v hasks).2 rfl
      exact ⟨v, s', ha.tail hasks, hfinds', hfinds'.subset List.mem_cons_self⟩
    · exact ⟨a, s, ha, hfinds, happlies v lead⟩

/-- **If the search finds no rule that waits, there is none** among the rules that a validation can
come to. -/
theorem prompt_of_waits (h : reg.waits t = .ok false) : reg.Prompt t := by
  intro u hu r hr
  obtain ⟨a, s, -, hfinds, hmem⟩ := (answers_of_waits h).visited hu
  exact (hfinds.examined_of_mem hmem r hr).1

end Registry
end MemberRules
