/-
# Validating at once and with time to wait

A validation at once waits only if the search for rules that wait has found one; whether it waits is
settled before the first rule is applied.  A validation with time to wait gives the same result,
except in two cases, and this file says exactly which:

* the search found no rule that waits, and the validation came to one all the same;
* the search had no answer.

The first case needs a type that the registry did not know when the search was made, and whose
declared rules were registered on the way.  The second needs a type that carries its own rules.

* `validate_agrees_iff`: the exact condition, and where the two cases come from.
-/
import MemberRules.Configuration.Gathering
import MemberRules.Proofs.Validation.Registered
import MemberRules.Proofs.Waiting.Lockstep
import MemberRules.Proofs.Waiting.Termination

namespace MemberRules

open MemberRules.Computation

namespace Validation

variable {e : Engine} {own t : TypeId} {v : Value}

/-! ## 1. The two validations, after the type of the rules is settled -/

theorem rulesType_snd (t : TypeId) (v : Value) (e : Engine) : (rulesType t v e).2 = e := by
  unfold rulesType
  split <;> rfl

theorem validate_of_error {f : Fault} (h : (rulesType t v e).1 = .error f) :
    validate t v e = (.error f, e) :=
  bind_error (Prod.ext h (rulesType_snd t v e))

theorem validatePatiently_of_error {limit : Option Bool} {f : Fault}
    (h : (rulesType t v e).1 = .error f) : validatePatiently t v limit e = (.error f, e) :=
  bind_error (Prod.ext h (rulesType_snd t v e))

/-- A validation at once, by what the search for rules that wait has found. -/
theorem validate_apply (h : (rulesType t v e).1 = .ok own) :
    validate t v e = match e.registry.waits own with
      | .error f => (.error f, e)
      | .ok false => run .immediate v own e
      | .ok true =>
        run .patient v own
          (e.note { logger := "executor", name := "blocking_on_async_rules",
                    fields := [("model_type", .text own.name)] }) := by
  have hown : rulesType t v e = (.ok own, e) := Prod.ext h (rulesType_snd t v e)
  unfold validate
  rw [bind_ok hown, bind_ok (get_apply e), bind_apply, Action.lift_apply]
  rcases e.registry.waits own with f | b
  · rfl
  · cases b <;> rfl

theorem validatePatiently_apply (h : (rulesType t v e).1 = .ok own) :
    validatePatiently t v none e = run .patient v own e :=
  bind_ok (Prod.ext h (rulesType_snd t v e))

/-- What the log holds plays no part in the result of a validation. -/
theorem run_note_fst (d : Drive) (v : Value) (own : TypeId) (event : Log.Event) (e : Engine) :
    (run d v own (e.note event)).1 = (run d v own e).1 := by
  have hlike : e.Like (e.note event) := { Engine.Like.refl e with known := rfl }
  exact (run_inStep (Drive.Below.refl False d) v own e (e.note event) hlike).fst_eq.symm

/-! ## 2. Where they differ -/

/-- A validation at once that a validation with time to wait does not end as. -/
inductive Falters (e : Engine) (own : TypeId) (v : Value) : Prop
  /-- No rule that waits was found, and the validation came to one. -/
  | unforeseen : e.registry.waits own = .ok false → (run .immediate v own e).1 = .error .suspended →
      (run .patient v own e).1 ≠ .error .suspended → Falters e own v
  /-- There was no answer whether a rule waits. -/
  | unanswered {f : Fault} : e.registry.waits own = .error f →
      (run .patient v own e).1 ≠ .error f → Falters e own v

/-- If the search found no rule that waits, running at once differs from waiting only by giving
up. -/
theorem run_immediate_fst (v : Value) (own : TypeId) (e : Engine) :
    (run .immediate v own e).1 = (run .patient v own e).1 ∨
      (run .immediate v own e).1 = .error .suspended := by
  rcases run_inStep Drive.immediate_below_patient v own e e (.refl e) with ⟨h, -⟩ | ⟨-, h⟩
  · exact .inl h
  · exact .inr h

theorem validate_eq_iff_of_ok (h : (rulesType t v e).1 = .ok own) :
    (validate t v e).1 = (validatePatiently t v none e).1 ↔ ¬ Falters e own v := by
  rw [validate_apply h, validatePatiently_apply h]
  rcases hw : e.registry.waits own with f | b
  · constructor
    · rintro heq (⟨hw', -, -⟩ | ⟨hw', hne⟩) <;> rw [hw] at hw' <;> cases hw'
      exact hne heq.symm
    · intro hf
      by_contra hne
      exact hf (.unanswered hw fun heq => hne heq.symm)
  · cases b with
    | true =>
      refine ⟨?_, fun _ => run_note_fst _ _ _ _ _⟩
      rintro - (⟨hw', -, -⟩ | ⟨hw', -⟩) <;> rw [hw] at hw' <;> cases hw'
    | false =>
      constructor
      · rintro heq (⟨-, hs, hne⟩ | ⟨hw', -⟩)
        · exact hne (heq ▸ hs)
        · rw [hw] at hw'
          cases hw'
      · intro hf
        rcases run_immediate_fst v own e with heq | hs
        · exact heq
        · by_contra hne
          exact hf (.unforeseen hw hs fun hp => hne (hs.trans hp.symm))

/-- **Where the two cases come from**: a type that the registry did not know, or one that carries
itself. -/
theorem Falters.cause (h : Falters e own v) :
    ¬ e.registry.Covers own ∨ ∃ u, e.registry.Reaches own u ∧ e.registry.CarriesItself u := by
  rcases h with ⟨hw, hs, hne⟩ | ⟨hw, -⟩
  · refine .inl fun hcov => hne ?_
    have hsame : Action.Alike e.registry (run .immediate v own) (run .patient v own) :=
      run_alike hcov (.inr (Registry.prompt_of_waits hw)) v
    rw [← (hsame e rfl).1]
    exact hs
  · exact .inr (Registry.carriesItself_of_waits hw).2

/-- **Validating at once gives what validating with time to wait gives, except where it falters**:
where it comes to a rule that waits and was not foreseen, or where there was no answer whether one
waits.  It falters only if the registry does not know all nested types, or one of them carries
itself. -/
theorem validate_agrees_iff (t : TypeId) (v : Value) (e : Engine) :
    ((validate t v e).1 = (validatePatiently t v none e).1 ↔
      ∀ own, (rulesType t v e).1 = .ok own → ¬ Falters e own v) ∧
    ∀ own, Falters e own v →
      ¬ e.registry.Covers own ∨ ∃ u, e.registry.Reaches own u ∧ e.registry.CarriesItself u := by
  refine ⟨?_, fun own h => h.cause⟩
  rcases h : (rulesType t v e).1 with f | own
  · rw [validate_of_error h, validatePatiently_of_error h]
    exact ⟨fun _ own hown => (by cases hown), fun _ => rfl⟩
  · rw [validate_eq_iff_of_ok h]
    exact ⟨fun hf own' hown => (by cases hown; exact hf), fun hf => hf own rfl⟩

/-! ## 3. A predicate that was not foreseen

A letter is validated in an engine that knows no types yet.  Its address is to be validated by the
declared rules of addresses, which hold a predicate that waits. -/

namespace Letter

def street : Hint :=
  .annotated (.type (.builtin .text)) [
    { check := .mustAsync ⟨.once, .subject⟩ }]

def schema : Schema := ⟨[
  { name := "Address"
    members := [⟨"street", .field street none none none⟩]
    line := [.declared "Address"] },
  { name := "Letter"
    members := [⟨"address", .field (.type (.declared "Address")) none none none⟩]
    line := [.declared "Letter"] }]⟩

/-- A letter to an address without a street. -/
def engine : Engine :=
  { world := { schema, objects := [
      ⟨.declared "Address", [("street", .text "")]⟩,
      ⟨.declared "Letter", [("address", .object 0)]⟩] } }

def steps : List TypeStep := [
  .rule (.ref ⟨.declared "Letter", "address", .field⟩) none none false,
  .check (.attach (.ok { check := .validateWith (.declared "Address") })),
  .build]

/-- The engine with the letter configured. -/
def configured (t : TypeId) (steps : List TypeStep) (e : Engine) : Engine :=
  ((do runTypeSteps (← Action.configure t) steps; prepare t : Action Unit) e).2

end Letter

/-- **Validating at once is not always validating with time to wait.** -/
theorem validate_ne_validatePatiently :
    ¬ ∀ (e : Engine) (t : TypeId) (steps : List TypeStep) (v : Value),
      (validate t v (Letter.configured t steps e)).1 =
        (validatePatiently t v none (Letter.configured t steps e)).1 := by
  intro h
  have hends := congrArg Except.isOk
    (h Letter.engine (.declared "Letter") Letter.steps (.object 1))
  have hatOnce : (validate (.declared "Letter") (.object 1)
      (Letter.configured (.declared "Letter") Letter.steps Letter.engine)).1.isOk = false := by
    decide +kernel
  have hinTime : (validatePatiently (.declared "Letter") (.object 1) none
      (Letter.configured (.declared "Letter") Letter.steps Letter.engine)).1.isOk = true := by
    decide +kernel
  rw [hatOnce, hinTime] at hends
  cases hends

end Validation
end MemberRules
