/-
# Validations that find every type registered

A validation registers the types of nested values on the way.  If the registry knows all of them
beforehand, nothing is left to register: the validation leaves the registry alone, and applies no
rules but those that the registry held at the start.  Two validations that differ in what they do
with rules that wait are then the same, if there are no such rules.

* `Registry.Covers`: the registry knows every type whose declared rules a validation can ask for.
* `Action.Alike`: two steps that do the same from a given registry, and leave it alone.
* `visitObject_alike`: validating an object is such a step, and the drive plays no part in it if no
  rule waits.
-/
import MemberRules.Proofs.Computation
import MemberRules.Proofs.Waiting.Search
import MemberRules.Validation.Run

namespace MemberRules

open MemberRules.Computation

variable {α β : Type} {reg : Registry} {t u : TypeId}

namespace Registry

/-! ## 1. Registries that know all nested types -/

/-- Every type whose declared rules a validation by the rules of a type can ask for is known. -/
def Covers (reg : Registry) (t : TypeId) : Prop :=
  ∀ u, reg.Reaches t u → ∀ r ∈ reg.rulesOf u, ∀ v, r.nestedModel? = some v → reg.knows v = true

theorem Covers.of_reaches (h : reg.Covers t) (hu : reg.Reaches t u) : reg.Covers u :=
  fun v hv => h v (hu.trans hv)

theorem mem_rulesOf {g : RuleGroup} {r : Rule} (hg : g ∈ reg.groupsOf t) (hr : r ∈ g.rules) :
    r ∈ reg.rulesOf t := List.mem_flatMap.mpr ⟨g, hg, hr⟩

end Registry

/-! ## 2. Steps that leave the registry alone -/

/-- Two steps that do the same from an engine with the given registry, and leave it alone. -/
def Action.Alike (reg : Registry) (x y : Action α) : Prop :=
  ∀ e, e.registry = reg → x e = y e ∧ (x e).2.registry = reg

namespace Action.Alike

theorem pure (a : α) : Action.Alike reg (pure a) (pure a) := fun _ h => ⟨rfl, h⟩

theorem throw (f : Fault) : Action.Alike reg (throw f : Action α) (throw f) :=
  fun _ h => ⟨rfl, h⟩

theorem lift (r : Except Fault α) : Action.Alike reg (Action.lift r) (Action.lift r) :=
  fun _ h => ⟨rfl, h⟩

theorem bind {x y : Action α} {f g : α → Action β} (h : Action.Alike reg x y)
    (hf : ∀ a, Action.Alike reg (f a) (g a)) : Action.Alike reg (x >>= f) (y >>= g) := by
  intro e he
  obtain ⟨hxy, hx⟩ := h e he
  rw [bind_apply, bind_apply, ← hxy]
  rcases hend : x e with ⟨r | a, e'⟩ <;> rw [hend] at hx
  · exact ⟨rfl, hx⟩
  · exact hf a e' hx

/-- A step that looks at the engine sees the given registry. -/
theorem get_bind {f g : Engine → Action α}
    (h : ∀ e, e.registry = reg → f e e = g e e ∧ (f e e).2.registry = reg) :
    Action.Alike reg (get >>= f) (get >>= g) := fun e he => by
  rw [bind_ok (get_apply e), bind_ok (get_apply e)]
  exact h e he

theorem symm {x y : Action α} (h : Action.Alike reg x y) : Action.Alike reg y x := fun e he =>
  ⟨(h e he).1.symm, (h e he).1 ▸ (h e he).2⟩

theorem trans {x y z : Action α} (h : Action.Alike reg x y) (h' : Action.Alike reg y z) :
    Action.Alike reg x z := fun e he => ⟨(h e he).1.trans (h' e he).1, (h e he).2⟩

theorem eval {x y : Eval α} (h : ∀ w, x w = y w) :
    Action.Alike reg (Action.eval x) (Action.eval y) := fun e he => by
  rw [Action.eval_apply, Action.eval_apply, h]
  exact ⟨rfl, he⟩

theorem note (logger name : String) (fields : Details) :
    Action.Alike reg (Action.note logger name fields) (Action.note logger name fields) :=
  fun _ h => ⟨rfl, h⟩

/-- Registering a type that is known does nothing. -/
theorem ensure (h : reg.knows t = true) : Action.Alike reg (Action.ensure t) (Pure.pure ()) := by
  intro e he
  rw [Action.ensure_of_knows (he.symm ▸ h)]
  exact ⟨rfl, he⟩

theorem message (w : Message.Wanted) (object : Value) :
    Action.Alike reg (Action.message w object) (Action.message w object) := by
  refine .bind ?_ fun computed => .get_bind fun e he => ⟨rfl, he⟩
  unfold Action.computedText
  split
  · refine .bind (.eval fun _ => rfl) fun v => .get_bind fun e he => ?_
    exact Action.Alike.bind (.lift _) (fun _ => .pure _) e he
  · exact .pure _

end Action.Alike

/-! ## 3. Rules that do not wait -/

variable {d d' : Drive}

/-- The gate of a rule that does not wait is open under one drive as under the other. -/
theorem Gate.isOpen_of_prompt {r : Rule} (h : d = d' ∨ r.Prompt) (object : Value) :
    r.gate.isOpen d object = r.gate.isOpen d' object := by
  rcases h with rfl | h
  · rfl
  · unfold Rule.Prompt Rule.waits at h
    unfold Gate.isOpen
    cases hg : r.gate.asyncCondition with
    | none => cases r.gate.condition <;> rfl
    | some c => simp [hg] at h

/-- The check of a rule that does not wait says the same under both drives. -/
theorem Check.runWith_of_prompt {r : Rule} {a : Attribute} (h : d = d' ∨ r.Prompt)
    (ha : r.validator = some a) (v owner : Value) :
    a.check.runWith d v owner = a.check.runWith d' v owner := by
  rcases h with rfl | h
  · rfl
  · have hc : r.check? = some a.check := by simp [Rule.check?, ha]
    unfold Rule.Prompt Rule.waits at h
    rw [hc] at h
    split at h
    · cases h
    · cases hcheck : a.check with
      | mustAsync p => rw [hcheck] at h; cases h
      | _ => rfl

/-! ## 4. Validations -/

namespace Validation

theorem collect_alike {f g : α → Finding} {as : List α}
    (h : ∀ a ∈ as, Action.Alike reg (f a) (g a)) :
    Action.Alike reg (collect f as) (collect g as) := by
  induction as with
  | nil => exact .pure _
  | cons a as ih =>
    refine .bind (h a List.mem_cons_self) fun _ => .bind (ih fun b hb => ?_) fun _ => .pure _
    exact h b (List.mem_cons_of_mem a hb)

theorem messageOf_alike (r : Rule) (a : Attribute) (pos : Position) (own : Option String) :
    Action.Alike reg (messageOf r a pos own) (messageOf r a pos own) := by
  unfold messageOf
  split
  · exact .pure _
  · exact .message _ _

theorem applyCheck_alike (r : Rule) {a : Attribute} {pos : Position} {v : Value}
    (h : a.check.runWith d v pos.owner = a.check.runWith d' v pos.owner) :
    Action.Alike reg (applyCheck d r a pos v) (applyCheck d' r a pos v) := by
  refine .bind (.eval fun w => by rw [h]) fun outcome => ?_
  split
  · exact .pure _
  · exact .bind (messageOf_alike _ _ _ _) fun _ => .bind (.lift _) fun _ => .pure _

variable {nested nested' : Value → TypeId → String → Finding}

/-! ### What a rule is applied to -/

/-- A rule that asks for no nested value checks the value itself. -/
theorem applyRule_of_leaf {r : Rule} {a : Attribute} {pos : Position} {v : Value}
    (hu : a.check.nestedType? = none) : applyRule nested d r a pos v = applyCheck d r a pos v := by
  unfold applyRule
  cases hcheck : a.check <;> rw [hcheck] at hu <;> cases hu

/-- A nested value that is missing is not validated. -/
theorem applyRule_missing {r : Rule} {a : Attribute} {pos : Position}
    (hu : a.check.nestedType? = some u) : applyRule nested d r a pos .none = pure [] := by
  unfold applyRule
  cases hcheck : a.check <;> rw [hcheck] at hu <;> cases hu

/-- A nested value is validated by the rules of its type, which is registered first if the rule asks
for its declared rules. -/
theorem applyRule_of_nested {r : Rule} {a : Attribute} {pos : Position} {v : Value}
    (hu : a.check.nestedType? = some u) (hv : v ≠ .none) : applyRule nested d r a pos v =
      if a.check.nestedModel?.isSome then (do Action.ensure u; nested v u pos.path)
      else nested v u pos.path := by
  unfold applyRule
  cases hcheck : a.check <;> rw [hcheck] at hu <;> cases hu <;> cases v <;>
    first | exact absurd rfl hv | rfl

theorem applyRule_alike {r : Rule} {a : Attribute} (h : d = d' ∨ r.Prompt)
    (hknown : ∀ u, r.nestedModel? = some u → reg.knows u = true)
    (hn : ∀ u, r.nestedType? = some u → ∀ v path, Action.Alike reg (nested v u path) (nested' v u path))
    (ha : r.validator = some a) (pos : Position) (v : Value) :
    Action.Alike reg (applyRule nested d r a pos v) (applyRule nested' d' r a pos v) := by
  have hc : r.check? = some a.check := by simp [Rule.check?, ha]
  unfold applyRule
  split
  · exact .pure _
  · exact .pure _
  · exact .pure _
  · rename_i u hu _
    exact hn u (by simp [Rule.nestedType?, hc, hu, Check.nestedType?]) _ _
  · rename_i u hu _
    have hu' := hknown u (by simp [Rule.nestedModel?, hc, hu, Check.nestedModel?])
    refine .bind ((Action.Alike.ensure hu').trans (Action.Alike.ensure hu').symm) fun _ => ?_
    exact hn u (by simp [Rule.nestedType?, hc, hu, Check.nestedType?]) _ _
  · rename_i u hu _
    have hu' := hknown u (by simp [Rule.nestedModel?, hc, hu, Check.nestedModel?])
    refine .bind ((Action.Alike.ensure hu').trans (Action.Alike.ensure hu').symm) fun _ => ?_
    exact hn u (by simp [Rule.nestedType?, hc, hu, Check.nestedType?]) _ _
  · exact applyCheck_alike r (Check.runWith_of_prompt h ha _ _)

theorem visitRule_alike {r : Rule} (h : d = d' ∨ r.Prompt)
    (hknown : ∀ u, r.nestedModel? = some u → reg.knows u = true)
    (hn : ∀ u, r.nestedType? = some u → ∀ v path, Action.Alike reg (nested v u path) (nested' v u path))
    (pos : Position) (v : Value) :
    Action.Alike reg (visitRule nested d pos v r) (visitRule nested' d' pos v r) := by
  unfold visitRule
  split
  · exact .pure _
  · rename_i a ha
    refine .bind (.eval fun w => by rw [Gate.isOpen_of_prompt h]) fun isOpen => ?_
    split
    · exact .pure _
    · split
      · refine .get_bind fun e he => ?_
        exact collect_alike (fun p _ => applyRule_alike h hknown hn ha _ _) e he
      · exact applyRule_alike h hknown hn ha _ _

theorem provided_alike (g : RuleGroup) (owner : Value) :
    Action.Alike reg (provided g owner) (provided g owner) := by
  refine .bind (.eval fun _ => rfl) fun v => ?_
  split
  · exact .pure _
  · exact .bind (.eval fun _ => rfl) fun _ => .bind (.eval fun _ => rfl) fun _ => .pure _

theorem requireBuilt_alike (t : TypeId) :
    Action.Alike reg (requireBuilt t) (requireBuilt t) := by
  refine .get_bind fun e he => ?_
  cases e.registry.knows t && !e.registry.isBuilt t <;> exact ⟨rfl, he⟩

/-- **A validation for which every type is registered** leaves the registry alone; if no rule
waits, the drive plays no part in it. -/
theorem visitObject_alike (hcov : reg.Covers t) (h : d = d' ∨ reg.Prompt t) (depth : Nat)
    (owner : Value) (path : String) :
    Action.Alike reg (visitObject d depth owner t path) (visitObject d' depth owner t path) := by
  induction depth generalizing t owner path with
  | zero => exact .throw _
  | succ depth ih =>
    refine .bind (requireBuilt_alike t) fun _ => .get_bind fun e he => ?_
    subst he
    refine collect_alike (fun g hg => ?_) e rfl
    unfold visitMember
    split
    · exact .pure _
    · refine .bind (provided_alike g owner) fun v => collect_alike fun r hr => ?_
      have hrule : r ∈ e.registry.rulesOf t := Registry.mem_rulesOf hg hr
      refine visitRule_alike (h.imp_right fun h => h t .refl r hrule) (hcov t .refl r hrule)
        (fun u hu v path => ?_) _ v
      have hreach : e.registry.Reaches t u := .step .refl hrule hu
      exact ih (hcov.of_reaches hreach) (h.imp_right fun h => h.of_reaches hreach) v path

theorem run_alike (hcov : reg.Covers t) (h : d = d' ∨ reg.Prompt t) (owner : Value) :
    Action.Alike reg (run d owner t) (run d' owner t) :=
  .bind (visitObject_alike hcov h _ _ _) fun _ => .bind (.note _ _ _) fun _ => .pure _

end Validation
end MemberRules
