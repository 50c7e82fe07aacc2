/-
# Two validations in lockstep

A validation that runs at once and one that has time to wait are the same steps under two drives.
This file runs them side by side.  Up to the first predicate that waits they find the same failures
and leave the same engine; there the one that runs at once gives up, and nothing more is said.

The comparison leaves out of account what no validation reads: the log, in which a validation that
is about to wait says so before it starts, the configurations that are under way, and the identities
under which changes reach the rules of the registry.

* `Drive.Below`: under the first drive every pause ends as under the second, or gives up.
* `Engine.Like`: two engines that look the same to a validation.
* `InStep`: two engine steps that agree in this sense, from engines that look the same.
* `run_inStep`: the validation of an object under two such drives.
* `validate_of_like`: validations on engines that look the same.
-/
import MemberRules.Proofs.Computation
import MemberRules.Proofs.Message.Lookups
import MemberRules.Proofs.Registry.Contents
import MemberRules.Validation.Run

namespace MemberRules

open MemberRules.Computation

variable {α β : Type} {s : Prop}

/-! ## 1. Evaluations -/

/-- Under the first drive every pause ends as under the second one, or, if `s` allows it, the work is
given up. -/
def Drive.Below (s : Prop) (d d' : Drive) : Prop :=
  ∀ p, d.wait p = d'.wait p ∨ (s ∧ d.wait p = .error .suspended)

theorem Drive.Below.refl (s : Prop) (d : Drive) : d.Below s d := fun _ => .inl rfl

/-- Running at once differs from waiting only where it gives up. -/
theorem Drive.immediate_below_patient : Drive.immediate.Below True .patient := by
  intro p
  cases p with
  | none => exact .inl rfl
  | once => exact .inr ⟨trivial, rfl⟩
  | forever => exact .inr ⟨trivial, rfl⟩

/-- Two evaluations that agree in every world, unless the first one is given up. -/
def Eval.InStep (s : Prop) (x y : Eval α) : Prop :=
  ∀ w, x w = y w ∨ (s ∧ (x w).1 = .error .suspended)

namespace Eval.InStep

theorem refl (x : Eval α) : Eval.InStep s x x := fun _ => .inl rfl

theorem bind {x y : Eval α} {f g : α → Eval β} (h : Eval.InStep s x y)
    (hf : ∀ a, Eval.InStep s (f a) (g a)) : Eval.InStep s (x >>= f) (y >>= g) := by
  intro w
  rcases h w with h | ⟨hs, h⟩
  · rw [bind_apply, bind_apply, h]
    rcases y w with ⟨r | a, w'⟩
    · exact .inl rfl
    · exact hf a w'
  · refine .inr ⟨hs, ?_⟩
    rcases hx : x w with ⟨r | a, w'⟩ <;> rw [hx] at h <;> cases h
    rw [bind_error hx]

theorem predicate {d d' : Drive} (hd : d.Below s d') (scope : Scope) (p : AsyncPredicate) :
    Eval.InStep s (p.eval d scope) (p.eval d' scope) := by
  refine bind ?_ fun _ => refl _
  intro w
  rcases hd p.pause with h | ⟨hs, h⟩
  · exact .inl (by rw [h])
  · exact .inr ⟨hs, by rw [h]; rfl⟩

theorem condition {d d' : Drive} (hd : d.Below s d') (object : Value) (c : AsyncCondition) :
    Eval.InStep s (c.eval d object) (c.eval d' object) := by
  induction c with
  | test p => exact predicate hd _ p
  | plain c => exact refl _
  | always => exact refl _
  | both outer inner iho ihi =>
    refine bind iho fun a => ?_
    split
    · exact bind ihi fun _ => refl _
    · exact refl _
  | negate c ih => exact bind ih fun _ => refl _

theorem gate {d d' : Drive} (hd : d.Below s d') (g : Gate) (object : Value) :
    Eval.InStep s (g.isOpen d object) (g.isOpen d' object) := by
  unfold Gate.isOpen
  split
  · exact bind (condition hd object _) fun _ => refl _
  · exact refl _
  · exact refl _

/-- Only the check of a predicate that may wait asks for the drive. -/
theorem check {d d' : Drive} (hd : d.Below s d') (v owner : Value) (c : Check) :
    Eval.InStep s (c.runWith d v owner) (c.runWith d' v owner) := by
  cases c with
  | mustAsync p => exact bind (bind (predicate hd _ p) fun _ => refl _) fun _ => refl _
  | _ => exact refl _

end Eval.InStep

/-! ## 2. Steps of an engine -/

/-- Engines that look the same to a validation. -/
structure Engine.Like (e e' : Engine) : Prop where
  world : e'.world = e.world
  resources : e'.resources = e.resources
  options : e'.options = e.options
  ambient : e'.ambient = e.ambient
  registry : e.registry.Like e'.registry
  reflected : e'.reflected = e.reflected
  known : e'.lookups.known = e.lookups.known
  nextId : e'.nextId = e.nextId

theorem Engine.Like.refl (e : Engine) : e.Like e := ⟨rfl, rfl, rfl, rfl, .refl _, rfl, rfl, rfl⟩

theorem Engine.Like.sources {e e' : Engine} (h : e.Like e') : e'.sources = e.sources := by
  unfold Engine.sources
  rw [h.world, h.resources, h.options, h.ambient]

/-- Two ends of steps that agree: the same result, and engines that look the same; or, if `s` allows
it, the first one was given up. -/
def Lockstep (s : Prop) (p q : Except Fault α × Engine) : Prop :=
  (p.1 = q.1 ∧ p.2.Like q.2) ∨ (s ∧ p.1 = .error .suspended)

/-- If nothing may be given up, the results are the same. -/
theorem Lockstep.fst_eq {p q : Except Fault α × Engine} (h : Lockstep False p q) : p.1 = q.1 :=
  h.elim And.left fun hs => hs.1.elim

/-- Two engine steps that agree from engines that look the same. -/
def Action.InStep (s : Prop) (x y : Action α) : Prop :=
  ∀ e e', e.Like e' → Lockstep s (x e) (y e')

theorem Lockstep.bind {x y : Action α} {f g : α → Action β} {e e' : Engine}
    (h : Lockstep s (x e) (y e'))
    (hf : ∀ a e₁ e₁', x e = (.ok a, e₁) → e₁.Like e₁' → Lockstep s (f a e₁) (g a e₁')) :
    Lockstep s ((x >>= f) e) ((y >>= g) e') := by
  rcases h with ⟨hr, he⟩ | ⟨hs, hr⟩
  · rw [bind_apply, bind_apply]
    rcases hx : x e with ⟨r | a, e₁⟩ <;> rcases hy : y e' with ⟨r' | a', e₁'⟩ <;>
      simp only [hx, hy] at hr he <;> cases hr
    · exact .inl ⟨rfl, he⟩
    · exact hf a e₁ e₁' hx he
  · refine .inr ⟨hs, ?_⟩
    rcases hx : x e with ⟨r | a, e₁⟩ <;> rw [hx] at hr <;> cases hr
    rw [bind_error hx]

namespace Action.InStep

theorem pure (a : α) : Action.InStep s (pure a) (pure a) := fun _ _ h => .inl ⟨rfl, h⟩

theorem throw (f : Fault) : Action.InStep s (throw f : Action α) (throw f) :=
  fun _ _ h => .inl ⟨rfl, h⟩

theorem lift (r : Except Fault α) : Action.InStep s (Action.lift r) (Action.lift r) :=
  fun _ _ h => .inl ⟨rfl, h⟩

theorem bind {x y : Action α} {f g : α → Action β} (h : Action.InStep s x y)
    (hf : ∀ a, Action.InStep s (f a) (g a)) : Action.InStep s (x >>= f) (y >>= g) :=
  fun e e' he => Lockstep.bind (h e e' he) fun a e₁ e₁' _ he₁ => hf a e₁ e₁' he₁

/-- A step that looks at the engine goes on in step if it looks at what looks the same. -/
theorem get_bind {f g : Engine → Action α}
    (h : ∀ e e', e.Like e' → Lockstep s (f e e) (g e' e')) :
    Action.InStep s (get >>= f) (get >>= g) := fun e e' he => by
  rw [bind_ok (get_apply e), bind_ok (get_apply e')]
  exact h e e' he

theorem modify {f : Engine → Engine} (h : ∀ e e', e.Like e' → (f e).Like (f e')) :
    Action.InStep s (modify f) (modify f) := fun e e' he => .inl ⟨rfl, h e e' he⟩

theorem eval {x y : Eval α} (h : Eval.InStep s x y) :
    Action.InStep s (Action.eval x) (Action.eval y) := by
  intro e e' he
  rw [Action.eval_apply, Action.eval_apply, he.world]
  rcases h e.world with h | ⟨hs, h⟩
  · rw [h]
    exact .inl ⟨rfl, { he with world := rfl }⟩
  · exact .inr ⟨hs, h⟩

theorem reflecting (x : Reflecting α) :
    Action.InStep s (Action.reflecting x) (Action.reflecting x) := by
  intro e e' he
  rw [Action.reflecting_apply, Action.reflecting_apply, he.reflected]
  exact .inl ⟨rfl, { he with reflected := rfl }⟩

theorem lookup {x : Lookup α} (h : Lookup.Respects Lookups.SameKnown x) :
    Action.InStep s (Action.lookup x) (Action.lookup x) := by
  intro e e' he
  obtain ⟨hresult, hknown⟩ := h e.lookups e'.lookups he.known
  rw [Action.lookup_apply, Action.lookup_apply, hresult]
  exact .inl ⟨rfl, { he with known := hknown }⟩

theorem note (logger name : String) (fields : Details) :
    Action.InStep s (Action.note logger name fields) (Action.note logger name fields) :=
  modify fun _ _ he => { he with known := he.known }

theorem forM {f g : α → Action PUnit} (h : ∀ a, Action.InStep s (f a) (g a)) (as : List α) :
    Action.InStep s (as.forM f) (as.forM g) := by
  induction as with
  | nil => exact pure _
  | cons a as ih => exact bind (h a) fun _ => ih

/-! ### Registering the types of nested values -/

theorem schema : Action.InStep s Action.schema Action.schema :=
  get_bind fun e e' he => .inl ⟨by rw [he.world]; rfl, he⟩

theorem numbered (rs : List Rule) : Action.InStep s (Action.numbered rs) (Action.numbered rs) := by
  refine get_bind fun e e' he => ?_
  rw [he.nextId]
  refine bind (modify fun e e' he => ?_) (fun _ => pure _) e e' he
  exact { he with nextId := rfl }

theorem declaredRules (t : TypeId) :
    Action.InStep s (Action.declaredRules t) (Action.declaredRules t) := by
  refine bind (bind schema fun _ => reflecting _) fun ms => ?_
  refine bind schema fun sch => bind (lift _) fun rs => ?_
  exact bind (numbered rs) fun rs => bind (note _ _ _) fun _ => pure rs

/-- Registering rules of a type that is not known. -/
theorem addRules {t : TypeId} (rs : List Rule) {e e' : Engine} (he : e.Like e')
    (hnew : e.registry.knows t = false) :
    Lockstep s (Action.addRules t rs true e) (Action.addRules t rs true e') :=
  .inl ⟨rfl, { he with known := he.known, registry := he.registry.register hnew rs }⟩

/-- Deriving the declared rules of a type registers nothing. -/
theorem declaredRules_registry (t : TypeId) (e : Engine) :
    (Action.declaredRules t e).2.registry = e.registry := by
  unfold Action.declaredRules
  rw [bind_apply]
  have hkept : (Action.members t e).2.registry = e.registry := rfl
  rcases hm : Action.members t e with ⟨f | ms, e₁⟩ <;> rw [hm] at hkept
  · exact hkept
  · show ((Action.lift (e₁.world.schema.declaredRules t ms) >>= fun rs => _ : Action _)
      e₁).2.registry = _
    rw [bind_apply, Action.lift_apply]
    cases e₁.world.schema.declaredRules t ms <;> exact hkept

theorem ensureWithin (n : Nat) (t : TypeId) :
    Action.InStep s (Action.ensureWithin n t) (Action.ensureWithin n t) := by
  induction n generalizing t with
  | zero => exact throw _
  | succ n ih =>
    refine get_bind fun e e' he => ?_
    rw [(he.registry.same t).known]
    cases hnew : e.registry.knows t with
    | true => exact pure _ e e' he
    | false =>
      refine Lockstep.bind (declaredRules t e e' he) fun rs e₁ e₁' hrun he₁ => ?_
      have hkept : e₁.registry = e.registry := by
        rw [← declaredRules_registry t e, hrun]
      refine Lockstep.bind (addRules rs he₁ (hkept ▸ hnew)) fun _ e₂ e₂' _ he₂ => ?_
      exact forM (fun u => ih u) _ e₂ e₂' he₂

theorem ensure (t : TypeId) : Action.InStep s (Action.ensure t) (Action.ensure t) :=
  bind schema fun _ => ensureWithin _ t

/-! ### Messages -/

theorem computedText (r : Option Rule) (object : Value) :
    Action.InStep s (Action.computedText r object) (Action.computedText r object) := by
  unfold Action.computedText
  split
  · refine bind (eval (Eval.InStep.refl _)) fun v => get_bind fun e e' he => ?_
    rw [he.world]
    exact bind (lift _) (fun _ => pure _) e e' he
  · exact pure _

theorem message (w : Message.Wanted) (object : Value) :
    Action.InStep s (Action.message w object) (Action.message w object) := by
  refine bind (computedText w.rule object) fun computed => get_bind fun e e' he => ?_
  rw [he.world, he.sources]
  refine lookup ?_ e e' he
  exact .firstText (fun _ _ _ h => Lookups.SameKnown.log h)
    (fun _ _ => Lookups.respects_find_sameKnown _ _ _ _) _ _

end Action.InStep

/-! ## 3. Validations -/

namespace Validation

/-- What a validation does to nested values, in step on the two sides. -/
abbrev Nested.InStep (s : Prop) (nested nested' : Value → TypeId → String → Finding) : Prop :=
  ∀ v t path, Action.InStep s (nested v t path) (nested' v t path)

theorem collect_inStep {f g : α → Finding} (h : ∀ a, Action.InStep s (f a) (g a)) (as : List α) :
    Action.InStep s (collect f as) (collect g as) := by
  induction as with
  | nil => exact .pure _
  | cons a as ih => exact .bind (h a) fun _ => .bind ih fun _ => .pure _

variable {d d' : Drive} {nested nested' : Value → TypeId → String → Finding}

theorem messageOf_inStep (r : Rule) (a : Attribute) (pos : Position) (own : Option String) :
    Action.InStep s (messageOf r a pos own) (messageOf r a pos own) := by
  unfold messageOf
  split
  · exact .pure _
  · exact .message _ _

theorem applyCheck_inStep (hd : d.Below s d') (r : Rule) (a : Attribute) (pos : Position)
    (v : Value) : Action.InStep s (applyCheck d r a pos v) (applyCheck d' r a pos v) := by
  refine .bind (.eval (.check hd v pos.owner a.check)) fun outcome => ?_
  split
  · exact .pure _
  · exact .bind (messageOf_inStep _ _ _ _) fun _ => .bind (.lift _) fun _ => .pure _

theorem applyRule_inStep (hd : d.Below s d') (hn : Nested.InStep s nested nested') (r : Rule)
    (a : Attribute) (pos : Position) (v : Value) :
    Action.InStep s (applyRule nested d r a pos v) (applyRule nested' d' r a pos v) := by
  unfold applyRule
  split
  · exact .pure _
  · exact .pure _
  · exact .pure _
  · exact hn _ _ _
  · exact .bind (.ensure _) fun _ => hn _ _ _
  · exact .bind (.ensure _) fun _ => hn _ _ _
  · exact applyCheck_inStep hd _ _ _ _

theorem visitRule_inStep (hd : d.Below s d') (hn : Nested.InStep s nested nested') (pos : Position)
    (v : Value) (r : Rule) :
    Action.InStep s (visitRule nested d pos v r) (visitRule nested' d' pos v r) := by
  unfold visitRule
  split
  · exact .pure _
  · refine .bind (.eval (.gate hd _ _)) fun isOpen => ?_
    split
    · exact .pure _
    · split
      · refine .get_bind fun e e' he => ?_
        rw [he.world]
        exact collect_inStep (fun p => applyRule_inStep hd hn _ _ _ _) _ e e' he
      · exact applyRule_inStep hd hn _ _ _ _

theorem provided_inStep (g : RuleGroup) (owner : Value) :
    Action.InStep s (provided g owner) (provided g owner) := by
  refine .bind (.eval (.refl _)) fun v => ?_
  split
  · exact .pure _
  · exact .bind (.eval (.refl _)) fun _ => .bind (.eval (.refl _)) fun _ => .pure _

theorem visitMember_inStep (hd : d.Below s d') (hn : Nested.InStep s nested nested')
    (owner : Value) (t : TypeId) (path : String) (g : RuleGroup) :
    Action.InStep s (visitMember nested d owner t path g)
      (visitMember nested' d' owner t path g) := by
  unfold visitMember
  split
  · exact .pure _
  · exact .bind (provided_inStep g owner) fun v =>
      collect_inStep (fun r => visitRule_inStep hd hn _ v r) _

theorem requireBuilt_inStep (t : TypeId) :
    Action.InStep s (requireBuilt t) (requireBuilt t) := by
  refine .get_bind fun e e' he => ?_
  rw [(he.registry.same t).known, (he.registry.same t).built]
  split
  · exact Action.InStep.throw _ e e' he
  · exact Action.InStep.pure _ e e' he

/-- The rules of a member are applied by value. -/
theorem visitMember_value (nested : Value → TypeId → String → Finding) (d : Drive) (owner : Value)
    (t : TypeId) (path : String) (g : RuleGroup) :
    visitMember nested d owner t path g.value = visitMember nested d owner t path g := by
  have hrules : ∀ pos v, collect (visitRule nested d pos v) g.value.rules =
      collect (visitRule nested d pos v) g.rules := fun pos v =>
    collect_map (visitRule nested d pos v) Rule.value g.rules
  have hprovided : provided g.value owner = provided g owner := by
    unfold provided RuleGroup.value
    rw [List.findSome?_map]
    rfl
  have hchecks : g.value.rules.any Rule.hasCheck = g.rules.any Rule.hasCheck := List.any_map
  unfold visitMember
  rw [hchecks, hprovided]
  simp only [hrules]
  rfl

/-- An object is validated by the rules of a type by value. -/
theorem collect_visitMember_shown (nested : Value → TypeId → String → Finding) (d : Drive)
    (owner : Value) (t : TypeId) (path : String) (reg : Registry) :
    collect (visitMember nested d owner t path) (reg.groupsOf t) =
      collect (visitMember nested d owner t path) (reg.shown t) := by
  rw [Registry.shown, collect_map]
  simp only [visitMember_value]

theorem visitObject_inStep (hd : d.Below s d') (depth : Nat) (owner : Value) (t : TypeId)
    (path : String) :
    Action.InStep s (visitObject d depth owner t path) (visitObject d' depth owner t path) := by
  induction depth generalizing owner t path with
  | zero => exact .throw _
  | succ depth ih =>
    refine .bind (requireBuilt_inStep t) fun _ => .get_bind fun e e' he => ?_
    rw [collect_visitMember_shown, collect_visitMember_shown, (he.registry.same t).rules]
    exact collect_inStep (fun g => visitMember_inStep hd ih owner t path g) _ e e' he

/-- **A validation under two drives**: up to the first pause that only the first drive gives up,
both find the same failures. -/
theorem run_inStep (hd : d.Below s d') (owner : Value) (t : TypeId) :
    Action.InStep s (run d owner t) (run d' owner t) :=
  .bind (visitObject_inStep hd _ _ _ _) fun _ => .bind (.note _ _ _) fun _ => .pure _

/-! ## 4. Validators -/

theorem rulesType_inStep (t : TypeId) (v : Value) :
    Action.InStep s (rulesType t v) (rulesType t v) := by
  unfold rulesType
  split
  · exact .throw _
  · refine .get_bind fun e e' he => ?_
    rw [he.world, (he.registry.same _).known]
    exact Action.InStep.pure _ e e' he

theorem validate_inStep (t : TypeId) (v : Value) :
    Action.InStep s (validate t v) (validate t v) := by
  refine .bind (rulesType_inStep t v) fun own => .get_bind fun e e' he => ?_
  rw [he.registry.waits]
  refine Action.InStep.bind (.lift _) (fun waits => ?_) e e' he
  split
  · exact .bind (.note _ _ _) fun _ => run_inStep (.refl s _) v own
  · exact run_inStep (.refl s _) v own

theorem validatePatiently_inStep (t : TypeId) (v : Value) (limit : Option Bool) :
    Action.InStep s (validatePatiently t v limit) (validatePatiently t v limit) := by
  refine .bind (rulesType_inStep t v) fun own => ?_
  split
  · exact run_inStep (.refl s _) v own
  · exact run_inStep (.refl s _) v own

/-- **Validations on engines that look the same** end the same. -/
theorem validate_of_like {e e' : Engine} (h : e.Like e') (t : TypeId) (v : Value) :
    (validate t v e').1 = (validate t v e).1 ∧
      ∀ limit, (validatePatiently t v limit e').1 = (validatePatiently t v limit e).1 := by
  exact ⟨(validate_inStep t v e e' h).fst_eq.symm,
    fun limit => (validatePatiently_inStep t v limit e e' h).fst_eq.symm⟩

end Validation
end MemberRules
