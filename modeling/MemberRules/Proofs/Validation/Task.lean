/-
# A validation as tasks

A validation is a nest of four recursions: over objects, their members, the rules of a member, and
the elements that a rule is applied to.  This file takes it apart into tasks.  Performing a task
evaluates one thing, the value of a member, the gate of a rule or the check of a value, and leaves
tasks to be performed next, and failures.

If all types that can be reached are complete and no rule has a value provider, validating an object
is nothing but performing tasks, each before the ones that it leaves: the registry is only read.

* `Task.perform`: what performing one task does.
* `Performs`: what performing a task can come to, case by case.
* `traverse`: performing a task and then, in order, the ones that it leaves.
* `visitObject_alike_traverse`: validating an object is such a traversal.
-/
import MemberRules.Proofs.Registry.Contents
import MemberRules.Proofs.Validation.Registered

namespace MemberRules

open MemberRules.Computation

variable {reg : Registry} {t u : TypeId} {d : Drive}

/-! ## 1. Registries that need no changes -/

namespace Registry

/-- The rules of every type that a validation by the rules of a type can come to are complete. -/
def AllBuilt (reg : Registry) (t : TypeId) : Prop :=
  ∀ u, reg.Reaches t u → reg.isBuilt u = true

/-- No rule that a validation by the rules of a type can come to has a value provider. -/
def WithoutProviders (reg : Registry) (t : TypeId) : Prop :=
  ∀ u, reg.Reaches t u → ∀ r ∈ reg.rulesOf u, r.provider = none

theorem AllBuilt.of_reaches (h : reg.AllBuilt t) (hu : reg.Reaches t u) : reg.AllBuilt u :=
  fun v hv => h v (hu.trans hv)

theorem WithoutProviders.of_reaches (h : reg.WithoutProviders t) (hu : reg.Reaches t u) :
    reg.WithoutProviders u := fun v hv => h v (hu.trans hv)

/-- Types that are closed under nesting hold every type that one of them reaches. -/
theorem Reaches.mem {ts : List TypeId} (ht : t ∈ ts)
    (hclosed : ∀ u ∈ ts, ∀ r ∈ reg.rulesOf u, ∀ v, r.nestedType? = some v → v ∈ ts)
    (h : reg.Reaches t u) : u ∈ ts := by
  induction h with
  | refl => exact ht
  | step _ hr hv ih => exact hclosed _ ih _ hr _ hv

end Registry

namespace Validation

/-! ## 2. Tasks -/

/-- One thing that a validation has to do; `depth` bounds how far values below it are followed. -/
inductive Task
  /-- To validate an object by the rules of a type. -/
  | object (depth : Nat) (owner : Value) (t : TypeId) (path : String)
  /-- To apply the rules of a member. -/
  | member (depth : Nat) (owner : Value) (t : TypeId) (path : String) (g : RuleGroup)
  /-- To apply a rule to the value of its member, or to each element of it. -/
  | rule (depth : Nat) (pos : Position) (v : Value) (r : Rule)
  /-- To apply the check of a rule to a value. -/
  | value (depth : Nat) (pos : Position) (v : Value) (r : Rule) (a : Attribute)

namespace Task

/-- The values that a rule is applied to, with their places. -/
def targets (depth : Nat) (pos : Position) (v : Value) (r : Rule) (a : Attribute) (w : World) :
    List Task :=
  if r.forEach then
    (w.elements v).zipIdx.map fun (x, i) =>
      .value depth { pos with path := Path.element pos.path i } x r a
  else [.value depth pos v r a]

/-- The nested object that a check is about; nothing is done about a missing one. -/
def below (depth : Nat) (pos : Position) (u : TypeId) : Value → List Task
  | .none => []
  | v => [.object depth v u pos.path]

/-- Performs a task: the tasks that it leaves, in order, and the failures. -/
def perform (d : Drive) : Task → Action (List Task × List Failure)
  | .object 0 _ _ _ => throw .tooDeep
  | .object (depth + 1) owner t path => do
    return (((← get).registry.groupsOf t).map (.member depth owner t path), [])
  | .member depth owner t path g => do
    if !g.rules.any Rule.hasCheck then return ([], [])
    let v ← Action.eval (g.member.read owner)
    return (g.rules.map (.rule depth ⟨owner, t, Path.member path g.member.name⟩ v), [])
  | .rule depth pos v r => do
    match r.validator with
    | none => return ([], [])
    | some a =>
      if !(← Action.eval (r.gate.isOpen d pos.owner)) then return ([], [])
      return (targets depth pos v r a (← get).world, [])
  | .value depth pos v r a =>
    match a.check.nestedType? with
    | some u => return (below depth pos u v, [])
    | none => do return ([], ← applyCheck d r a pos v)

/-- A bound on how many tasks can stand below one another, from this one on. -/
def height : Task → Nat
  | .object depth .. => 4 * depth + 1
  | .member depth .. => 4 * depth + 4
  | .rule depth .. => 4 * depth + 3
  | .value depth .. => 4 * depth + 2

end Task

/-- Performs a task and then, in order, the tasks that it leaves; `fuel` bounds how many of them
stand below one another. -/
def traverse (d : Drive) : Nat → Task → Finding
  | 0, _ => throw .tooDeep
  | fuel + 1, task => do
    let (next, found) ← task.perform d
    return found ++ (← collect (traverse d fuel) next)

/-! ## 3. Validating is a traversal -/

variable {fuel depth : Nat}

/-- A traversal whose task leaves given tasks and no failures. -/
theorem traverse_of_perform {task : Task} {x : Action (List Task)}
    (h : task.perform d = (fun next => (next, [])) <$> x) :
    traverse d (fuel + 1) task = x >>= collect (traverse d fuel) := by
  simp [traverse, h]

theorem traverse_value_of_nested {pos : Position} {v : Value} {r : Rule} {a : Attribute}
    (hu : a.check.nestedType? = some u) :
    traverse d (fuel + 1) (.value depth pos v r a) =
      collect (traverse d fuel) (Task.below depth pos u v) := by
  simp [traverse, Task.perform, hu]

theorem traverse_value_of_leaf {pos : Position} {v : Value} {r : Rule} {a : Attribute}
    (hu : a.check.nestedType? = none) :
    traverse d (fuel + 1) (.value depth pos v r a) = applyCheck d r a pos v := by
  simp [traverse, Task.perform, hu, collect]

theorem traverse_below {pos : Position} {v : Value} (hv : v ≠ .none) :
    collect (traverse d fuel) (Task.below depth pos u v) =
      traverse d fuel (.object depth v u pos.path) := by
  have hbelow : Task.below depth pos u v = [.object depth v u pos.path] := by
    unfold Task.below
    split
    · exact absurd rfl hv
    · rfl
  rw [hbelow, collect_singleton]

/-- What a validation does to nested values is a traversal, where a rule leads to them. -/
abbrev Traversed (reg : Registry) (d : Drive) (fuel depth : Nat) (t : TypeId)
    (nested : Value → TypeId → String → Finding) : Prop :=
  ∀ r ∈ reg.rulesOf t, ∀ u, r.nestedType? = some u → ∀ v path,
    Action.Alike reg (nested v u path) (traverse d fuel (.object depth v u path))

variable {nested : Value → TypeId → String → Finding}

theorem applyRule_alike_traverse (hn : Traversed reg d fuel depth t nested)
    (hknown : ∀ u, reg.Reaches t u → reg.knows u = true) {r : Rule} (hr : r ∈ reg.rulesOf t)
    {a : Attribute} (ha : r.validator = some a) (pos : Position) (v : Value) :
    Action.Alike reg (applyRule nested d r a pos v)
      (traverse d (fuel + 1) (.value depth pos v r a)) := by
  have hc : r.check? = some a.check := by simp [Rule.check?, ha]
  have hleads : ∀ u, a.check.nestedType? = some u → r.nestedType? = some u := fun u hu => by
    simp [Rule.nestedType?, hc, hu]
  cases hu : a.check.nestedType? with
  | none =>
    rw [traverse_value_of_leaf hu]
    rw [applyRule_of_leaf hu]
    exact applyCheck_alike r rfl
  | some u =>
    rw [traverse_value_of_nested hu]
    by_cases hv : v = .none
    · subst hv
      rw [applyRule_missing hu]
      exact .pure _
    · rw [traverse_below hv]
      have hnested := hn r hr u (hleads u hu) v pos.path
      have hensured : Action.Alike reg (do Action.ensure u; nested v u pos.path)
          (nested v u pos.path) :=
        .trans (.bind (.ensure (hknown u (.step .refl hr (hleads u hu)))) fun _ => hnested)
          (by rw [pure_bind]; exact hnested.symm)
      rw [applyRule_of_nested hu hv]
      split
      · exact hensured.trans hnested
      · exact hnested

theorem visitRule_alike_traverse (hn : Traversed reg d fuel depth t nested)
    (hknown : ∀ u, reg.Reaches t u → reg.knows u = true) {r : Rule} (hr : r ∈ reg.rulesOf t)
    (pos : Position) (v : Value) :
    Action.Alike reg (visitRule nested d pos v r) (traverse d (fuel + 2) (.rule depth pos v r)) := by
  unfold visitRule
  cases ha : r.validator with
  | none =>
    rw [traverse_of_perform (x := pure []) (by simp [Task.perform, ha]), pure_bind]
    exact .pure _
  | some a =>
    have hperform : Task.perform d (.rule depth pos v r) = (fun next => (next, [])) <$> (do
        if !(← Action.eval (r.gate.isOpen d pos.owner)) then return []
        return Task.targets depth pos v r a (← get).world : Action (List Task)) := by
      simp only [Task.perform, ha, map_bind]
      refine bind_congr fun isOpen => ?_
      cases isOpen <;> simp
    rw [traverse_of_perform hperform, bind_assoc]
    refine .bind (.eval fun _ => rfl) fun isOpen => ?_
    cases isOpen with
    | false => exact .pure _
    | true =>
      simp only [Bool.not_true, Bool.false_eq_true, if_false, bind_assoc, pure_bind]
      unfold Task.targets
      split
      · refine .get_bind fun e he => ?_
        rw [collect_map]
        exact collect_alike (fun p _ => applyRule_alike_traverse hn hknown hr ha _ _) e he
      · intro e he
        rw [bind_ok (get_apply e), collect_singleton]
        exact applyRule_alike_traverse hn hknown hr ha pos v e he

theorem visitMember_alike_traverse (hn : Traversed reg d fuel depth t nested)
    (hknown : ∀ u, reg.Reaches t u → reg.knows u = true)
    (hprov : ∀ r ∈ reg.rulesOf t, r.provider = none) (owner : Value) (path : String)
    {g : RuleGroup} (hg : g ∈ reg.groupsOf t) :
    Action.Alike reg (visitMember nested d owner t path g)
      (traverse d (fuel + 3) (.member depth owner t path g)) := by
  have hrules : ∀ r ∈ g.rules, r ∈ reg.rulesOf t := fun r hr => Registry.mem_rulesOf hg hr
  unfold visitMember
  by_cases hcheck : g.rules.any Rule.hasCheck = true
  · have hperform : Task.perform d (.member depth owner t path g) =
        (fun next => (next, [])) <$> (do
          let v ← Action.eval (g.member.read owner)
          return g.rules.map (.rule depth ⟨owner, t, Path.member path g.member.name⟩ v) :
            Action (List Task)) := by
      simp [Task.perform, hcheck]
    have hread : provided g owner = Action.eval (g.member.read owner) := by
      have hnone : g.rules.findSome? Rule.provider = none :=
        List.findSome?_eq_none_iff.mpr fun r hr => hprov r (hrules r hr)
      simp [provided, hnone]
    rw [traverse_of_perform hperform, bind_assoc, hread]
    simp only [hcheck, Bool.not_true, Bool.false_eq_true, if_false]
    refine .bind (.eval fun _ => rfl) fun v => ?_
    rw [pure_bind, collect_map]
    exact collect_alike fun r hr => visitRule_alike_traverse hn hknown (hrules r hr) _ v
  · have hperform : Task.perform d (.member depth owner t path g) =
        (fun next => (next, [])) <$> (pure [] : Action (List Task)) := by
      simp [Task.perform, hcheck]
    rw [traverse_of_perform hperform, pure_bind]
    simp only [hcheck]
    exact .pure _

theorem requireBuilt_of_isBuilt (h : reg.isBuilt t = true) :
    Action.Alike reg (requireBuilt t) (pure ()) := by
  intro e he
  have hdone : requireBuilt t e = (.ok (), e) := by
    show (do
      let reg := (← (get : Action Engine)).registry
      if reg.knows t && !reg.isBuilt t then throw _ : Action Unit) e = _
    rw [bind_ok (get_apply e), he]
    simp [h]
    rfl
  rw [hdone]
  exact ⟨rfl, he⟩

/-- **Validating an object is performing tasks** from that object on, if all types are complete
and no rule has a value provider. -/
theorem visitObject_alike_traverse (hbuilt : reg.AllBuilt t) (hprov : reg.WithoutProviders t)
    (depth : Nat) (owner : Value) (path : String) :
    Action.Alike reg (visitObject d depth owner t path)
      (traverse d (4 * depth + 1) (.object depth owner t path)) := by
  induction depth generalizing t owner path with
  | zero => exact .throw _
  | succ depth ih =>
    have hn : Traversed reg d (4 * depth + 1) depth t (visitObject d depth) :=
      fun r hr u hu v path =>
        have hreach : reg.Reaches t u := .step .refl hr hu
        ih (hbuilt.of_reaches hreach) (hprov.of_reaches hreach) v path
    have hknown : ∀ u, reg.Reaches t u → reg.knows u = true := fun u hu =>
      Registry.knows_of_isBuilt (hbuilt u hu)
    have hperform : Task.perform d (.object (depth + 1) owner t path) =
        (fun next => (next, [])) <$> (do
          return ((← get).registry.groupsOf t).map (.member depth owner t path) :
            Action (List Task)) := by
      simp [Task.perform]
    rw [show 4 * (depth + 1) + 1 = (4 * depth + 1) + 3 + 1 by omega, traverse_of_perform hperform,
      bind_assoc]
    have hmembers : Action.Alike reg
        (get >>= fun e => collect (visitMember (visitObject d depth) d owner t path)
          (e.registry.groupsOf t))
        (get >>= fun e => collect (traverse d (4 * depth + 1 + 3))
          ((e.registry.groupsOf t).map (.member depth owner t path))) := by
      refine .get_bind fun e he => ?_
      subst he
      rw [collect_map]
      exact collect_alike (fun g hg =>
        visitMember_alike_traverse hn hknown (hprov t .refl) owner path hg) e rfl
    have hall := Action.Alike.bind (requireBuilt_of_isBuilt (hbuilt t .refl)) fun _ => hmembers
    rw [pure_bind] at hall
    simp only [pure_bind]
    exact hall

/-! ## 4. Performing one task -/

/-- Performing a task only reads the registry. -/
theorem Task.perform_alike (task : Task) : Action.Alike reg (task.perform d) (task.perform d) := by
  cases task with
  | object depth owner t path =>
    cases depth with
    | zero => exact .throw _
    | succ depth => exact .get_bind fun e he => ⟨rfl, he⟩
  | member depth owner t path g =>
    simp only [Task.perform]
    split
    · exact .pure _
    · exact .bind (.eval fun _ => rfl) fun _ => .pure _
  | rule depth pos v r =>
    simp only [Task.perform]
    split
    · exact .pure _
    · refine .bind (.eval fun _ => rfl) fun isOpen => ?_
      split
      · exact .pure _
      · exact .get_bind fun e he => ⟨rfl, he⟩
  | value depth pos v r a =>
    simp only [Task.perform]
    split
    · exact .pure _
    · exact .bind (applyCheck_alike r rfl) fun _ => .pure _

/-- What performing a task in one engine, which leaves another one, can come to: the tasks that it
leaves and the failures that it finds. -/
inductive Performs (d : Drive) (e e' : Engine) : Task → List Task → List Failure → Prop
  | object {depth : Nat} {owner : Value} {t : TypeId} {path : String} :
      Performs d e e' (.object (depth + 1) owner t path)
        ((e.registry.groupsOf t).map (.member depth owner t path)) []
  /-- A member without checks is not read. -/
  | unchecked {depth : Nat} {owner : Value} {t : TypeId} {path : String} {g : RuleGroup} :
      g.rules.any Rule.hasCheck = false → Performs d e e' (.member depth owner t path g) [] []
  | member {depth : Nat} {owner v : Value} {t : TypeId} {path : String} {g : RuleGroup} :
      g.rules.any Rule.hasCheck = true → (g.member.read owner e.world).1 = .ok v →
      Performs d e e' (.member depth owner t path g)
        (g.rules.map (.rule depth ⟨owner, t, Path.member path g.member.name⟩ v)) []
  /-- A rule without a check. -/
  | carrier {depth : Nat} {pos : Position} {v : Value} {r : Rule} :
      r.validator = none → Performs d e e' (.rule depth pos v r) [] []
  | closed {depth : Nat} {pos : Position} {v : Value} {r : Rule} {a : Attribute} :
      r.validator = some a → (r.gate.isOpen d pos.owner e.world).1 = .ok false →
      Performs d e e' (.rule depth pos v r) [] []
  | opened {depth : Nat} {pos : Position} {v : Value} {r : Rule} {a : Attribute} :
      r.validator = some a → (r.gate.isOpen d pos.owner e.world).1 = .ok true →
      Performs d e e' (.rule depth pos v r) (Task.targets depth pos v r a e'.world) []
  | nested {depth : Nat} {pos : Position} {v : Value} {r : Rule} {a : Attribute} {u : TypeId} :
      a.check.nestedType? = some u →
      Performs d e e' (.value depth pos v r a) (Task.below depth pos u v) []
  | passed {depth : Nat} {pos : Position} {v : Value} {r : Rule} {a : Attribute}
      {outcome : Outcome} : a.check.nestedType? = none →
      (a.check.runWith d v pos.owner e.world).1 = .ok outcome → outcome.passed = true →
      Performs d e e' (.value depth pos v r a) [] []
  | rejected {depth : Nat} {pos : Position} {v : Value} {r : Rule} {a : Attribute}
      {outcome : Outcome} {message : String} {f : Failure} : a.check.nestedType? = none →
      (a.check.runWith d v pos.owner e.world).1 = .ok outcome → outcome.passed = false →
      failure r a.check pos.path message v = .ok f →
      Performs d e e' (.value depth pos v r a) [] [f]

theorem eval_eq_ok {α : Type} {x : Eval α} {a : α} {e e' : Engine}
    (h : Action.eval x e = (.ok a, e')) : (x e.world).1 = .ok a := congrArg Prod.fst h

/-- **Performing a task comes to nothing else.** -/
theorem performs_of_perform {task : Task} {next : List Task} {found : List Failure} {e e' : Engine}
    (h : task.perform d e = (.ok (next, found), e')) : Performs d e e' task next found := by
  cases task with
  | object depth owner t path =>
    cases depth with
    | zero => cases h
    | succ depth =>
      cases h
      exact .object
  | member depth owner t path g =>
    simp only [Task.perform] at h
    cases hcheck : g.rules.any Rule.hasCheck with
    | false =>
      rw [hcheck] at h
      cases h
      exact .unchecked hcheck
    | true =>
      rw [hcheck] at h
      obtain ⟨v, e₁, hread, h⟩ := bind_eq_ok.mp h
      cases h
      exact .member hcheck (eval_eq_ok hread)
  | rule depth pos v r =>
    simp only [Task.perform] at h
    cases ha : r.validator with
    | none =>
      rw [ha] at h
      cases h
      exact .carrier ha
    | some a =>
      rw [ha] at h
      obtain ⟨isOpen, e₁, hgate, h⟩ := bind_eq_ok.mp h
      cases isOpen with
      | false =>
        cases h
        exact .closed ha (eval_eq_ok hgate)
      | true =>
        cases h
        exact .opened ha (eval_eq_ok hgate)
  | value depth pos v r a =>
    simp only [Task.perform] at h
    cases hu : a.check.nestedType? with
    | some u =>
      rw [hu] at h
      cases h
      exact .nested hu
    | none =>
      rw [hu] at h
      obtain ⟨fs, e₁, hcheck, h⟩ := bind_eq_ok.mp h
      cases h
      obtain ⟨outcome, e₂, hrun, hcheck⟩ := bind_eq_ok.mp hcheck
      cases hpassed : outcome.passed with
      | true =>
        rw [hpassed, if_pos rfl] at hcheck
        cases hcheck
        exact .passed hu (eval_eq_ok hrun) hpassed
      | false =>
        rw [hpassed] at hcheck
        obtain ⟨message, e₃, -, hcheck⟩ := bind_eq_ok.mp hcheck
        obtain ⟨f, e₄, hf, hcheck⟩ := bind_eq_ok.mp hcheck
        cases hcheck
        exact .rejected hu (eval_eq_ok hrun) hpassed (congrArg Prod.fst hf)

end Validation
end MemberRules
