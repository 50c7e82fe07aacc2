/-
# Conditions

A condition is a predicate over an object, or is composed of conditions: all of them hold, or one
does not. Conditions that may wait are composed the same way, also with ones that do not; the outer
condition is asked first, and the inner one only if it holds.
-/
import MemberRules.Model.Evaluation

namespace MemberRules

/-- A condition that answers at once. -/
inductive Condition
  | test (e : Expr)
  /-- Holds of no object. -/
  | never
  | both (a b : Condition)
  | negate (c : Condition)
  deriving Inhabited

namespace Condition

/-- The answer of a condition, as the predicate gives it. -/
def eval (object : Value) : Condition → Eval Value
  | test e => e.eval (.of object)
  | never => return .bool false
  | both a b => do
    if (← a.eval object).truthy then return .bool (← b.eval object).truthy
    else return .bool false
  | negate c => do return .bool (!(← c.eval object).truthy)

/-- Whether a condition holds of an object. -/
def holds (c : Condition) (object : Value) : Eval Bool := do
  return (← c.eval object).truthy

/-- The condition that all of the given ones hold; those that are missing are left out, and `none`
remains if all are. -/
def allOf (cs : List (Option Condition)) : Option Condition :=
  match (cs.filterMap id).reverse with
  | [] => none
  | last :: before => some (before.foldl (fun acc c => both c acc) last)

end Condition

/-- A condition that may wait. -/
inductive AsyncCondition
  | test (p : AsyncPredicate)
  /-- A condition that answers at once. -/
  | plain (c : Condition)
  /-- Holds of every object. -/
  | always
  | both (outer inner : AsyncCondition)
  | negate (c : AsyncCondition)
  deriving Inhabited

namespace AsyncCondition

/-- The answer of a condition that may wait. -/
def eval (d : Drive) (object : Value) : AsyncCondition → Eval Value
  | test p => p.eval d (.of object)
  | plain c => c.eval object
  | always => return .bool true
  | both outer inner => do
    if (← outer.eval d object).truthy then return .bool (← inner.eval d object).truthy
    else return .bool false
  | negate c => do return .bool (!(← c.eval d object).truthy)

/-- Whether a condition that may wait holds of an object. -/
def holds (d : Drive) (c : AsyncCondition) (object : Value) : Eval Bool := do
  return (← c.eval d object).truthy

/-- A condition in the place of one that may wait; a missing one always holds. -/
def ofCondition? : Option Condition → AsyncCondition
  | some c => plain c
  | none => always

end AsyncCondition

/-! ## Gates -/

/-- A predicate that a gate is given. -/
inductive Guard
  | plain (c : Condition)
  | async (c : AsyncCondition)
  deriving Inhabited

/-- The guard that holds where this one does not. -/
def Guard.negate : Guard → Guard
  | plain c => plain c.negate
  | async c => async c.negate

/-- What decides whether a rule applies: a condition, a condition that may wait, or nothing. The one
that may wait replaces the other. -/
structure Gate where
  condition : Option Condition := none
  asyncCondition : Option AsyncCondition := none
  deriving Inhabited

namespace Gate

/-- Whether the gate is open for an object. -/
def isOpen (d : Drive) (g : Gate) (object : Value) : Eval Bool :=
  match g.asyncCondition, g.condition with
  | some c, _ => c.holds d object
  | none, some c => c.holds object
  | none, none => return true

/-- The gate with a guard in front of it. -/
def guarded (g : Gate) : Guard → Gate
  | .async c =>
    let inner := match g.asyncCondition with
      | some a => a
      | none => .ofCondition? g.condition
    { g with asyncCondition := some (.both c inner) }
  | .plain c =>
    { condition := Condition.allOf [some c, g.condition]
      asyncCondition := g.asyncCondition.map fun a => .both (.plain c) a }

end Gate
end MemberRules
