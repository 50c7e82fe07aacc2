/-
# Expressions

Predicates, conditions, computed members, computed messages and value providers are expressions
over a subject, the object that owns it and the name of the member. An expression reads attributes,
compares and combines values, leaves a mark in the trace or fails with a text of its own.

A predicate that may have to wait is an expression with a `Pause` before it.
-/
import MemberRules.Value.Document

namespace MemberRules

/-- An expression. -/
inductive Expr
  /-- The value that is looked at. -/
  | subject
  /-- The object that the value belongs to. -/
  | owner
  /-- The name of the member that the value belongs to. -/
  | memberName
  /-- A constant, which is read anew each time. -/
  | const (d : Document)
  | get (e : Expr) (name : String)
  | compare (c : Comparator) (a b : Expr)
  /-- Whether both hold; the second one is not looked at if the first one fails. -/
  | both (a b : Expr)
  /-- Whether one of them holds; the second one is not looked at if the first one does. -/
  | oneOf (a b : Expr)
  | negate (e : Expr)
  | isNone (e : Expr)
  | size (e : Expr)
  | add (a b : Expr)
  | mul (a b : Expr)
  | strip (e : Expr)
  | upper (e : Expr)
  | choose (test yes no : Expr)
  | trace (label : String) (e : Expr)
  | raise (text : String)
  deriving Inhabited

/-- How long a predicate waits before it answers. -/
inductive Pause
  | none | once | forever
  deriving DecidableEq, Repr, Inhabited

/-- A predicate that may have to wait. -/
structure AsyncPredicate where
  pause : Pause
  body : Expr
  deriving Inhabited

end MemberRules
