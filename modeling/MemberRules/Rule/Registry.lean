/-
# The registry of rules

The registry holds, for each type, the groups of rules of its members, in the order in which the
members first received one, and whether the rules of the type are complete. Within a group rules
stand in the order in which they were added, and no two have the same unique key: a rule with a key
that is present takes the place of the older one.

A member whose rules have all been removed keeps its place. A type is known as soon as it has
groups or has been marked, complete or not.
-/
import MemberRules.Rule.Basic

namespace MemberRules

/-- The rules of one member. -/
structure RuleGroup where
  member : MemberRef
  rules : List Rule
  deriving Inhabited

/-- The rules of all types. -/
structure Registry where
  /-- The groups of each type, in the order in which the types first received a rule. -/
  groups : List (TypeId × List RuleGroup) := []
  /-- The types that have been marked, and whether their rules are complete. -/
  marks : List (TypeId × Bool) := []
  deriving Inhabited

namespace RuleGroup

/-- Adds a rule, in the place of one with the same unique key if there is one. -/
def put (r : Rule) : List Rule → List Rule
  | [] => [r]
  | x :: xs => if x.uniqueKey == r.uniqueKey then r :: xs else x :: put r xs

/-- Changes the rules of the group of a member, or appends a group. -/
def update (m : MemberRef) (f : List Rule → List Rule) : List RuleGroup → List RuleGroup
  | [] => [⟨m, f []⟩]
  | g :: gs =>
    if g.member.key == m.key then { g with rules := f g.rules } :: gs else g :: update m f gs

end RuleGroup

/-- Changes the value under a key, or appends one made from a default. -/
def updateEntry [BEq κ] (k : κ) (default : α) (f : α → α) : List (κ × α) → List (κ × α)
  | [] => [(k, f default)]
  | e :: es => if e.1 == k then (e.1, f e.2) :: es else e :: updateEntry k default f es

namespace Registry

/-! ## 1. Look-ups -/

/-- The groups of a type, empty ones included. -/
def allGroups (reg : Registry) (t : TypeId) : List RuleGroup := (reg.groups.lookup t).getD []

/-- The groups of a type that hold a rule, in order. -/
def groupsOf (reg : Registry) (t : TypeId) : List RuleGroup :=
  (reg.allGroups t).filter fun g => !g.rules.isEmpty

/-- The rules of a type, group by group. -/
def rulesOf (reg : Registry) (t : TypeId) : List Rule := (reg.groupsOf t).flatMap RuleGroup.rules

/-- The rules of a member. -/
def rulesOfMember (reg : Registry) (t : TypeId) (k : MemberKey) : List Rule :=
  match (reg.allGroups t).find? fun g => g.member.key == k with
  | some g => g.rules
  | none => []

/-- Whether the rules of a type are complete. -/
def isBuilt (reg : Registry) (t : TypeId) : Bool := (reg.marks.lookup t).getD false

/-- Whether a type is known. -/
def knows (reg : Registry) (t : TypeId) : Bool :=
  (reg.marks.lookup t).isSome || (reg.groups.lookup t).isSome

/-- The types that have received a rule, in order. -/
def types (reg : Registry) : List TypeId := reg.groups.map Prod.fst

/-- The number of rules of all types. -/
def size (reg : Registry) : Nat :=
  (reg.groups.flatMap fun e => e.2.flatMap RuleGroup.rules).length

/-! ## 2. Changes -/

/-- Changes the groups of a type. -/
def updateGroups (reg : Registry) (t : TypeId) (f : List RuleGroup → List RuleGroup) : Registry :=
  { reg with groups := updateEntry t [] f reg.groups }

/-- Adds a rule to the group of its member. -/
def add (reg : Registry) (t : TypeId) (r : Rule) : Registry :=
  reg.updateGroups t (RuleGroup.update r.member (RuleGroup.put r))

/-- Marks the rules of a type as complete or not. -/
def mark (reg : Registry) (t : TypeId) (built : Bool := true) : Registry :=
  { reg with marks := updateEntry t built (fun _ => built) reg.marks }

/-- Adds rules in order. -/
def addAll (reg : Registry) (t : TypeId) (rs : List Rule) : Registry :=
  rs.foldl (fun reg r => reg.add t r) reg

/-- Replaces all rules of a member. -/
def setMember (reg : Registry) (t : TypeId) (m : MemberRef) (rs : List Rule) : Registry :=
  reg.updateGroups t fun gs =>
    (RuleGroup.update m (fun _ => rs) gs).map fun g =>
      if g.member.key == m.key then { g with member := m } else g

/-- The registry without the rules of a type that are `doomed`, those of one member if one is
given. -/
def removeWhere (reg : Registry) (t : TypeId) (member : Option MemberKey) (doomed : Rule → Bool) :
    Registry :=
  { reg with groups := reg.groups.map fun e =>
      if e.1 == t then
        (e.1, e.2.map fun g =>
          if member.all fun k => g.member.key == k then
            { g with rules := g.rules.filter fun r => !doomed r }
          else g)
      else e }

/-- The number of rules of a type that are `doomed`, those of one member if one is given. -/
def countWhere (reg : Registry) (t : TypeId) (member : Option MemberKey) (doomed : Rule → Bool) :
    Nat :=
  (((reg.allGroups t).filter fun g => member.all fun k => g.member.key == k).flatMap
    RuleGroup.rules).countP doomed

/-- The registry without a type. -/
def dropType (reg : Registry) (t : TypeId) : Registry :=
  { groups := reg.groups.filter fun e => e.1 != t
    marks := reg.marks.filter fun e => e.1 != t }

/-- The number of rules of a type, those of all groups. -/
def sizeOfType (reg : Registry) (t : TypeId) : Nat :=
  ((reg.allGroups t).flatMap RuleGroup.rules).length

/-- Replaces a rule wherever it is registered. -/
def amend (reg : Registry) (id : Nat) (f : Rule → Rule) : Registry :=
  { reg with groups := reg.groups.map fun e =>
      (e.1, e.2.map fun g =>
        { g with rules := g.rules.map fun r => if r.id == id then f r else r }) }

end Registry
end MemberRules
