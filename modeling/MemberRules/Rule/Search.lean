/-
# Searching and changing registered rules

Rules are found by type, by member and by an expression over what they say of themselves. A
selector that selects nothing finds no rules; only asking for a rule that must be there fails.
-/
import MemberRules.Engine.Basic

namespace MemberRules

/-- A text, or nothing. -/
def Value.ofText? : Option String → Value
  | some s => .text s
  | Option.none => .none

/-- What an expression can read of a rule. -/
def Rule.fields (r : Rule) : Details :=
  [("member", .text r.member.name), ("check", .ofText? (r.check?.map Check.shortName)),
    ("source", .text r.source.name), ("for_each", .bool r.forEach),
    ("key", .ofText? r.errorKey)]

/-- The value that stands for a rule in an expression. -/
def Rule.subject : Value := .method .none "rule"

/-- Reads a field of the rule that an expression is about, or a member of another value. -/
def Rule.readField (r : Rule) (v : Value) (name : String) : Eval Value :=
  match v with
  | .method .none _ =>
    match r.fields.lookup name with
    | some v => return v
    | none => Eval.fail .noAttribute
  | v => World.read v name

/-- Whether an expression holds of a rule. -/
def Rule.satisfies (wanted : Option Expr) (r : Rule) : Eval Bool :=
  match wanted with
  | none => return true
  | some e => do return (← e.evalWith r.readField (.of Rule.subject)).truthy

/-- A selector as a text. -/
def Selector.text : Selector → Except Fault String
  | .name s => .ok s
  | .value v => v.printed?
  | s => s.shown

namespace Action

/-- The member that a selector selects, `none` if it selects nothing. -/
def select? (t : TypeId) (sel : Selector) : Action (Option MemberRef) := do
  let w := (← get).world
  match w.schema.select t (sel.captured w) with
  | .ok m => return some m
  | .error (.configuration _) => return none
  | .error e => throw e

/-- The rules of a member. -/
def rulesAt (t : TypeId) (sel : Selector) : Action (List Rule) := do
  match ← select? t sel with
  | some m => return (← get).registry.rulesOfMember t m.key
  | none => return []

/-- The rules of a type, or of a member, of which an expression holds. -/
def findRules (t : TypeId) (sel : Option Selector) (wanted : Option Expr) : Action (List Rule) := do
  let rs ← match Selector.given? sel with
    | some sel => rulesAt t sel
    | none => pure ((← get).registry.rulesOf t)
  eval (rs.filterM (Rule.satisfies wanted))

/-- The first rule of a member, which must have one. -/
def requireRule (t : TypeId) (sel : Selector) : Action Rule := do
  match (← rulesAt t sel).head? with
  | some r => return r
  | none =>
    let name ← match ← select? t sel with
      | some m => pure m.name
      | none => lift (sel.captured (← get).world).text
    throw (.configuration (AppError.missingRule t name))

/-- Removes the rules of a group of which an expression holds and whose check is of a kind. -/
def removeFromGroup (t : TypeId) (k : MemberKey) (kind : Option String) (wanted : Option Expr) :
    Action Nat := do
  let rs := ((← get).registry.rulesOfMember t k).filter fun r => kind.all r.checkIsOfKind
  let ids := (← eval (rs.filterM (Rule.satisfies wanted))).map Rule.id
  updateRegistry fun reg => reg.removeWhere t (some k) fun r => ids.contains r.id
  return ids.length

/-- Removes the rules of a type, or of a member, of which an expression holds and whose check is of
a kind. -/
def removeMatching (t : TypeId) (sel : Option Selector) (kind : Option String)
    (wanted : Option Expr) : Action Nat := do
  let member ← (Selector.given? sel).mapM (select t)
  let groups := (← get).registry.allGroups t
  let keys := match member with
    | some m => [m.key]
    | none => groups.map fun (g : RuleGroup) => g.member.key
  let counts ← keys.mapM fun k => removeFromGroup t k kind wanted
  let removed := counts.foldl Nat.add 0
  noteRemoved t member removed
  return removed

/-- Forgets a type and gives the number of its rules. -/
def forget (t : TypeId) : Action Nat := do
  let count := (← get).registry.sizeOfType t
  updateRegistry fun reg => reg.dropType t
  return count

/-- Adds strings to a catalog and gives it in one line. -/
def addStrings (resource : String) (culture : Option String) (strings : List (String × String)) :
    Action String := do
  match (← get).resources.lookup resource with
  | some (.catalog c) =>
    let c ← lift (c.addNamed culture strings)
    modify fun e => { e with resources := e.resources.map fun r =>
      if r.1 == resource then (r.1, .catalog c) else r }
    return c.text
  | _ => throw .noAttribute

/-- A step under a culture of the surroundings. -/
def within (culture : Option Culture) (x : Action α) : Action α := do
  let before := (← get).ambient
  modify fun e => { e with ambient := culture }
  fun e =>
    let (r, e) := x e
    (r, { e with ambient := before })

end Action
end MemberRules
