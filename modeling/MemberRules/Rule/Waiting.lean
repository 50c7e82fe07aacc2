/-
# Rules that may wait

A rule may wait if its gate does or its check does. A check that carries the rules of a type may
wait if one of these may. A type may wait if one of its rules may, or a rule of a type that it
applies to nested values; the search visits every such type once.

A type that carries its own rules, however indirectly, has no answer: deciding whether it may wait
would need the answer itself. `Registry.waits` reports this as `tooDeep`, unless a rule that may
wait was found before.
-/
import MemberRules.Rule.Registry

namespace MemberRules

/-- Whether a check may have to wait; `carried` answers for the type whose rules a check carries. -/
def Check.waits (carried : TypeId → Except Fault Bool) : Check → Except Fault Bool
  | .mustAsync _ => .ok true
  | .custom _ _ _ isAsync _ => .ok isAsync
  | .childRules t => carried t
  | _ => .ok false

/-- Whether a rule may have to wait. -/
def Rule.waits (carried : TypeId → Except Fault Bool) (r : Rule) : Except Fault Bool :=
  if r.gate.asyncCondition.isSome then .ok true
  else match r.check? with
    | some c => c.waits carried
    | none => .ok false

namespace Registry

/-- The answer of a search so far, and the types that it has visited. -/
abbrev Visit := Except Fault (Bool × List TypeId)

/-- Searches rules in order for one that may wait, and after each rule the type that it applies to
nested values. -/
def searchRules (carried : TypeId → Except Fault Bool) (nested : TypeId → List TypeId → Visit) :
    List Rule → List TypeId → Visit
  | [], seen => .ok (false, seen)
  | r :: rs, seen => do
    if ← r.waits carried then return (true, seen)
    let (found, seen) ← match r.check?.bind Check.nestedModel? with
      | some t => nested t seen
      | none => .ok (false, seen)
    if found then return (true, seen) else searchRules carried nested rs seen

/-- Searches the rules of a type and of the types it applies to nested values. `asked` lists the
types whose answer is being worked out. -/
def searchType (reg : Registry) : Nat → List TypeId → TypeId → List TypeId → Visit
  | 0, _, _, _ => .error .tooDeep
  | fuel + 1, asked, t, seen =>
    if seen.contains t then .ok (false, seen)
    else
      searchRules
        (fun u =>
          if asked.contains u then .error .tooDeep
          else (searchType reg fuel (u :: asked) u []).map Prod.fst)
        (searchType reg fuel asked) (reg.rulesOf t) (t :: seen)

/-- A bound on the depth of a search: each type is asked for once, and visited once for each. -/
def searchDepth (reg : Registry) : Nat := (reg.types.length + 2) * (reg.types.length + 2)

/-- Whether a type may have to wait. -/
def waits (reg : Registry) (t : TypeId) : Except Fault Bool :=
  (reg.searchType reg.searchDepth [t] t []).map Prod.fst

/-- Whether a rule may have to wait, with the rules of other types taken from the registry. -/
def ruleWaits (reg : Registry) (r : Rule) : Except Fault Bool := r.waits reg.waits

end Registry
end MemberRules
