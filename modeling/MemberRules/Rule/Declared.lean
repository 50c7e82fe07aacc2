/-
# Declared rules

Every attribute of a member makes a rule. Its key is made of the kind of the attribute, its place
among the attributes of the member, the type and the name of the member, so deriving the rules of a
type again gives the same keys. A type that asks for a rule on every member gets a rule without a
check, an anchor, for each member without attributes.

A comparison must name a member of the type.
-/
import MemberRules.Model.Reflection
import MemberRules.Rule.Basic

namespace MemberRules

/-- Refuses a comparison with something that is no member of the type. -/
def Check.requireResolvable (s : Schema) (t : TypeId) : Check → Except Fault Unit
  | .compare other _ =>
    if s.hasMember t other then .ok ()
    else
      .error (.configuration (AppError.invalidRule
        ("Property '" ++ other ++ "' not found on type '" ++ t.name ++ "'.")
        [("member", .text other)]))
  | _ => .ok ()

namespace MemberInfo

/-- The rule that holds the place of a member without attributes. -/
def anchor (t : TypeId) (m : MemberInfo) : Rule :=
  { id := 0
    member := m.member
    propertyName := some m.displayName
    uniqueKey := .ofDeclaration "Anchor" 0 t m.member.name
    source := .carrier }

/-- The rule of the attribute at a place among those of the member. -/
def declaredRule (t : TypeId) (m : MemberInfo) (a : Attribute) (ordinal : Nat) : Rule :=
  { id := 0
    member := m.member
    validator := some a
    propertyName := some m.displayName
    uniqueKey := .ofDeclaration a.check.kind ordinal t m.member.name
    source := .declared
    forEach := a.check.appliesToEach }

/-- The rules of a member. -/
def declaredRules (s : Schema) (t : TypeId) (m : MemberInfo) : Except Fault (List Rule) :=
  if m.attributes.isEmpty then .ok (if s.isValidatable t then [m.anchor t] else [])
  else
    m.attributes.zipIdx.mapM fun (a, ordinal) => do
      a.check.requireResolvable s t
      return m.declaredRule t a ordinal

end MemberInfo

/-- The rules of a type with the given members, without identities. -/
def Schema.declaredRules (s : Schema) (t : TypeId) (ms : List MemberInfo) :
    Except Fault (List Rule) :=
  (ms.mapM (MemberInfo.declaredRules s t)).map List.flatten

/-- Rules with consecutive identities. -/
def Rule.numbered (first : Nat) (rs : List Rule) : List Rule :=
  (rs.zipIdx first).map fun (r, id) => { r with id }

end MemberRules
