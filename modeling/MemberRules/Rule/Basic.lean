/-
# Rules

A rule binds one check to one member, together with its gate and everything that its message may
come from. A rule without a check is a carrier: it holds a condition, a value provider, or the
place of a member.

Rules are told apart by their unique keys: a rule that comes from a declaration has the same key
each time it is derived, and every other rule a key that no other one has.
-/
import MemberRules.Attribute.Run
import MemberRules.Model.Member
import MemberRules.Rule.Condition

namespace MemberRules

/-- Where a rule comes from. -/
inductive RuleSource
  /-- Declared as an attribute. -/
  | declared
  /-- Added by a builder. -/
  | built
  /-- Without a check. -/
  | carrier
  deriving DecidableEq, Repr, Inhabited

/-- The word for a source. -/
def RuleSource.name : RuleSource → String
  | declared => "annotation"
  | built => "fluent"
  | carrier => "carrier"

/-- The key that tells a rule apart. -/
inductive UniqueKey
  | named (text : String)
  /-- A key with a token of its own, for a kind of check and a member. -/
  | fresh (kind : String) (token : Nat) (owner : TypeId) (member : String)
  /-- A key that is nothing but a token. -/
  | anonymous (token : Nat)
  deriving DecidableEq, Repr, Inhabited

namespace UniqueKey

/-- A kind and a token, and the member of a type. -/
def compose (kind token : String) (owner : TypeId) (member : String) : String :=
  "[" ++ kind ++ ":" ++ token ++ "]" ++ owner.qualifiedName ++ "." ++ member

/-- The key of a declared rule: the same for the same attribute at the same place. -/
def ofDeclaration (kind : String) (ordinal : Nat) (owner : TypeId) (member : String) : UniqueKey :=
  named (compose kind (Number.natText ordinal) owner member)

/-- The key as a text; tokens that differ from run to run are shown as a mark. -/
def text : UniqueKey → String
  | named s => s
  | fresh kind _ owner member => compose kind "#" owner member
  | anonymous _ => "#"

end UniqueKey

/-- The message of a rule: a template, or an expression over the owning object. -/
inductive MessageSource
  | template (s : String)
  | computed (e : Expr)
  deriving Inhabited

/-- A rule. -/
structure Rule where
  /-- The identity under which later changes reach the rule. -/
  id : Nat
  member : MemberRef
  validator : Option Attribute := none
  gate : Gate := {}
  message : Option MessageSource := none
  /-- The code that failures carry in place of the one of the check. -/
  errorKey : Option String := none
  resourceKey : Option String := none
  resource : Option String := none
  fallback : Option String := none
  culture : Option Culture := none
  /-- Whether the message may come from a resource string named after the member and the check. -/
  conventionalKeys : Bool := true
  propertyName : Option String := none
  uniqueKey : UniqueKey
  source : RuleSource := .built
  forEach : Bool := false
  /-- An expression that replaces the value of the member before it is checked. -/
  provider : Option Expr := none
  deriving Inhabited

namespace Rule

/-- Whether the rule checks something. -/
def hasCheck (r : Rule) : Bool := r.validator.isSome

/-- The check of a rule. -/
def check? (r : Rule) : Option Check := r.validator.map Attribute.check

/-- The name that messages use for the member. -/
def displayName (r : Rule) : String :=
  match r.propertyName with
  | some n => if n.isEmpty then r.member.name else n
  | none => r.member.name

/-- Whether the check of a rule is of a kind. -/
def checkIsOfKind (r : Rule) (kind : String) : Bool :=
  match r.check? with
  | some c => c.isOfKind kind
  | none => false

/-- A rule in one line. -/
def text (r : Rule) : String :=
  let kind := match r.check? with
    | some c => c.shortName
    | none => "carrier"
  "ValidationRule(" ++ r.member.text ++ ", " ++ kind ++ ", key=" ++ Text.quote r.uniqueKey.text ++ ")"

end Rule
end MemberRules
