/-
# Where a message comes from

The message of a failed rule comes from the first of seven origins that gives a text: the message
of the rule, the resource string that the rule names, the one that the attribute names, the one
under the conventional key, the fallback of the rule, the template of the attribute, and a general
text. A resource string that is missing or does not fit its arguments gives none.

The conventional key is made of the member and the kind of the check unless the options name
another one.
-/
import MemberRules.Message.Basic
import MemberRules.Options
import MemberRules.Resource.Lookup
import MemberRules.Rule.Basic

namespace MemberRules
namespace Message

/-- What a message is looked up in. -/
structure Sources where
  schema : Schema
  resources : Resources
  options : Options
  /-- The culture of the surroundings. -/
  ambient : Option Culture
  deriving Inhabited

/-- What a message is wanted for. -/
structure Wanted where
  type : TypeId
  member : String
  validator : Option Attribute
  rule : Option Rule := none
  /-- The name to use for the member. -/
  display : Option String := none
  deriving Inhabited

namespace Wanted

/-- The name that the message uses for the member. -/
def name (w : Wanted) : String :=
  match w.display.filter fun d => !d.isEmpty with
  | some d => d
  | none => match w.rule with
    | some r => r.displayName
    | none => w.member

/-- The arguments of the message after the name. -/
def args (w : Wanted) : List Value :=
  match w.validator with
  | some a => a.check.args
  | none => []

/-- The name and the arguments. -/
def allArgs (w : Wanted) : List Value := .text w.name :: w.args

end Wanted

/-- Where a message can come from. -/
inductive Origin
  /-- The message of the rule. -/
  | own
  /-- The resource string that the rule names. -/
  | ruleResource
  /-- The resource string that the attribute names. -/
  | attributeResource
  /-- The resource string under the conventional key. -/
  | conventional
  /-- The fallback of the rule, taken as it is. -/
  | fallback
  /-- The template of the attribute. -/
  | template
  /-- A text that fits every member. -/
  | general
  deriving DecidableEq, Repr, Inhabited

/-- The origins in the order in which they are tried. -/
def Origin.all : List Origin :=
  [own, ruleResource, attributeResource, conventional, fallback, template, general]

/-! ## 1. Parts -/

/-- Whether a fault says that a template does not fit its arguments. -/
def isMisfit : Fault → Bool
  | .noIndex | .noKey | .badValue | .noAttribute => true
  | _ => false

/-- A filled-in template, `none` if it does not fit its arguments. -/
def fillIfFits (template : String) (culture : Option Culture) (args : List Value) :
    Except Fault (Option String) :=
  match fill template culture args with
  | .ok s => .ok (some s)
  | .error e => if isMisfit e then .ok none else .error e

/-- A filled-in template; one that does not fit is tried with the name alone, and then taken as it
is. -/
def fillOrKeep (template : String) (culture : Option Culture) (w : Wanted) : Except Fault String := do
  match ← fillIfFits template culture w.allArgs with
  | some s => return s
  | none =>
    match ← fillIfFits template culture [.text w.name] with
    | some s => return s
    | none => return template

/-- The culture of a message: that of the rule, the shared one, that of the surroundings, or the
default. -/
def cultureFor (s : Sources) (rule : Option Rule) : Option Culture :=
  (rule.bind Rule.culture).or <| s.options.sharedCulture.or <| s.ambient.or s.options.defaultCulture

/-- The resource of a message: that of the rule, of the type, or the shared one. -/
def resourceFor (s : Sources) (w : Wanted) : Option String :=
  (w.rule.bind Rule.resource).or <| (s.schema.resourceOf w.type).or s.options.sharedResource

/-- The conventional key of a member and a check. -/
def conventionalKey (options : Options) (t : TypeId) (member : String) (a : Attribute) : String :=
  let usual := member ++ "_" ++ a.check.shortName
  match options.keys.lookup (t.name ++ "." ++ member ++ "." ++ a.check.shortName) with
  | some key => if key.isEmpty then usual else key
  | none => usual

/-- Whether the conventional key may be used. -/
def usesConventionalKey (s : Sources) (rule : Option Rule) : Bool :=
  s.options.conventionalKeys && rule.all Rule.conventionalKeys

/-- Looks up a string. -/
def findString (s : Sources) (resource : Option String) (key : String) (culture : Option Culture) :
    Lookup (Except AppError String) :=
  Lookups.find s.resources resource key culture

/-- The filled-in string of a key in a resource; one that does not fit is noted in the log. -/
def fromResource (s : Sources) (w : Wanted) (resource : Option String) (key : String) :
    Lookup (Option String) := do
  let culture := cultureFor s w.rule
  match ← findString s resource key culture with
  | .error _ => return none
  | .ok template =>
    match fillIfFits template culture w.allArgs with
    | .error e => throw e
    | .ok (some text) => return some text
    | .ok none =>
      modify fun m => { m with log := m.log ++ [Lookups.unfilledEvent key] }
      return none

/-- A text that is there and not empty. -/
def present (s : Option String) : Option String := s.filter fun t => !t.isEmpty

/-- The result of a computation that looks up nothing. -/
def given (r : Except Fault α) : Lookup α := fun m => (r, m)

/-! ## 2. Origins -/

/-- The text that an origin gives, if any. A computed message of the rule is not a matter of texts
alone: `computed` stands for it. -/
def Origin.text? (s : Sources) (w : Wanted) (computed : Option String) :
    Origin → Lookup (Option String)
  | own =>
    match w.rule.bind Rule.message with
    | some (.template t) => do return some (← given (fillOrKeep t (cultureFor s w.rule) w))
    | some (.computed _) => return computed
    | none => return none
  | ruleResource =>
    match w.rule.bind fun r => present r.resourceKey with
    | some key => fromResource s w (resourceFor s w) key
    | none => return none
  | attributeResource =>
    match w.validator.bind fun a => present a.resourceKey, w.validator.bind Attribute.resource with
    | some key, some resource => fromResource s w (some resource) key
    | _, _ => return none
  | conventional =>
    match w.validator, resourceFor s w with
    | some a, some resource =>
      if usesConventionalKey s w.rule then
        fromResource s w (some resource) (conventionalKey s.options w.type w.member a)
      else return none
    | _, _ => return none
  | fallback => return w.rule.bind fun r => present r.fallback
  | template =>
    match w.validator with
    | some a => do return some (← given (a.defaultMessage w.name (cultureFor s w.rule)))
    | none => return none
  | general => return some ("Invalid value for " ++ w.member)

/-- The text of the first of the origins that gives one. -/
def firstText (s : Sources) (w : Wanted) (computed : Option String) : List Origin → Lookup String
  | [] => return ""
  | o :: os => do
    match ← o.text? s w computed with
    | some text => return text
    | none => firstText s w computed os

/-- The message that is wanted. -/
def resolve (s : Sources) (w : Wanted) (computed : Option String := none) : Lookup String :=
  firstText s w computed Origin.all

end Message
end MemberRules
