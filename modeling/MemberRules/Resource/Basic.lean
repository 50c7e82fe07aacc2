/-
# Resources

A resource gives a message string for a key. It is a catalog, or a class of strings, or an object
of such a class. A member of a class gives a string as a value, as a property, or by a call without
arguments; a function that belongs to objects can only be called on one. Everything that is no
string counts as a miss.

A class may look its strings up itself: if it has a member `get_string` that can be called, every
string comes from a call of it with the key and the culture.
-/
import MemberRules.Model.Schema
import MemberRules.Resource.Catalog

namespace MemberRules

/-- A member of a class of strings. -/
inductive ResourceMember
  | value (v : Value)
  | property (v : Value)
  /-- A property that can only be written. -/
  | writeOnly
  /-- A function without arguments, for the class and for its objects. -/
  | function (v : Value)
  /-- A function that takes any arguments and needs none. -/
  | lenient (v : Value)
  /-- A function that needs an object. -/
  | method (v : Value)
  /-- A function that needs an argument. -/
  | needy
  deriving Inhabited

/-- A class of strings, or an object of one. -/
structure ResourceClass where
  name : String
  members : List (String × ResourceMember)
  /-- The class itself and the classes that it inherits from, the nearest first. -/
  line : List String := []
  isObject : Bool := false
  deriving Inhabited

/-- A resource. -/
inductive Resource
  | catalog (c : Catalog)
  | members (r : ResourceClass)
  deriving Inhabited

namespace ResourceMember

/-- A member of a kind with the value that it gives. -/
def ofKind? (kind : String) (v : Value) : Option ResourceMember :=
  match kind with
  | "value" => some (value v)
  | "property" => some (property v)
  | "writeonly" => some writeOnly
  | "static" | "class" => some (function v)
  | "static_default" => some (lenient v)
  | "method" => some (method v)
  | "static_arg" => some needy
  | _ => none

/-- What reading a member gives, on an object or on the class. -/
def read (onObject : Bool) : ResourceMember → Value
  | value v | property v | function v | lenient v => v
  | method v => if onObject then v else .none
  | writeOnly | needy => .none

/-- What a value gives when it is called with a key and a culture, `none` if it cannot be called.
Only types can be called; no type makes a string of the two, and the one of decimals alone may
take them. -/
def callValue? (key : String) (culture : Option Culture) : Value → Option (Except Fault Value)
  | .type (.builtin .decimal) =>
    some <| match culture, Number.Decimal.ofText? key with
      | some _, _ => .error .wrongType
      | none, some d => .ok (.decimal d)
      | none, none => .error .invalidOperation
  | .type _ => some (.error .wrongType)
  | _ => none

/-- What a member gives when it is called with a key and a culture, `none` if it cannot be
called. -/
def call? (onObject : Bool) (key : String) (culture : Option Culture) :
    ResourceMember → Option (Except Fault Value)
  | value v => callValue? key culture v
  | property v => if onObject then callValue? key culture v else none
  | writeOnly => none
  | lenient v => some (.ok v)
  | function _ | method _ => some (.error .wrongType)
  | needy => some (.ok .none)

end ResourceMember

/-- Resources by name. -/
abbrev Resources := List (String × Resource)

namespace Resources

/-- The class of a name. -/
def class? (rs : Resources) (name : String) : Option ResourceClass :=
  match rs.lookup name with
  | some (.members c) => some c
  | _ => none

/-- Declares a class of strings with its bases. -/
def declareClass (rs : Resources) (c : ResourceClass) (bases : List String) :
    Except Fault Resources := do
  let lines ← bases.mapM fun b =>
    match rs.class? b with
    | some d => .ok d.line
    | none => .error Fault.noKey
  let lines := lines ++ [bases]
  match mergeLines lines.flatten.length lines with
  | none => .error .wrongType
  | some line => return rs ++ [(c.name, .members { c with line := c.name :: line })]

/-- The member of a class under a key, the nearest along its line. -/
def member? (rs : Resources) (c : ResourceClass) (key : String) : Option ResourceMember :=
  (c.members.lookup key).or <|
    c.line.tail.findSome? fun n => (rs.class? n).bind fun d => d.members.lookup key

/-- What a class gives for a key without looking strings up itself. A class has a name, and a module
that its objects share. -/
def ownMember (rs : Resources) (c : ResourceClass) (key : String) : Value :=
  match rs.member? c key with
  | some m => m.read c.isObject
  | none =>
    if c.isObject && key != "__module__" then .none
    else (Value.typePart? (.declared c.name) key).getD .none

/-- The member by which a class looks its strings up itself. -/
def finderName : String := "get_string"

/-- The string of a key in a resource, `none` for a miss. -/
def string? (rs : Resources) (r : Resource) (key : String) (culture : Option Culture) :
    Except Fault (Option String) :=
  match r with
  | .catalog c => .ok (c.get? key culture)
  | .members c =>
    match (rs.member? c finderName).bind fun m => m.call? c.isObject key culture with
    | some answer => answer.map Value.text?
    | none => .ok (rs.ownMember c key).text?

/-- How a resource is called in errors. -/
def ownerName (rs : Resources) : Option String → String
  | none => "NoneType"
  | some name =>
    match rs.lookup name with
    | some (.catalog _) => "ResourceCatalog"
    | _ => name

/-- The error of a miss. -/
def miss (rs : Resources) (resource : Option String) (key : String) (culture : Option Culture) :
    AppError :=
  AppError.resourceNotFound (rs.ownerName resource) key (Culture.nameOf culture) "resources"

/-- Looks up the string of a key; the empty key is always a miss. -/
def find (rs : Resources) (resource : Option String) (key : String) (culture : Option Culture) :
    Except Fault (Except AppError String) := do
  let found ← match resource.bind fun name => rs.lookup name with
    | some r => if key.isEmpty then .ok none else rs.string? r key culture
    | none => .ok none
  match found with
  | some s => return .ok s
  | none => return .error (rs.miss resource key culture)

end Resources
end MemberRules
