/-
# Model types

A schema lists the declared types in the order of their definition. A type has members and bases;
its line of precedence lists the type itself and everything it inherits from, the nearest first,
and every look-up of a member goes along it. The line keeps the order of the bases and puts no type
before one that derives from it; bases that allow no such line cannot be declared.

A member may be announced by a hint, defined by a value or a function, or both; a derived type may
announce what a base defines. Beside its members a type holds some names that every type has; built-in
types hold the names of their own.

A record type derives from the base of all record types, which stands behind the declared bases
unless one of them is a record type; a type with a rule on every announced member derives from the
base of those, which stands last.
-/
import MemberRules.Model.Hint
import MemberRules.Value.Builtin

namespace MemberRules

/-! ## 1. Declarations -/

/-- The value of a member that is not stored in the object. -/
inductive MemberBody
  /-- A member stored in the object, with a value for objects that do not set it. -/
  | field (hint : Hint) (default : Option Value) (title otherName : Option String)
  /-- A value of the type. -/
  | constant (v : Value)
  /-- An announced value that only initialises an object. -/
  | initOnly (hint : Hint)
  /-- A computed member; a setter writes another member in its place. -/
  | property (getter : Expr) (returns : Option Hint) (setter : Option String)
  /-- A member computed once and then stored. -/
  | cached (getter : Expr)
  /-- A function of the object. -/
  | method (e : Expr)
  /-- A function of the type, which sees no object. -/
  | static (e : Expr)
  deriving Inhabited

/-- A member. -/
structure MemberDecl where
  name : String
  body : MemberBody
  deriving Inhabited

/-- A type. -/
structure TypeDecl where
  name : String
  members : List MemberDecl
  bases : List String := []
  /-- Every announced member gets a rule, with or without attributes. -/
  validatable : Bool := false
  /-- Whether the type is a record type: its objects carry the defaults of their fields, and equal
  fields make objects equal. -/
  isRecord : Bool := false
  /-- The resource that holds the messages of the type. -/
  resource : Option String := none
  /-- Types whose attributes the members of the same names take over. -/
  inherits : List TypeId := []
  /-- The line of precedence. -/
  line : List TypeId := []
  deriving Inhabited

namespace TypeDecl

/-- The identity of a type. -/
def id (t : TypeDecl) : TypeId := .declared t.name

/-- The type with more types to take attributes over from, behind those that it names already. -/
def inheritFrom (t : TypeDecl) (sources : List TypeId) : TypeDecl :=
  { t with inherits := t.inherits ++ sources }

/-- The hint that announces a member. -/
def announced? (t : TypeDecl) (name : String) : Option Hint :=
  t.members.reverse.findSome? fun m =>
    if m.name == name then
      match m.body with
      | .field h .. => some h
      | .initOnly h => some (.initOnly h)
      | _ => none
    else none

/-- Whether a member body is a value or function of the type itself. -/
def isDefinition (t : TypeDecl) : MemberBody → Bool
  | .field h default .. => default.isSome && (!t.isRecord || h.belongsToType)
  | .initOnly _ => false
  | _ => true

/-- The value or function that the type itself holds under a name. -/
def defined? (t : TypeDecl) (name : String) : Option MemberBody :=
  (t.members.reverse.find? fun m => m.name == name && t.isDefinition m.body).map (·.body)

/-- Whether the type itself announces or defines a member. -/
def declares (t : TypeDecl) (name : String) : Bool :=
  (t.announced? name).isSome || (t.defined? name).isSome

/-- Names that a type holds beside its members. -/
def standingNames : List String := ["__module__", "__doc__", "__annotations__", "__dict__", "__weakref__"]

/-- Names that a record type holds beside its members. -/
def recordNames : List String := ["model_config", "_abc_impl"]

/-- Whether the type itself holds a name: a member, or one that comes with the type. -/
def holds (t : TypeDecl) (name : String) : Bool :=
  t.declares name || standingNames.contains name ||
    (t.isRecord && recordNames.contains name) ||
    (name == "__validation_resource__" && t.resource.isSome) ||
    (name == "__inherit_rules__" && !t.inherits.isEmpty)

/-- The announced members in order, each name once, with its last hint. -/
def announcements (t : TypeDecl) : List (String × Hint) :=
  let names := t.members.filterMap fun m => match m.body with
    | .field .. | .initOnly _ => some m.name
    | _ => none
  names.eraseDups.filterMap fun n => (t.announced? n).map fun h => (n, h)

end TypeDecl

/-! ## 2. Lines of precedence -/

/-- Whether a name stands behind the head of one of the lines. -/
def inSomeTail [BEq α] (lines : List (List α)) (name : α) : Bool :=
  lines.any fun l => l.tail.contains name

/-- Merges lines of precedence: always the first head that stands behind no other head. Every step
drops a name, so `fuel` as large as the number of names suffices. -/
def mergeLines [BEq α] : Nat → List (List α) → Option (List α)
  | 0, lines => if lines.all List.isEmpty then some [] else none
  | fuel + 1, lines =>
    let lines := lines.filter fun l => !l.isEmpty
    if lines.isEmpty then some []
    else
      match (lines.filterMap List.head?).find? fun n => !inSomeTail lines n with
      | none => none
      | some n =>
        (mergeLines fuel (lines.map fun l => if l.head? == some n then l.tail else l)).map (n :: ·)

/-- The declared types, in the order of definition. -/
structure Schema where
  types : List TypeDecl := []
  deriving Inhabited

namespace Schema

/-- A declared type by its name. -/
def find? (s : Schema) (name : String) : Option TypeDecl := s.types.find? fun t => t.name == name

/-- Whether a name is declared. -/
def declared (s : Schema) (name : String) : Bool := (s.find? name).isSome

/-- The line of precedence of a type. -/
def lineIds (s : Schema) : TypeId → List TypeId
  | .declared name =>
    match s.find? name with
    | some t => t.line
    | none => []
  | .enumeration name => [.enumeration name, .builtin .enumBase]
  | .builtin t => t.line.map .builtin

/-- The bases of a new type: the declared ones, and those that come with what the type is. -/
def basesOf (t : TypeDecl) (bases : List TypeDecl) : List TypeId :=
  bases.map TypeDecl.id ++
    (if t.isRecord && !bases.any TypeDecl.isRecord then [.builtin .recordBase] else []) ++
    (if t.validatable then [.builtin .validatableBase] else [])

/-- The schema with one more type, whose bases must have been declared before. A type is a
record type as soon as one of its bases is. -/
def declare (s : Schema) (t : TypeDecl) : Except Fault Schema := do
  let bases ← t.bases.mapM fun b =>
    match s.find? b with
    | some d => .ok d
    | none => .error Fault.noKey
  let ids := basesOf t bases
  let lines := ids.map s.lineIds ++ [ids]
  match mergeLines lines.flatten.length lines with
  | none => .error .wrongType
  | some line =>
    let t := { t with
      line := t.id :: line
      isRecord := t.isRecord || bases.any TypeDecl.isRecord }
    return { types := s.types ++ [t] }

/-- The built-in type of a name, also in small letters. -/
def builtinNamed? (name : String) : Option BuiltinType :=
  [BuiltinType.nothing, .bool, .int, .float, .text, .bytes, .decimal, .date, .dateTime, .time, .list,
    .tuple, .set, .dict, .object, .any, .type].find? fun t => t.name == name || t.name.toLower == name

/-- The type of a name: the declared one if there is one. -/
def typeNamed? (s : Schema) (name : String) : Option TypeId :=
  if s.declared name then some (.declared name) else (builtinNamed? name).map .builtin

/-- The type of a name; one that does not exist holds nothing. -/
def typeNamed (s : Schema) (name : String) : TypeId := (s.typeNamed? name).getD (.declared name)

/-- The declared types along the line of precedence of a type. -/
def lineOf (s : Schema) (t : TypeId) : List TypeDecl :=
  (s.lineIds t).filterMap fun id => match id with
    | .declared name => s.find? name
    | _ => none

/-- Whether one type derives from another or is the same. -/
def isSubtype (s : Schema) (a b : TypeId) : Bool :=
  a == b || b == .builtin .object || (s.lineIds a).contains b

/-- Whether a type or one of its bases asks for a rule on every announced member. -/
def isValidatable (s : Schema) (t : TypeId) : Bool := (s.lineOf t).any TypeDecl.validatable

/-- Whether a type is a record type. -/
def isRecord (s : Schema) (t : TypeId) : Bool := (s.lineOf t).any TypeDecl.isRecord

/-- The resource that a type or the nearest of its bases names. -/
def resourceOf (s : Schema) (t : TypeId) : Option String :=
  (s.lineOf t).findSome? TypeDecl.resource

/-! ## 3. Members along the line -/

/-- Whether a type itself holds a name. -/
def holds (s : Schema) (t : TypeId) (name : String) : Bool :=
  match t with
  | .declared n => (s.find? n).any fun d => d.holds name
  | .builtin b => b.holds name
  | .enumeration _ => false

/-- The nearest type that holds a name. -/
def declaring? (s : Schema) (t : TypeId) (name : String) : Option TypeId :=
  (s.lineIds t).find? fun id => s.holds id name

/-- Whether a type has a member. -/
def hasMember (s : Schema) (t : TypeId) (name : String) : Bool := (s.declaring? t name).isSome

/-- Whether a type has a name that comes with it or with one of its bases, beside all members. -/
def comesWith (s : Schema) (t : TypeId) (name : String) : Bool :=
  BuiltinType.object.holds name || (s.lineIds t).any fun id =>
    match id with
    | .declared n => (s.find? n).any fun d => d.holds name && !d.declares name
    | .builtin b => b.holds name
    | .enumeration _ => false

/-- The nearest value or function under a name. -/
def defined? (s : Schema) (t : TypeId) (name : String) : Option MemberBody :=
  (s.lineOf t).findSome? fun d => d.defined? name

/-- Puts a hint under a name, in place if the name is present. -/
def setHint (hints : List (String × Hint)) (name : String) (h : Hint) : List (String × Hint) :=
  if hints.any fun e => e.1 == name then
    hints.map fun e => if e.1 == name then (name, h) else e
  else hints ++ [(name, h)]

/-- The types that can be named without being declared. -/
def basicTypes : List BuiltinType :=
  [.bool, .int, .float, .text, .bytes, .list, .tuple, .set, .dict, .object, .type]

/-- The type that a name stands for, if it is one of the declared `names` or of the basic types. -/
def reference? (names : List String) (name : String) : Option Hint :=
  if names.contains name then some (.type (.declared name))
  else (basicTypes.find? fun t => t.name == name).map fun t => .type (.builtin t)

/-- The names that are declared. -/
def names (s : Schema) : List String := s.types.map TypeDecl.name

/-- A hint with every named type resolved, `none` if one of them is not declared. -/
def resolve? (s : Schema) (h : Hint) : Option Hint := h.resolve (reference? s.names)

/-- The names that are declared when a type is: those of the types before it, and its own. -/
def namesUntil (s : Schema) (t : TypeDecl) : List String :=
  s.names.takeWhile (· != t.name) ++ [t.name]

/-- A hint with the named types resolved that are declared when a type is. -/
def settle (s : Schema) (t : TypeDecl) (h : Hint) : Hint :=
  (h.resolve fun n => some ((reference? (s.namesUntil t) n).getD (.reference n))).getD h

/-- The announced members of a type on the line of a record type. The named types of a record type
are settled when it is declared. -/
def settledAnnouncements (s : Schema) (record t : TypeDecl) : List (String × Hint) :=
  t.announcements.map fun e => (e.1, s.settle (if t.isRecord then t else record) e.2)

/-- The announced members along a line of precedence, those of the bases first; a derived type
changes the hint of a member in its place. -/
def gather (line : List TypeDecl) (announced : TypeDecl → List (String × Hint)) :
    List (String × Hint) :=
  (line.reverse.flatMap announced).foldl (fun hs e => setHint hs e.1 e.2) []

/-- All announced members of a type. -/
def announcements (s : Schema) (t : TypeId) : List (String × Hint) :=
  gather (s.lineOf t) TypeDecl.announcements

/-- Whether an announced member belongs to the objects of its type, and is not private. -/
def isModelField (name : String) : Hint → Bool
  | .classLevel _ | .initOnly _ => false
  | _ => !name.startsWith "_"

/-- Whether a member of a record type is one of its fields. -/
def isRecordField (name : String) (h : Hint) : Bool := isModelField name h && !h.belongsToType

/-- The announced members with the named types resolved. It fails if one of them names a type that is
not declared, except for a record type: there such a name stays. -/
def hints (s : Schema) (t : TypeId) : Except Fault (List (String × Hint)) :=
  match (s.lineOf t).head?.filter TypeDecl.isRecord with
  | some record =>
    .ok ((gather (s.lineOf t) (s.settledAnnouncements record)).filter fun e => isRecordField e.1 e.2)
  | none =>
    (s.announcements t).mapM fun e =>
      match s.resolve? e.2 with
      | some h => .ok (e.1, h)
      | none => .error .noName

/-- The hint of one member without attributes and the option to be missing. -/
def coreHint? (s : Schema) (t : TypeId) (name : String) : Except Fault (Option Hint) := do
  return ((← s.hints t).lookup name).map Hint.core

/-- The declared type of the elements of a member. -/
def elementHint? (s : Schema) (t : TypeId) (name : String) : Except Fault (Option Hint) := do
  return (← s.coreHint? t name).bind Hint.element?

/-- The declared type of a member, if it is a single type. -/
def valueType? (s : Schema) (t : TypeId) (name : String) : Except Fault (Option TypeId) := do
  return (← s.coreHint? t name).bind Hint.type?

/-- The name and other name of a field for display, from the nearest announcement. -/
def displayName (s : Schema) (t : TypeId) (name : String) : String :=
  let decl : Option MemberBody := (s.lineOf t).findSome? fun d =>
    (d.members.reverse.find? fun m => m.name == name).map (·.body)
  match s.isRecord t, decl with
  | true, some (.field _ _ title otherName) =>
    match otherName.filter (!·.isEmpty), title.filter (!·.isEmpty) with
    | some a, _ => a
    | none, some t => t
    | none, none => name
  | _, _ => name

end Schema
end MemberRules
