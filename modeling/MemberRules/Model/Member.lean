/-
# References to members, and the ways to select one

A member is identified by the type that declares it and its name, however it was selected; its kind
does not count. A selector names a member, holds a reference, or is a function that is run once on
a recorder and must read exactly one member of it.
-/
import MemberRules.Model.Evaluation
import MemberRules.Value.Printed

namespace MemberRules

/-- How a member is read. -/
inductive MemberKind
  | field | property | method
  deriving DecidableEq, Repr

/-- The word for a kind. -/
def MemberKind.name : MemberKind → String
  | field => "field"
  | property => "property"
  | method => "method"

/-- The identity of a member. -/
structure MemberKey where
  declaring : TypeId
  name : String
  deriving DecidableEq, Repr

/-- A member of a type. -/
structure MemberRef where
  declaring : TypeId
  name : String
  kind : MemberKind := .field
  deriving DecidableEq, Repr, Inhabited

namespace MemberRef

/-- The identity of the member. -/
def key (m : MemberRef) : MemberKey := ⟨m.declaring, m.name⟩

/-- The member with its type. -/
def text (m : MemberRef) : String := m.declaring.name ++ "." ++ m.name

/-- Whether the member can be written. -/
def isWritable (s : Schema) (m : MemberRef) : Bool :=
  match m.kind with
  | .method => false
  | .field => true
  | .property =>
    match s.defined? m.declaring m.name with
    | some (.property _ _ setter) => setter.isSome
    | _ => false

/-- Reads the member of an object. -/
def read (m : MemberRef) (object : Value) : Eval Value := do
  let v ← World.read object m.name
  match m.kind with
  | .method => World.call v
  | _ => return v

/-- Writes the member of an object. -/
def write (m : MemberRef) (object v : Value) : Eval Unit := do
  if !m.isWritable (← get).schema then
    Eval.fail (.unsupported (AppError.unsupportedMember m.name m.kind.name "assign a value to"))
  World.write object m.name v

end MemberRef

/-! ## 1. Members by name -/

namespace Schema

/-- How a member of a declared type is read. -/
def kindOfBody : MemberBody → MemberKind
  | .property .. | .cached _ => .property
  | .method _ | .static _ => .method
  | _ => .field

/-- How a member of a built-in type is read. -/
def kindOfShape : BuiltinType.Shape → MemberKind
  | .function => .method
  | .computed => .property
  | .plain => .field

/-- How the value or function that a type itself holds is read. -/
def ownKind? (s : Schema) (name : String) : TypeId → Option MemberKind
  | .declared n => ((s.find? n).bind fun d => d.defined? name).map kindOfBody
  | .builtin b => if b.holds name then some (kindOfShape (b.shape name)) else none
  | .enumeration _ => none

/-- How a member of a type is read: as the nearest definition says, and as a field without one. -/
def kindOf (s : Schema) (t : TypeId) (name : String) : MemberKind :=
  ((s.lineIds t).findSome? (s.ownKind? name)).getD .field

/-- The member of a name. Names with two leading low lines are no members. -/
def member? (s : Schema) (t : TypeId) (name : String) : Option MemberRef :=
  if name.startsWith "__" then none
  else (s.declaring? t name).map fun d => ⟨d, name, s.kindOf t name⟩

/-- The member of a name, or the error of an unknown one. -/
def member (s : Schema) (t : TypeId) (name : String) : Except Fault MemberRef :=
  match s.member? t name with
  | some m => .ok m
  | none => .error (.configuration (AppError.unknownMember t name))

end Schema

/-! ## 2. Selectors -/

/-- A way to select a member. -/
inductive Selector
  | name (s : String)
  | ref (m : MemberRef)
  /-- A function that reads a member, a member of that one, and so on. -/
  | path (names : List String)
  /-- A function that calls a member. -/
  | call (name : String)
  /-- A function that reads several members and returns them together. -/
  | together (names : List String)
  /-- A function that reads several members and returns the last one. -/
  | lastOf (names : List String)
  /-- A function that reads nothing. -/
  | returning (v : Value)
  /-- A function that fails. -/
  | failing (text : String)
  /-- A value that selects nothing. -/
  | value (v : Value)
  deriving Inhabited

namespace Selector

/-- What a function has made of the recorder. -/
inductive Recording
  /-- It returned a member that it read, and it read only that one. -/
  | one (name : String) (called : Bool)
  | other
  | failed (text : String)

/-- Whether the recorder has a name of its own, so that reading it records nothing. -/
def isOwnName (name : String) : Bool :=
  BuiltinType.object.holds name ||
    ["_accessed", "__getattr__", "__module__", "__slots__"].contains name

/-- What the recorder holds under a name of its own. -/
def ownValue (name : String) : Value :=
  if name == "_accessed" then .list [] else .method .none name

/-- The names of the recorder that can be called without arguments. -/
def callableNames : List String :=
  ["__class__", "__dir__", "__getstate__", "__hash__", "__init__", "__init_subclass__", "__repr__",
    "__sizeof__", "__str__", "__subclasshook__"]

/-- What a recorded member holds under a name, `none` if there is no such name. -/
def recordedValue? (recorded name : String) : Option Value :=
  if name == "name" then some (.text recorded)
  else if name == "called" then some (.bool false)
  else if BuiltinType.object.holds name ||
      ["__call__", "__init__", "__module__", "__slots__"].contains name then
    some (.method .none name)
  else none

/-- Reads names one after the other, from a value that is not recorded. -/
def readOn (s : Schema) (v : Option Value) : List String → Recording
  | [] => if v.isSome then .other else .failed "no such attribute"
  | n :: ns =>
    match v with
    | some v => readOn s (World.attribute? s v n) ns
    | none => .failed "no such attribute"

/-- Reads the names of a path from the recorder. -/
def readPath (s : Schema) : List String → Recording
  | [] => .other
  | n :: ns =>
    if isOwnName n then readOn s (some (ownValue n)) ns
    else match ns with
      | [] => .one n false
      | m :: ms => readOn s (recordedValue? n m) ms

/-- Reads several names from the recorder and returns the last one. -/
def readLast (names : List String) : Recording :=
  match names.getLast?, names.filter fun n => !isOwnName n with
  | some last, [n] => if last == n then .one n false else .other
  | _, _ => .other

/-- Reads a name from the recorder and calls what was read. -/
def readCall (name : String) : Recording :=
  if !isOwnName name then .one name true
  else if callableNames.contains name then .other
  else .failed "cannot be called"

/-- Runs a selector on the recorder, `none` if it is no function. -/
def record? (s : Schema) : Selector → Option Recording
  | path ns => some (readPath s ns)
  | call n => some (readCall n)
  | together _ => some .other
  | lastOf ns => some (readLast ns)
  | returning _ => some .other
  | failing text => some (.failed text)
  | value (.type (.builtin .text)) | value (.type (.builtin .bool))
  | value (.type (.builtin .type)) => some .other
  | value (.type _) => some (.failed "wrong arguments")
  | name _ | ref _ | value _ => none

/-- A selector that is there; nothing as a value stands for none. -/
def given? : Option Selector → Option Selector
  | some (value .none) => Option.none
  | sel => sel

/-- A selector with its value as an error shows it. -/
def captured (w : World) : Selector → Selector
  | value v => value (w.captured v)
  | s => s

/-- How a selector appears in an error. -/
def shown : Selector → Except Fault String
  | value v => v.shown?
  | _ => .ok "<selector>"

/-- The reason given for a function that reads no member, or more than one. -/
def exactlyOne : String := "selector must read exactly one member, e.g. lambda x: x.email"

/-- The error of a selector that selects nothing. -/
def unresolved (t : TypeId) (s : Selector) (reason : Option String) : Fault :=
  match s.shown with
  | .error f => f
  | .ok shown =>
    let e := AppError.unknownMember t shown
    .configuration <| match reason with
      | some r => e.withDetails [("reason", .text r)]
      | none => e

end Selector

/-- The member of a type that a selector selects. -/
def Schema.select (s : Schema) (t : TypeId) (sel : Selector) : Except Fault MemberRef :=
  match sel with
  | .ref m => .ok m
  | .name n => s.member t n
  | sel =>
    match sel.record? s with
    | none =>
      match sel with
      | .value (.text n) => s.member t n
      | _ => .error (sel.unresolved t none)
    | some (.failed text) => .error (sel.unresolved t (some text))
    | some .other => .error (sel.unresolved t (some Selector.exactlyOne))
    | some (.one n called) => do
      let m ← s.member t n
      if called && m.kind != .method then
        .error (.configuration (AppError.unknownMember t (n ++ "()")))
      else return m

end MemberRules
