/-
# Objects

Objects live in a store and are changed in place. The world holds them together with the types,
the values that were kept under a name, and the trace of what has been evaluated so far. A
computation over the world keeps what has happened before a fault.
-/
import MemberRules.Model.Schema

namespace MemberRules

/-- How deep computed members and nested objects may be nested. -/
def nestingLimit : Nat := 1500

/-- An object: its type and the values stored in it. -/
structure Object where
  type : TypeId
  fields : List (String × Value)
  deriving Inhabited

/-- The objects of all types, the values kept under a name, and the trace of the evaluation. -/
structure World where
  schema : Schema
  objects : List Object := []
  /-- The values kept under a name, the last one of a name first. -/
  kept : List (String × Value) := []
  /-- How many values that are not a number have been made. -/
  marks : Nat := 0
  trace : List String := []
  deriving Inhabited

/-- A computation over the world; a fault keeps what has happened before it. -/
abbrev Eval (α : Type) := ExceptT Fault (StateM World) α

namespace World

/-! ## 1. The store -/

/-- The object of an identity. -/
def object? (w : World) (id : ObjectId) : Option Object := w.objects[id]?

/-- Puts a value under a name among stored values. -/
def setField (fields : List (String × Value)) (name : String) (v : Value) :
    List (String × Value) :=
  if fields.any fun e => e.1 == name then
    fields.map fun e => if e.1 == name then (name, v) else e
  else fields ++ [(name, v)]

/-- The world with a value stored in an object. -/
def store (w : World) (id : ObjectId) (name : String) (v : Value) : World :=
  { w with objects := w.objects.modify id fun o => { o with fields := setField o.fields name v } }

/-- The world with one more object, and its identity. -/
def allocate (w : World) (t : TypeId) (fields : List (String × Value)) : World × ObjectId :=
  ({ w with objects := w.objects ++ [⟨t, fields⟩] }, w.objects.length)

/-- The names of the fields of a record type. -/
def recordFields (w : World) (t : TypeId) : List String :=
  (w.schema.announcements t).filterMap fun e =>
    if Schema.isRecordField e.1 e.2 then some e.1 else none

/-- Whether two fields are equal: both are missing, or both are there with equal values. -/
def sameField (sameObject : ObjectId → ObjectId → Bool) (a b : Option Value) : Bool :=
  match a, b with
  | some x, some y => Value.samePart sameObject x y
  | none, none => true
  | _, _ => false

/-- Whether two objects are equal: the same one, or of one record type and with equal fields. -/
def sameObjectWithin (w : World) : Nat → ObjectId → ObjectId → Bool
  | 0, a, b => a == b
  | depth + 1, a, b =>
    a == b ||
      match w.object? a, w.object? b with
      | some x, some y =>
        w.schema.isRecord x.type && x.type == y.type &&
          (w.recordFields x.type).all fun name =>
            sameField (sameObjectWithin w depth) (x.fields.lookup name) (y.fields.lookup name)
      | _, _ => false

/-- Whether two objects are equal. -/
def sameObject (w : World) : ObjectId → ObjectId → Bool := w.sameObjectWithin nestingLimit

/-- The type of a value. -/
def typeOf (w : World) : Value → TypeId
  | .object id =>
    match w.object? id with
    | some o => o.type
    | none => .builtin .object
  | v => v.kind

/-- Whether a value can be an element of a set or a key of a dictionary. -/
def isHashable (w : World) (v : Value) : Bool :=
  match v with
  | .list _ | .set _ | .dict _ => false
  | .tuple xs => xs.attach.all fun ⟨x, _⟩ => isHashable w x
  | .object _ => !w.schema.isRecord (w.typeOf v)
  | _ => true

/-- The elements that a collection member is checked by. A record counts as the collection of what
is stored in it under a public name. -/
def elements (w : World) (v : Value) : List Value :=
  match v with
  | .object id =>
    match w.object? id with
    | some o =>
      if w.schema.isRecord o.type then
        (o.fields.filter fun e => !e.1.startsWith "_").map fun e => .tuple [.text e.1, e.2]
      else []
    | none => []
  | v => v.elements

/-- A value with what the objects of record types in it hold, in the place of those objects; `depth`
bounds the nesting. -/
def capturedWithin (w : World) : Nat → Value → Value
  | 0, v => v
  | depth + 1, v =>
    let within := capturedWithin w depth
    match v with
    | .list xs => .list (xs.map within)
    | .tuple xs => .tuple (xs.map within)
    | .set xs => .set (xs.map within)
    | .dict es => .dict (es.map fun e => (within e.1, within e.2))
    | .enumMember t n x => .enumMember t n (within x)
    | .object id =>
      match w.object? id with
      | some o =>
        if w.schema.isRecord o.type then
          let names := w.recordFields o.type
          .record o.type.name
            ((o.fields.filter fun e => names.contains e.1).map fun e => (e.1, within e.2))
        else v
      | none => v
    | v => v

/-- A value as a text shows it: objects of record types are shown by what they hold. -/
def captured (w : World) : Value → Value := w.capturedWithin nestingLimit

end World

namespace Eval

/-- Fails. -/
def fail (e : Fault) : Eval α := throw e

/-- The result of a computation that needs no world. -/
def lift (r : Except Fault α) : Eval α :=
  match r with
  | .ok a => pure a
  | .error e => throw e

/-- Leaves a mark. -/
def mark (label : String) : Eval Unit := modify fun w => { w with trace := w.trace ++ [label] }

/-- Compares two values. -/
def compareValues (c : Comparator) (a b : Value) : Eval Bool := do
  let w ← get
  lift (Value.compareBy w.sameObject c a b)

end Eval

end MemberRules
