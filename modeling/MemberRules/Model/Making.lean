/-
# Making and changing objects

Writing a member of an object runs its setter or stores the value. A new record carries the defaults
of its fields from the start, each of them as a copy of its own, so that no two records share what
can be changed. `Document.value` makes the value of a document: its objects are new ones, and every
value in it that is not a number differs from all that were made before.
-/
import MemberRules.Model.World

namespace MemberRules
namespace World

/-! ## 1. Writing -/

/-- Stores a value in a record: under a field, a member that is computed once, or a private name.
Values of the type itself cannot be replaced, and there are no other names. -/
def storeInRecord (o : Object) (id : ObjectId) (name : String) (v : Value) : Eval Unit := do
  let s := (← get).schema
  let keep : Eval Unit := modify fun w => w.store id name v
  match s.defined? o.type name, (s.announcements o.type).lookup name with
  | some (.cached _), _ => keep
  | _, some h =>
    if h.belongsToType then Eval.fail .noAttribute
    else if name.startsWith "_" || Schema.isRecordField name h then keep
    else Eval.fail .badValue
  | _, none => if name.startsWith "_" then keep else Eval.fail .badValue

/-- Writes a member of an object; `depth` bounds how many setters pass the value on. -/
def writeWithin : Nat → Value → String → Value → Eval Unit
  | 0, _, _, _ => Eval.fail .tooDeep
  | depth + 1, target, name, v => do
    match target with
    | .object id =>
      let w ← get
      match w.object? id with
      | none => Eval.fail .noAttribute
      | some o =>
        match w.schema.defined? o.type name with
        | some (.property _ _ (some other)) => writeWithin depth target other v
        | some (.property _ _ none) => Eval.fail .noAttribute
        | _ =>
          if w.schema.isRecord o.type then storeInRecord o id name v
          else modify fun w => w.store id name v
    | _ => Eval.fail .noAttribute

/-- Writes a member of a value. -/
def write : Value → String → Value → Eval Unit := writeWithin nestingLimit

/-! ## 2. Copies -/

/-- A copy under way: the objects that have been copied, with their copies. -/
abbrev Copying (α : Type) := StateM (World × List (ObjectId × ObjectId)) α

/-- Copies a value with all objects in it, each of them once; `depth` bounds the nesting. -/
def copyWithin : Nat → Value → Copying Value
  | 0, v => return v
  | depth + 1, v => do
    match v with
    | .list xs => return .list (← xs.mapM (copyWithin depth))
    | .tuple xs => return .tuple (← xs.mapM (copyWithin depth))
    | .set xs => return .set (← xs.mapM (copyWithin depth))
    | .dict es =>
      return .dict (← es.mapM fun e => do return (← copyWithin depth e.1, ← copyWithin depth e.2))
    | .object id =>
      let (w, copied) ← get
      match copied.lookup id, w.object? id with
      | some twin, _ => return .object twin
      | none, none => return v
      | none, some o =>
        let (w, twin) := w.allocate o.type []
        set (w, (id, twin) :: copied)
        o.fields.forM fun (name, x) => do
          let y ← copyWithin depth x
          modify fun (w, copied) => (w.store twin name y, copied)
        return .object twin
    | v => return v

/-- Copies a value with all objects in it. -/
def copy (v : Value) : Eval Value := do
  let (v, w, _) := (copyWithin nestingLimit v).run (← get, [])
  set w
  return v

/-! ## 3. New objects -/

/-- The default of a field of a record type, from the nearest announcement. -/
def defaultOf (s : Schema) (t : TypeId) (name : String) : Option Value :=
  ((s.lineOf t).findSome? fun d =>
    d.members.reverse.findSome? fun m => match m.body with
      | .field _ default _ _ => if m.name == name then some default else none
      | _ => none).bind id

/-- Stores a copy of the default of a field, if there is one. -/
def giveDefault (t : TypeId) (id : ObjectId) (name : String) : Eval Unit := do
  match defaultOf (← get).schema t name with
  | some v =>
    let v ← copy v
    modify fun w => w.store id name v
  | none => return

/-- Creates an object with what it carries from the start. -/
def create (t : TypeId) : Eval ObjectId := do
  let w ← get
  let (w, id) := w.allocate t []
  set w
  if w.schema.isRecord t then (w.recordFields t).forM (giveDefault t id)
  return id

/-- A value that differs from all that were made before, if it is not a number. -/
def marked (v : Value) : Eval Value := do
  match v with
  | .float (.nan _) =>
    modify fun w => { w with marks := w.marks + 1 }
    return .float (.nan (← get).marks)
  | .decimal (.nan negative payload _) =>
    modify fun w => { w with marks := w.marks + 1 }
    return .decimal (.nan negative payload (← get).marks)
  | v => return v

/-- The type of a name, which must exist. -/
def typeNamed (name : String) : Eval TypeId := do
  match (← get).schema.typeNamed? name with
  | some t => return t
  | none => Eval.fail .noKey

/-- Values that can be elements of a set or keys of a dictionary. -/
def requireHashable (vs : List Value) : Eval Unit := do
  let w ← get
  if !vs.all w.isHashable then Eval.fail .wrongType

end World

namespace Document

mutual

/-- Makes the value of a document. -/
def value : Document → Eval Value
  | plain v => World.marked v
  | list xs => do return .list (← values xs)
  | tuple xs => do return .tuple (← values xs)
  | set xs => do
    let vs ← values xs
    World.requireHashable vs
    return .setOf (← get).sameObject vs
  | dict es => do
    let es ← entries es
    World.requireHashable (es.map Prod.fst)
    return .dictOf (← get).sameObject es
  | record es => do return .dict ((← namedValues es).map fun e => (.text e.1, e.2))
  | enumMember t n d => do return .enumMember t n (← value d)
  | type n => do return .type (← World.typeNamed n)
  | object t fields => do
    let id ← World.create (← World.typeNamed t)
    setFields (.object id) fields
    return .object id
  | kept n => do
    match (← get).kept.lookup n with
    | some v => return v
    | none => Eval.fail .noKey
  | malformed f => Eval.fail f

/-- Makes the values of several documents, in order. -/
def values : List Document → Eval (List Value)
  | [] => return []
  | d :: ds => do
    let v ← value d
    return v :: (← values ds)

/-- Makes keys and values, in order. -/
def entries : List (Document × Document) → Eval (List (Value × Value))
  | [] => return []
  | (k, d) :: es => do
    let k ← value k
    let v ← value d
    return (k, v) :: (← entries es)

/-- Makes named values, in order. -/
def namedValues : List (String × Document) → Eval Details
  | [] => return []
  | (n, d) :: es => do
    let v ← value d
    return (n, v) :: (← namedValues es)

/-- Makes the values of fields and sets them, in order. -/
def setFields (target : Value) : List (String × Document) → Eval Unit
  | [] => return
  | (n, d) :: es => do
    World.write target n (← value d)
    setFields target es

end

end Document
end MemberRules
