/-
# The evaluation of expressions

Reading a member of an object runs a computed member, takes the stored value, or takes the value or
function that its type holds; what is no object holds the data of its kind. Evaluation leaves its
marks in a trace, in order, and a fault undoes neither the trace nor what has been stored.

Computed members may read one another. `nestingLimit` bounds how deep that goes: a computed member
that needs itself is `tooDeep`.
-/
import MemberRules.Model.Making
import MemberRules.Text.Blank
import MemberRules.Text.Case
import MemberRules.Value.Arithmetic

namespace MemberRules

/-! ## 1. Expressions -/

/-- What an expression sees. -/
structure Scope where
  subject : Value
  owner : Value
  memberName : Value := .none
  deriving Inhabited

/-- The scope of an expression over one value. -/
def Scope.of (v : Value) : Scope := ⟨v, v, .none⟩

/-- Converts a text or bytes; other values have no such conversion. -/
def Eval.convert (onText : String → String) (onBytes : List UInt8 → List UInt8) (v : Value) :
    Eval Value :=
  match v with
  | .bytes bs => return .bytes (onBytes bs)
  | v =>
    match v.text? with
    | some t => return .text (onText t)
    | none => Eval.fail .noAttribute

namespace Expr

/-- The value of an expression; `read` reads members. -/
def evalWith (read : Value → String → Eval Value) (s : Scope) : Expr → Eval Value
  | subject => pure s.subject
  | owner => pure s.owner
  | memberName => pure s.memberName
  | const d => d.value
  | get e name => do read (← evalWith read s e) name
  | compare c a b => do
    let x ← evalWith read s a
    let y ← evalWith read s b
    return .bool (← Eval.compareValues c x y)
  | both a b => do
    if (← evalWith read s a).truthy then return .bool (← evalWith read s b).truthy
    else return .bool false
  | oneOf a b => do
    if (← evalWith read s a).truthy then return .bool true
    else return .bool (← evalWith read s b).truthy
  | negate e => do return .bool (!(← evalWith read s e).truthy)
  | isNone e => do
    match ← evalWith read s e with
    | .none => return .bool true
    | _ => return .bool false
  | size e => do
    match (← evalWith read s e).size? with
    | some n => return .int n
    | none => Eval.fail .wrongType
  | add a b => do
    let x ← evalWith read s a
    let y ← evalWith read s b
    Eval.lift (x.add y)
  | mul a b => do
    let x ← evalWith read s a
    let y ← evalWith read s b
    Eval.lift (x.mul y)
  | strip e => do
    Eval.convert Text.strip Text.stripBytes (← evalWith read s e)
  | upper e => do
    Eval.convert Text.upper Text.upperBytes (← evalWith read s e)
  | choose test yes no => do
    if (← evalWith read s test).truthy then evalWith read s yes else evalWith read s no
  | trace label e => do
    Eval.mark label
    evalWith read s e
  | raise t => Eval.fail (.raised t)

end Expr

/-! ## 2. Members -/

namespace World

/-- What an object holds under a name that comes with its type. -/
def standing? (s : Schema) (o : Object) (id : ObjectId) (name : String) : Option Value :=
  if !s.comesWith o.type name then none
  else
    match name with
    | "__class__" => some (.type o.type)
    | "__doc__" => some .none
    | "__module__" => some (.text o.type.module)
    | "__dict__" => some (.dict (o.fields.map fun e => (.text e.1, e.2)))
    | "__slots__" => some (if s.isRecord o.type then .method (.object id) name else .tuple [])
    | "model_config" => some (.dict [])
    | _ => some (.method (.object id) name)

/-- The first or the last value of a type that has them. -/
def boundOfType? (t : TypeId) (name : String) : Option Value :=
  match t with
  | .builtin b => Value.bound? b name
  | _ => none

/-- What a declared type holds under the name of a member. -/
def ofType? (s : Schema) (t : TypeId) (name : String) : Option Value :=
  match s.defined? t name with
  | some (.field _ default _ _) => default
  | some (.constant v) => some v
  | some _ => some (.method (.type t) name)
  | none => none

/-- What a type holds under a name that comes with it. -/
def standingOfType? (s : Schema) (t : TypeId) (name : String) : Option Value :=
  match t, name with
  | .declared _, "__doc__" => some .none
  | _, "__class__" => some (.type (.builtin .type))
  | _, _ =>
    (boundOfType? t name).or <|
      if s.comesWith t name || BuiltinType.type.holds name then some (.method (.type t) name)
      else none

/-- What a value that is no object holds under a name. -/
def attribute? (s : Schema) (v : Value) (name : String) : Option Value :=
  match v with
  | .type t => (v.part? name).or <| (ofType? s t name).or (standingOfType? s t name)
  | v =>
    match v.part? name with
    | some x => some x
    | none =>
      if name == "__class__" then some (.type v.kind)
      else if s.comesWith v.kind name then some (.method v name)
      else none

/-- The value of a stored member, or of the one that the type holds. -/
def readStored (computed : Scope → Expr → Eval Value) (id : ObjectId) (name : String) : Eval Value := do
  let w ← get
  match w.object? id with
  | none => Eval.fail .noAttribute
  | some o =>
    match w.schema.defined? o.type name, o.fields.lookup name with
    | some (.property getter _ _), _ => computed (.of (.object id)) getter
    | _, some v => return v
    | some (.cached getter), none =>
      let v ← computed (.of (.object id)) getter
      modify fun w => w.store id name v
      return v
    | some (.constant v), none => return v
    | some (.field _ (some v) _ _), none => return v
    | some (.method _), none | some (.static _), none => return .method (.object id) name
    | _, none =>
      match standing? w.schema o id name with
      | some v => return v
      | none => Eval.fail .noAttribute

/-- Reads a member; `depth` bounds the nesting of computed members. -/
def readWithin : Nat → Value → String → Eval Value
  | 0, _, _ => Eval.fail .tooDeep
  | depth + 1, v, name =>
    match v with
    | .object id => readStored (fun s e => e.evalWith (readWithin depth) s) id name
    | v => do
      match attribute? (← get).schema v name with
      | some x => return x
      | none => Eval.fail .noAttribute

/-- Reads a member of a value. -/
def read : Value → String → Eval Value := readWithin nestingLimit

end World

/-- The value of an expression. -/
def Expr.eval (s : Scope) (e : Expr) : Eval Value := e.evalWith World.read s

namespace World

/-- Calls a value that was read from an object. -/
def call (v : Value) : Eval Value := do
  match v with
  | .method (.object id) name =>
    let w ← get
    match (w.object? id).bind fun o => w.schema.defined? o.type name with
    | some (.method e) => e.eval (.of (.object id))
    | some (.static e) => e.eval (.of .none)
    | _ => Eval.fail .wrongType
  | _ => Eval.fail .wrongType

/-- The readable fields of an object with their values, for showing it. -/
def snapshot (w : World) (id : ObjectId) : List (String × Value) :=
  match w.object? id with
  | none => []
  | some o =>
    let names := (w.schema.lineOf o.type).flatMap fun d =>
      d.members.filterMap fun m => match m.body with
        | .field .. => some m.name
        | _ => none
    names.eraseDups.filterMap fun name =>
      match ((read (.object id) name).run w).1 with
      | .ok v => some (name, v)
      | .error _ => none

/-- Whether a value is nested deeper than `n` values. -/
def isNestedBeyond (w : World) : Nat → Value → Bool
  | 0, _ => true
  | n + 1, v =>
    match v with
    | .list xs | .tuple xs | .set xs => xs.any (isNestedBeyond w n)
    | .dict es => es.any fun e => isNestedBeyond w n e.2
    | .object id => (w.snapshot id).any fun e => isNestedBeyond w n e.2
    | _ => false

/-- Whether a value is nested deeper than can be shown, as an object that holds itself is. -/
def isEndless (w : World) (v : Value) : Bool := w.isNestedBeyond (4 * nestingLimit) v

end World

/-! ## 3. Predicates that wait -/

/-- How waiting is dealt with: not at all, for as long as it takes, or with a time limit, which may
have run out from the start. -/
inductive Drive
  | immediate
  | patient
  | limited (exhausted : Bool)
  deriving DecidableEq, Repr

/-- What a pause leads to. -/
def Drive.wait (d : Drive) (p : Pause) : Except Fault Unit :=
  match p, d with
  | .none, _ => .ok ()
  | _, .immediate => .error .suspended
  | .once, .patient => .ok ()
  | .once, .limited exhausted => if exhausted then .error .timedOut else .ok ()
  | .forever, _ => .error .timedOut

/-- The answer of a predicate that may wait. -/
def AsyncPredicate.eval (d : Drive) (s : Scope) (p : AsyncPredicate) : Eval Value := do
  Eval.lift (d.wait p.pause)
  p.body.eval s

end MemberRules
