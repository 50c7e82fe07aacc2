/-
# Running checks

What a check says of a value: a value passes, fails, or fails with a message of its own. Missing
values pass the checks of length, range and format, so that only `required` and its relatives, the
e-mail check and the comparisons ask for a value. A predicate may fail as an expression does.
-/
import MemberRules.Attribute.Basic
import MemberRules.Format.Email
import MemberRules.Format.Phone
import MemberRules.Format.WebAddress
import MemberRules.Message.Basic
import MemberRules.Model.Evaluation
import MemberRules.Pattern.Match

namespace MemberRules

/-- What a check says of a value. -/
structure Outcome where
  passed : Bool
  /-- A message that goes before all others. -/
  message : Option String := none
  deriving DecidableEq, Repr, Inhabited

/-- Whether a value counts as missing: nothing, white space, or a collection without elements.
Bytes are never missing. -/
def Value.isBlank : Value → Bool
  | .none => true
  | .text s => Text.isBlankText s
  | .comparator _ => false
  | .bytes _ => false
  | v => v.size? == some 0

namespace Check

/-- Whether a number is zero. -/
def isZero (v : Value) : Bool := !v.truthy

/-- Whether a size lies between bounds. -/
def sizeBetween (min max : Option Value) (n : Nat) : Eval Bool := do
  let size := Value.int n
  let low ← match min with
    | some m => Eval.compareValues .lessOrEqual m size
    | none => pure true
  if !low then return false
  match max with
  | some m => Eval.compareValues .lessOrEqual size m
  | none => return true

/-- Whether the size of a value lies between bounds; a missing value passes. -/
def hasSize (min max : Option Value) (v : Value) : Eval Bool := do
  match v with
  | .none => return true
  | v =>
    match v.size? with
    | some n => sizeBetween min max n
    | none => return false

/-- A comparison in which values that do not compare simply fail it. -/
def holds (c : Comparator) (a b : Value) : Eval Bool := do
  let w ← get
  match Value.compareBy w.sameObject c a b with
  | .ok b => return b
  | .error .wrongType => return false
  | .error e => Eval.fail e

/-- Whether a value lies between bounds; a missing value passes. -/
def inBounds (min max : Value) (v : Value) : Eval Bool := do
  match v with
  | .none => return true
  | v =>
    let low ← match min with
      | .none => pure true
      | m => holds .greaterOrEqual v m
    if !low then return false
    match max with
    | .none => return true
    | m => holds .lessOrEqual v m

/-- Whether a text satisfies a test; a missing value passes. -/
def textOrMissing (test : String → Bool) (v : Value) : Bool :=
  match v with
  | .none => true
  | v => match v.text? with
    | some s => test s
    | none => false

/-- What a check of a single value says; `await` answers the predicates that may wait. -/
def accepts (await : AsyncPredicate → Eval Value) (v : Value) : Check → Eval Bool
  | required allowEmpty => return (v.text?.isSome && allowEmpty) || !v.isBlank
  | notEmpty => return if v.isNumber then !isZero v else !v.isBlank
  | empty => return if v.isNumber then isZero v else v.isBlank
  | stringLength max min => do
    match v with
    | .none => return true
    | v =>
      match v.text? with
      | some s => sizeBetween (some min) (some max) s.length
      | none => return false
  | minLength n => hasSize (some n) none v
  | maxLength n => hasSize none (some n) v
  | length min max => hasSize (some min) (some max) v
  | exactLength n => do
    match v with
    | .none => return true
    | v =>
      match v.size? with
      | some size => Eval.compareValues .equal (.int size) n
      | none => Eval.compareValues .equal .none n
  | range min max => inBounds min max v
  | minimum m => inBounds m .none v
  | maximum m => inBounds .none m v
  | pattern _ p => return textOrMissing (fun s => s.isEmpty || p.matchesWhole s) v
  | email => return match v.text? with
    | some s => Email.accepts s
    | none => false
  | url schemes => return textOrMissing (WebAddress.accepts schemes) v
  | phone => return textOrMissing Phone.accepts v
  | compare .. => Eval.fail .wrongType
  | equal e => Eval.compareValues .equal v e
  | notEqual e => Eval.compareValues .notEqual v e
  | must e => do return (← e.eval (.of v)).truthy
  | mustAsync p => do return (← await p).truthy
  | childRules _ | validateWith _ | validateEach _ => return true
  | custom _ _ _ _ e => do return (← e.eval (.of v)).truthy

/-- Answers a predicate of a value that may wait. -/
def awaiting (d : Drive) (v : Value) (p : AsyncPredicate) : Eval Value := p.eval d (.of v)

/-- What a check says of a value alone; predicates that wait are waited for. -/
def acceptsAlone (v : Value) (c : Check) : Eval Bool := c.accepts (awaiting .patient v) v

/-- What a comparison says of a value and the object that owns it. A member that the object does
not have is a failure with a message of its own. -/
def compareMembers (other : String) (c : Comparator) (v owner : Value) : Eval Outcome := do
  let w ← get
  let t := w.typeOf owner
  if !w.schema.hasMember t other then
    return ⟨false, some ("Property '" ++ other ++ "' not found on type '" ++ t.name ++ "'.")⟩
  let x ← World.read owner other
  return ⟨← holds c v x, none⟩

/-- What a check says of a value of an object. -/
def runWith (d : Drive) (v owner : Value) : Check → Eval Outcome
  | compare other c => compareMembers other c v owner
  | c => do return ⟨← c.accepts (awaiting d v) v, none⟩

/-- What a check says of a value of an object, asked for without waiting for others. -/
def run (v owner : Value) (c : Check) : Eval Outcome := c.runWith .patient v owner

end Check

namespace Attribute

/-- An attribute with its arguments as a text shows them. -/
def captured (w : World) (a : Attribute) : Attribute :=
  { a with check := a.check.mapArgs w.captured }

/-- The message of an attribute for a member, from its own template. A template that does not fit
its arguments is returned as it is. -/
def defaultMessage (a : Attribute) (name : String) (culture : Option Culture) : Except Fault String :=
  match Message.fill a.template culture (.text name :: a.check.args) with
  | .ok s => .ok s
  | .error .noIndex | .error .noKey | .error .badValue => .ok a.template
  | .error e => .error e

end Attribute
end MemberRules
