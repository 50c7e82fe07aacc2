/-
# The log

A log event has a logger, a level, a name and fields. A line of the log adds the package's name and
version, unless the event sets them, and the fields bound to the context; the fields of the event
win. An attempted value is shown as a text that is cut when it is too long. Only events at or above
the level of the log make a line, and an event with a value that no line can hold makes none.

An event that cannot be put together is a fault, whatever its level: a field under a name that the
event itself needs, or an attempted value without a text.
-/
import MemberRules.Fault
import MemberRules.Text.Case
import MemberRules.Text.Utf8
import MemberRules.Value.Printed

namespace MemberRules
namespace Log

/-- The levels of events. -/
inductive Level
  | debug | info | warning | error | critical
  deriving DecidableEq, Repr, Inhabited

namespace Level

/-- The number of a level. -/
def number : Level → Nat
  | debug => 10
  | info => 20
  | warning => 30
  | error => 40
  | critical => 50

/-- The word for a level. -/
def name : Level → String
  | debug => "debug"
  | info => "info"
  | warning => "warning"
  | error => "error"
  | critical => "critical"

/-- The level of a logging method. -/
def ofMethod (name : String) : Except Fault Level :=
  match name with
  | "debug" => .ok debug
  | "info" => .ok info
  | "warning" | "warn" => .ok warning
  | "error" | "exception" => .ok error
  | "critical" | "fatal" => .ok critical
  | _ => .error .noAttribute

end Level

/-- The level of a log: the number of its name in any case, and the one of information for a name
that means nothing. Two names mean something else than a level, the one a text, which names no
level either, and the other a table. -/
def threshold (name : String) : Except Fault Nat :=
  match Text.upper name with
  | "CRITICAL" | "FATAL" => .ok 50
  | "ERROR" => .ok 40
  | "WARNING" | "WARN" => .ok 30
  | "INFO" => .ok 20
  | "DEBUG" => .ok 10
  | "NOTSET" => .ok 0
  | "BASIC_FORMAT" => .error .badValue
  | "_STYLES" => .error .wrongType
  | _ => .ok 20

/-- The least number of a level that makes a line: a log without a level of its own takes the one
of warnings. -/
def effective (threshold : Nat) : Nat := if threshold == 0 then 30 else threshold

/-- An event. -/
structure Event where
  logger : String
  level : Level := .debug
  name : String
  fields : Details := []
  deriving Inhabited

/-- The longest text of an attempted value. -/
def longest : Nat := 120

/-- The text of an attempted value. -/
def attemptedText (v : Value) : Except Fault String := do
  let s ← v.shown?
  return if s.length ≤ longest then s
    else String.ofList (s.toList.take (longest - 3)) ++ "..."

/-- The fields of an event with an attempted value shown as a text. -/
def showAttempted (fields : Details) : Except Fault Details :=
  match fields.lookup "attempted_value" with
  | none | some .none => .ok fields
  | some v => do return fields.set "attempted_value" (.text (← attemptedText v))

/-- Bytes are written as the text that they encode. -/
def decodeBytes : Value → Value
  | .bytes bs => .text (Text.decode bs)
  | v => v

/-- The text of a binary number as a key. -/
def floatKey : Number.Binary64 → String
  | .nan _ => "NaN"
  | .infinite negative => if negative then "-Infinity" else "Infinity"
  | x => x.text

/-- The key of a dictionary in a line: nothing, a truth value, a number or a text. -/
def key? : Value → Option String
  | .none => some "null"
  | .bool b => some (if b then "true" else "false")
  | .int i => (Value.shown? (.int i)).toOption
  | .float x => some (floatKey x)
  | v => v.text?

mutual

/-- A value in a line: texts, numbers, lists and dictionaries, and the text of everything else. A
key of another kind has no place in a line, nor has a value without a text. -/
def plain? : Value → Option Value
  | .none => some .none
  | .bool b => some (.bool b)
  | .int i => (Value.shown? (.int i)).toOption.map fun _ => .int i
  | .float x => some (.float x)
  | .text s => some (.text s)
  | .comparator c => some (.text c.name)
  | .list xs => (plainAll? xs).map .list
  | .tuple xs => (plainAll? xs).map .list
  | .dict es => (plainEntries? es).map .dict
  | v => v.shown?.toOption.map .text

/-- The values of a list in a line. -/
def plainAll? : List Value → Option (List Value)
  | [] => some []
  | x :: xs => do return (← plain? x) :: (← plainAll? xs)

/-- The entries of a dictionary in a line. -/
def plainEntries? : List (Value × Value) → Option (List (Value × Value))
  | [] => some []
  | (k, v) :: es => do return (.text (← key? k), ← plain? v) :: (← plainEntries? es)

end

/-- Puts a value under a name unless the name is present. -/
def setDefault (fields : Details) (name : String) (v : Value) : Details :=
  if fields.any fun e => e.1 == name then fields else fields ++ [(name, v)]

/-- The names of what an event consists of besides its fields; no field has one. -/
def takenNames : List String := ["self", "event", "method_name"]

/-- The fields that say how a line is made and are not part of it. -/
def hiddenNames : List String :=
  ["timestamp", "exc_info", "stack_info", "_record", "_from_structlog"]

/-- Whether a value is a dictionary with entries. -/
def isFilledDict : Value → Bool
  | .dict es => !es.isEmpty
  | _ => false

/-- Uses up arguments by position, of which the name of an event has no use: a sequence or table
that could be looked up in is left alone, and other arguments would have had to find a place. -/
def useUp (args : Value) : Except Fault Unit :=
  match args with
  | .list _ | .bytes _ => .ok ()
  | .tuple [x] => if isFilledDict x then .ok () else .error .wrongType
  | .dict [(k, _)] => if k.int? == some 0 then .ok () else .error .noKey
  | .dict _ => .ok ()
  | v => if v.truthy then .error .wrongType else .ok ()

/-- The fields without arguments by position, which are no field. -/
def withoutPositional (fields : Details) : Except Fault Details := do
  match fields.lookup "positional_args" with
  | none | some .none => return fields
  | some args =>
    useUp args
    return fields.filter fun f => f.1 != "positional_args"

/-- Checks the place of a record of the log: no field can stand for one. -/
def checkRecord (fields : Details) : Except Fault Unit :=
  match fields.lookup "_record" with
  | none | some .none => .ok ()
  | some _ => .error .noAttribute

/-- The fields of a line of the log, for an event in a context. -/
def fieldsOf (context : Details) (e : Event) : Except Fault Details := do
  if e.fields.any fun f => takenNames.contains f.1 then throw .wrongType
  let given : Details := e.fields.foldl (fun d f => d.set f.1 f.2) context
  checkRecord given
  let given ← withoutPositional given
  let decoded : Details := given.map fun f => (f.1, decodeBytes f.2)
  let named : Details := ((decoded.set "event" (.text e.name)).set "level"
    (.text e.level.name)).set "logger" (.text ("fluent_annotations." ++ e.logger))
  let served := setDefault named "service" (.text "fluent-annotations")
  let fields ← showAttempted (setDefault served "version" (.text "0.1.0"))
  return fields.filter fun f => !hiddenNames.contains f.1

/-- A line of the log for its fields, if every value has a place in it. -/
def line? (fields : Details) : Option Details :=
  fields.mapM fun f => (plain? f.2).map fun v => (f.1, v)

/-- What happens to a log. -/
inductive Action
  | bind (fields : Details)
  | clear
  | event (e : Event)

/-- The lines that actions lead to, in a context and at a level. -/
def lines (threshold : Nat) : Details → List Action → Except Fault (List Details)
  | _, [] => .ok []
  | context, .bind fields :: rest =>
    lines threshold (fields.foldl (fun d f => d.set f.1 f.2) context) rest
  | _, .clear :: rest => lines threshold [] rest
  | context, .event e :: rest => do
    let fields ← fieldsOf context e
    let line := if e.level.number ≥ effective threshold then line? fields else none
    return line.toList ++ (← lines threshold context rest)

end Log
end MemberRules
