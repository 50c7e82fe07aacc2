/-
# Values

What a member of a model object holds: nothing, a truth value, a number, a text, bytes, a moment
of the calendar, a collection of values, a member of an enumeration, a type, or a reference to
another object. Collections are immutable values; objects have identity and live in a store.
-/
import MemberRules.Number.Exact
import MemberRules.Calendar

namespace MemberRules

/-! ## 1. Types by name -/

/-- The types that every model knows. Among them are the bases that enumerations, record types and
types with a rule on every member have in common. -/
inductive BuiltinType
  | nothing | bool | int | float | text | bytes | decimal | date | dateTime | time
  | list | tuple | set | dict | object | any | type | comparator | method
  | enumBase | recordBase | validatableBase
  deriving DecidableEq, Repr, Inhabited

/-- A type: built in, declared by the model, or an enumeration known by its name. -/
inductive TypeId
  | builtin (t : BuiltinType)
  | declared (name : String)
  | enumeration (name : String)
  deriving DecidableEq, Repr, Inhabited

/-- The name of a built-in type. -/
def BuiltinType.name : BuiltinType → String
  | nothing => "NoneType"
  | bool => "bool"
  | int => "int"
  | float => "float"
  | text => "str"
  | bytes => "bytes"
  | decimal => "Decimal"
  | date => "date"
  | dateTime => "datetime"
  | time => "time"
  | list => "list"
  | tuple => "tuple"
  | set => "set"
  | dict => "dict"
  | object => "object"
  | any => "Any"
  | type => "type"
  | comparator => "ComparisonOperator"
  | method => "method"
  | enumBase => "Enum"
  | recordBase => "BaseModel"
  | validatableBase => "FluentValidatable"

/-- The module that a built-in type belongs to. -/
def BuiltinType.module : BuiltinType → String
  | decimal => "decimal"
  | date | dateTime | time => "datetime"
  | any => "typing"
  | enumBase => "enum"
  | recordBase => "pydantic.main"
  | comparator | validatableBase => "fluent_annotations.validation.annotations"
  | _ => "builtins"

namespace TypeId

/-- The plain name of a type. -/
def name : TypeId → String
  | builtin t => t.name
  | declared n | enumeration n => n

/-- The module of a type; the types of a model belong to the module `m`. -/
def module : TypeId → String
  | builtin t => t.module
  | declared _ | enumeration _ => "m"

/-- The name of a type with its module. -/
def qualifiedName (t : TypeId) : String := t.module ++ "." ++ t.name

end TypeId

/-! ## 2. Values -/

/-- The comparisons between two members. -/
inductive Comparator
  | equal | notEqual | greater | greaterOrEqual | less | lessOrEqual
  deriving DecidableEq, Repr

/-- The identity of an object in the store. -/
abbrev ObjectId := Nat

/-- A value. -/
inductive Value
  | none
  | bool (b : Bool)
  | int (i : Int)
  | float (x : Number.Binary64)
  | decimal (x : Number.Decimal)
  | text (s : String)
  | bytes (bs : List UInt8)
  | date (d : Date)
  | dateTime (t : DateTime)
  | time (t : TimeOfDay)
  | list (xs : List Value)
  | tuple (xs : List Value)
  | set (xs : List Value)
  | dict (entries : List (Value × Value))
  /-- A member of the enumeration `type`, equal only to itself. -/
  | enumMember (type name : String) (value : Value)
  | comparator (c : Comparator)
  | type (t : TypeId)
  | object (id : ObjectId)
  /-- A function, or another member without a written form, that was read from a value and not
  called. -/
  | method (owner : Value) (name : String)
  /-- What an object of a record type held at one moment. -/
  | record (type : String) (fields : List (String × Value))
  deriving Inhabited

/-- Texts of the comparisons, as declarations name them. -/
def Comparator.name : Comparator → String
  | equal => "Equal"
  | notEqual => "NotEqual"
  | greater => "GreaterThan"
  | greaterOrEqual => "GreaterThanOrEqual"
  | less => "LessThan"
  | lessOrEqual => "LessThanOrEqual"

/-- The constant that stands for a comparison. -/
def Comparator.constant : Comparator → String
  | equal => "EQUAL"
  | notEqual => "NOT_EQUAL"
  | greater => "GREATER_THAN"
  | greaterOrEqual => "GREATER_THAN_OR_EQUAL"
  | less => "LESS_THAN"
  | lessOrEqual => "LESS_THAN_OR_EQUAL"

/-- All comparisons. -/
def Comparator.all : List Comparator :=
  [equal, notEqual, greater, greaterOrEqual, less, lessOrEqual]

/-- The comparison of a name. -/
def Comparator.ofName? (s : String) : Option Comparator :=
  Comparator.all.find? fun c => c.name == s

namespace Value

/-- The characters of a text; a comparison is also a text, its name. -/
def text? : Value → Option String
  | text s => some s
  | comparator c => some c.name
  | _ => Option.none

/-- The exact value of a number; truth values count as zero and one. -/
def number? : Value → Option Number.Exact
  | bool b => some (.ofInt (if b then 1 else 0))
  | int i => some (.ofInt i)
  | float x => some (.ofBinary64 x)
  | decimal x => some (.ofDecimal x)
  | _ => Option.none

/-- An integer; truth values count as zero and one. -/
def int? : Value → Option Int
  | bool b => some (if b then 1 else 0)
  | int i => some i
  | _ => Option.none

/-- Whether a value is a number; truth values are not. -/
def isNumber : Value → Bool
  | int _ | float _ | decimal _ => true
  | _ => false

/-- The number of elements or characters, for a value that has a size. -/
def size? : Value → Option Nat
  | text s => some s.length
  | comparator c => some c.name.length
  | bytes bs => some bs.length
  | list xs | tuple xs | set xs => some xs.length
  | dict es => some es.length
  | _ => Option.none

/-- Whether a value counts as true where a condition is asked for. -/
def truthy : Value → Bool
  | none => false
  | bool b => b
  | int i => i != 0
  | float x => !x.isZero
  | decimal x => !x.isZero
  | text s => !s.isEmpty
  | bytes bs => !bs.isEmpty
  | list xs | tuple xs | set xs => !xs.isEmpty
  | dict es => !es.isEmpty
  | _ => true

/-- The elements that a collection is checked by: those of a list, a tuple or a set and the values
of a dictionary. Everything else, texts and bytes among it, has none. -/
def elements : Value → List Value
  | list xs | tuple xs | set xs => xs
  | dict es => es.map Prod.snd
  | _ => []

end Value
end MemberRules
