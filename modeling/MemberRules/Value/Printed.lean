/-
# The text of a value

`Value.printed` is the text that stands for a value in a message; `Value.shown` the text of a
value inside a collection, where texts are quoted and dates, decimals and types name their kind.

A whole number with more digits than can be written has no text, nor has a collection with such a
number in it: `printed?` and `shown?` fail where a text is asked for.
-/
import MemberRules.Fault
import MemberRules.Text.Quoted

namespace MemberRules

open Number (natText intText)

/-- Items with a comma and a space between them. -/
def commaSeparated (items : List String) : String := ", ".intercalate items

namespace Value

/-- The text of a truth value. -/
def boolText (b : Bool) : String := if b then "True" else "False"

/-- The microseconds as the last part of a moment; the seconds are left out with them when both
are zero. -/
def secondsParts (t : TimeOfDay) : List Nat :=
  if t.micro != 0 then [t.second, t.micro] else if t.second != 0 then [t.second] else []

/-- The parts of a moment as the arguments of its kind. -/
def momentText (kind : String) (parts : List Nat) : String :=
  kind ++ "(" ++ commaSeparated (parts.map natText) ++ ")"

/-- A type with its module; the types that every module knows stand alone, and so does the type of
every value. -/
def typeText (t : TypeId) : String :=
  if t == .builtin .any then t.qualifiedName
  else "<class '" ++ (if t.module == "builtins" then t.name else t.qualifiedName) ++ "'>"

/-- Integers in ascending order; other elements keep their places. -/
def setOrder (xs : List Value) : List Value :=
  if xs.all fun x => x.int?.isSome then
    xs.mergeSort fun a b => (a.int?.getD 0) ≤ (b.int?.getD 0)
  else xs

/-- The text inside the parentheses of a tuple. -/
def tupleText : List String → String
  | [x] => "(" ++ x ++ ",)"
  | xs => "(" ++ commaSeparated xs ++ ")"

mutual

/-- The text of a value inside a collection. -/
def shown : Value → String
  | none => "None"
  | bool b => boolText b
  | int i => intText i
  | float x => x.text
  | decimal x => "Decimal('" ++ x.text ++ "')"
  | text s => Text.quote s
  | bytes bs => Text.quoteBytes bs
  | date d => momentText "datetime.date" [d.year, d.month, d.day]
  | dateTime t =>
    momentText "datetime.datetime"
      ([t.date.year, t.date.month, t.date.day, t.time.hour, t.time.minute] ++ secondsParts t.time)
  | time t => momentText "datetime.time" ([t.hour, t.minute] ++ secondsParts t)
  | list xs => "[" ++ commaSeparated (shownAll xs) ++ "]"
  | tuple xs => tupleText (shownAll xs)
  | set xs => if xs.isEmpty then "set()" else "\x7b" ++ commaSeparated (shownAll xs) ++ "\x7d"
  | dict es => "\x7b" ++ commaSeparated (shownEntries es) ++ "\x7d"
  | enumMember t n v => "<" ++ t ++ "." ++ n ++ ": " ++ shown v ++ ">"
  | comparator c => "<ComparisonOperator." ++ c.constant ++ ": '" ++ c.name ++ "'>"
  | type t => typeText t
  | object _ => "<object>"
  | method _ n => "<bound method " ++ n ++ ">"
  | record t fs => t ++ "(" ++ commaSeparated (shownFields fs) ++ ")"

/-- The texts of the elements of a collection. -/
def shownAll : List Value → List String
  | [] => []
  | x :: xs => shown x :: shownAll xs

/-- The texts of the entries of a dictionary. -/
def shownEntries : List (Value × Value) → List String
  | [] => []
  | (k, v) :: es => (shown k ++ ": " ++ shown v) :: shownEntries es

/-- The texts of the fields of a record. -/
def shownFields : List (String × Value) → List String
  | [] => []
  | (n, v) :: fs => (n ++ "=" ++ shown v) :: shownFields fs

end

/-- The text that stands for a value in a message. -/
def printed : Value → String
  | text s => s
  | decimal x => x.text
  | date d => d.text
  | dateTime t => t.textWith " "
  | time t => t.text
  | enumMember t n _ => t ++ "." ++ n
  | comparator c => "ComparisonOperator." ++ c.constant
  | record _ fs => " ".intercalate (shownFields fs)
  | v => shown v

/-! ## Values without a text -/

/-- The least whole number with too many digits to be written. -/
def unwritableFrom : Nat := Number.tenTo Number.digitLimit

mutual

/-- Whether a value has a text inside a collection. -/
def isShowable : Value → Bool
  | int i => i.natAbs < unwritableFrom
  | list xs | tuple xs | set xs => areShowable xs
  | dict es => entriesShowable es
  | enumMember _ _ v => isShowable v
  | record _ fs => fieldsShowable fs
  | _ => true

/-- Whether all values of a list have a text. -/
def areShowable : List Value → Bool
  | [] => true
  | x :: xs => isShowable x && areShowable xs

/-- Whether all keys and values of a dictionary have a text. -/
def entriesShowable : List (Value × Value) → Bool
  | [] => true
  | (k, v) :: es => isShowable k && isShowable v && entriesShowable es

/-- Whether all fields of a record have a text. -/
def fieldsShowable : List (String × Value) → Bool
  | [] => true
  | (_, v) :: fs => isShowable v && fieldsShowable fs

end

/-- Whether a value has a text in a message. -/
def isPrintable : Value → Bool
  | enumMember .. => true
  | v => isShowable v

/-- The text of a value in a message, if it has one. -/
def printed? (v : Value) : Except Fault String :=
  if v.isPrintable then .ok v.printed else .error .badValue

/-- The text of a value inside a collection, if it has one. -/
def shown? (v : Value) : Except Fault String :=
  if v.isShowable then .ok v.shown else .error .badValue

end Value
end MemberRules
