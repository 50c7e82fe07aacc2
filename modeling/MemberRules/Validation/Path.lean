/-
# Paths of failures

The path of a failure leads from the validated object to the value that failed: the names of the
members with points between them, and after a member of a collection the index of the element in
brackets. `Path.indices` finds the innermost index of a path and the one that encloses it; an index
with too many digits cannot be read.
-/
import MemberRules.Fault
import MemberRules.Text.Digit

namespace MemberRules
namespace Path

/-- The path of a member of the object at a path; the validated object itself has the empty path. -/
def member (path name : String) : String := if path.isEmpty then name else path ++ "." ++ name

/-- The path of an element of the collection at a path. -/
def element (path : String) (index : Nat) : String :=
  path ++ "[" ++ Number.natText index ++ "]"

/-- The indices in brackets, from left to right: digits of any script and nothing else between an
opening bracket and the next closing one. Every step reads a character, so `fuel` as large as the
text suffices. -/
def indicesFrom : Nat → List Char → List (List Char)
  | 0, _ => []
  | _, [] => []
  | fuel + 1, c :: r =>
    if c == '[' then
      let digits := r.takeWhile Text.isDecimalDigit
      match digits.isEmpty, r.drop digits.length with
      | false, ']' :: rest => digits :: indicesFrom fuel rest
      | _, _ => indicesFrom fuel r
    else indicesFrom fuel r

/-- The number that the digits of an index denote. -/
def readIndex (digits : List Char) : Except Fault Nat :=
  match Text.readDecimal? digits with
  | some n => if digits.length > Number.digitLimit then .error .badValue else .ok n
  | none => .error .badValue

/-- The innermost index of a path and the one that encloses it. -/
def indices (path : String) : Except Fault (Option Nat × Option Nat) := do
  match (← (indicesFrom path.length path.toList).mapM readIndex).reverse with
  | [] => return (none, none)
  | [i] => return (some i, none)
  | i :: j :: _ => return (some i, some j)

end Path
end MemberRules
