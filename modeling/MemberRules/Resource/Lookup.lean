/-
# Remembered look-ups

Looking up the string of a key is remembered by resource, key and name of the culture, a miss as
well as a string, until the memory is cleared. Only a look-up that is not remembered asks the
resource, and only then a miss is written to the log. A fault of the resource is not remembered.
-/
import MemberRules.Log
import MemberRules.Resource.Basic

namespace MemberRules

/-- What a look-up is remembered by. -/
structure LookupKey where
  resource : Option String
  key : String
  culture : String
  deriving DecidableEq, Repr

/-- The look-ups that are remembered, and the log. -/
structure Lookups where
  known : List (LookupKey × Except AppError String) := []
  log : List Log.Event := []
  deriving Inhabited

/-- A computation that may look up strings. -/
abbrev Lookup (α : Type) := ExceptT Fault (StateM Lookups) α

namespace Lookups

/-- The event of a miss. -/
def missEvent (k : LookupKey) (e : AppError) : Log.Event :=
  { logger := "resolver", name := "resource_miss",
    fields := [("key", .text k.key), ("culture", .text k.culture), ("reason", .text e.message)] }

/-- The event of a string that cannot be filled in. -/
def unfilledEvent (key : String) : Log.Event :=
  { logger := "resolver", name := "resource_format_failed", fields := [("key", .text key)] }

/-- The log entries of an answer that was not remembered. -/
def newEvents (k : LookupKey) : Except AppError String → List Log.Event
  | .ok _ => []
  | .error e => [missEvent k e]

/-- Looks up the string of a key, from memory if it is remembered. -/
def find (rs : Resources) (resource : Option String) (key : String) (culture : Option Culture) :
    Lookup (Except AppError String) := fun m =>
  let k : LookupKey := ⟨resource, key, Culture.nameOf culture⟩
  match m.known.lookup k with
  | some answer => (.ok answer, m)
  | none =>
    match rs.find resource key culture with
    | .error e => (.error e, m)
    | .ok answer =>
      (.ok answer, { known := m.known ++ [(k, answer)], log := m.log ++ newEvents k answer })

end Lookups
end MemberRules
