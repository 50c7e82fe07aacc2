/-
# Failures and results

A failure says which value failed which check, where, and with which message. Two failures count as
one when they come from the same member and the same kind of check, whatever their messages and
paths. A result lists the failures of a validation, in the order in which they were found.
-/
import MemberRules.Model.Member
import MemberRules.Value.Printed

namespace MemberRules

/-- A failed check. -/
structure Failure where
  path : String
  message : String
  attempted : Value := .none
  index : Option Int := none
  parentIndex : Option Int := none
  state : Option Details := none
  code : Option String := none
  member : Option MemberRef := none
  /-- The kind of the check. -/
  kind : Option String := none
  deriving Inhabited

/-- What makes two failures count as one. -/
structure FailureIdentity where
  /-- The member, or the path of a failure without one. -/
  place : MemberKey ⊕ String
  kind : Option String
  deriving DecidableEq

namespace Failure

/-- The identity of a failure. -/
def identity (f : Failure) : FailureIdentity :=
  ⟨match f.member with
    | some m => .inl m.key
    | none => .inr f.path, f.kind⟩

/-- The last name of a path. -/
def lastName (path : String) : String := (path.splitOn ".").getLastD path

/-- The name of the member that failed. -/
def memberName (f : Failure) : String :=
  match f.member with
  | some m => m.name
  | none => lastName f.path

/-- A failure in one line. -/
def describe (f : Failure) (separator : String := ": ") : String :=
  f.path ++ separator ++ f.message ++
    match f.index with
    | some i => " (index " ++ Number.intText i ++ ")"
    | none => ""

/-- A detail that is there only if it is set. -/
def optionalDetail (name : String) (v : Option Value) : Details :=
  match v with
  | some v => [(name, v)]
  | none => []

/-- The value that failed, unless it is nothing. -/
def attempted? (f : Failure) : Option Value :=
  match f.attempted with
  | .none => none
  | v => some v

/-- A failure as named values; what is not set is left out. -/
def toDetails (f : Failure) : Details :=
  [("property_name", .text f.path), ("error_message", .text f.message)] ++
    optionalDetail "attempted_value" f.attempted? ++
    optionalDetail "collection_index" (f.index.map .int) ++
    optionalDetail "parent_collection_index" (f.parentIndex.map .int) ++
    optionalDetail "error_code" ((f.code.filter fun c => !c.isEmpty).map .text) ++
    optionalDetail "custom_state" ((f.state.filter fun s => !s.isEmpty).map fun s =>
      .dict (s.map fun e => (.text e.1, e.2)))

/-- A failure as a dictionary. -/
def toValue (f : Failure) : Value := .dict (f.toDetails.map fun e => (.text e.1, e.2))

end Failure

/-- The failures of a validation. -/
structure ValidationResult where
  failures : List Failure := []
  deriving Inhabited

namespace ValidationResult

/-- Whether nothing failed. -/
def isValid (r : ValidationResult) : Bool := r.failures.isEmpty

/-- The failures at a path. -/
def failuresAt (r : ValidationResult) (path : String) : List Failure :=
  r.failures.filter fun f => f.path == path

/-- The paths with failures, in the order of the first one at each, with the number of failures. -/
def countByPath (r : ValidationResult) : List (String × Nat) :=
  (r.failures.map Failure.path).eraseDups.map fun p => (p, (r.failuresAt p).length)

/-- A result as an error: the only failure, or the number of failures. -/
def toError (r : ValidationResult) : AppError :=
  match r.failures with
  | [f] => ⟨.validationGeneric, f.describe, f.toDetails, "validation"⟩
  | fs =>
    ⟨.validationGeneric, "Validation failed: " ++ Number.natText fs.length ++ " errors",
      [("error_count", .int fs.length), ("errors", .list (fs.map Failure.toValue))],
      "validation"⟩

/-- Fails with the failures of a result that is not valid. -/
def raiseIfInvalid (r : ValidationResult) : Except Fault Unit :=
  if r.isValid then .ok () else .error (.invalidResult r.toError)

/-- The first of the failures with each identity and path, in order. -/
def firstOccurrences (fs : List Failure) : List Failure :=
  fs.foldl (fun kept f =>
    if kept.any fun g => g.identity == f.identity && g.path == f.path then kept else kept ++ [f]) []

/-- Combines results; of equal failures at one path the first is kept. -/
def merge (rs : List ValidationResult) : ValidationResult :=
  ⟨firstOccurrences (rs.flatMap failures)⟩

end ValidationResult
end MemberRules
