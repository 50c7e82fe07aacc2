/-
# Sets of characters given by code point ranges

The character classes of this library are tables: ascending, disjoint ranges of code points.
`CodeRanges.has` searches one from the left and stops at the first range that begins above the
code point, so a table for the whole code space costs nothing for the characters at its start.
-/

namespace MemberRules
namespace Text

/-- A set of characters: inclusive ranges of code points, ascending and disjoint. -/
abbrev CodeRanges := List (Nat × Nat)

/-- Whether the code point lies in one of the ranges. -/
def CodeRanges.has : CodeRanges → Nat → Bool
  | [], _ => false
  | (lo, hi) :: rest, n => if n < lo then false else n ≤ hi || CodeRanges.has rest n

/-- A run of a case mapping: every `stride`-th code point from `first` to `last` moves by `shift`. -/
structure CaseRun where
  first : Nat
  last : Nat
  stride : Nat
  shift : Int

/-- The image of a code point under a table of runs, itself where no run covers it. -/
def mapCase : List CaseRun → Nat → Nat
  | [], n => n
  | r :: rest, n =>
    if n < r.first then n
    else if n ≤ r.last && (n - r.first) % r.stride == 0 then ((n : Int) + r.shift).toNat
    else mapCase rest n

/-- The code point that a run maps to the given one. -/
def CaseRun.source? (r : CaseRun) (n : Nat) : Option Nat :=
  let source := ((n : Int) - r.shift).toNat
  if r.first ≤ source && source ≤ r.last && (source - r.first) % r.stride == 0 then some source
  else none

end Text
end MemberRules
