/-
# Field layouts

A layout asks for a least width, with a fill character and an alignment, and for a greatest number
of characters: `*^10`, `>6.3`, `05`. Signs, grouping and number formats belong to numbers, and
every argument of a template is a text, so they are refused.
-/
import MemberRules.Template.Basic

namespace MemberRules
namespace Template

/-- Where the text stands within its width. -/
inductive Alignment
  | left | right | center
  deriving DecidableEq, Repr

/-- A layout. -/
structure Layout where
  fill : Char := ' '
  alignment : Alignment := .left
  width : Nat := 0
  limit : Option Nat := none
  deriving DecidableEq, Repr

namespace Layout

/-- The alignment of its mark; the outer `none` says that the character is no mark, the inner one
that the alignment is refused for texts. -/
def mark? (c : Char) : Option (Option Alignment) :=
  if c == '<' then some (some .left)
  else if c == '>' then some (some .right)
  else if c == '^' then some (some .center)
  else if c == '=' then some none
  else none

/-- A fill character with an alignment mark, or a mark alone. The results are the fill character,
whether a mark was given, the alignment and the rest. -/
def scanAlignment (cs : List Char) : Option Char × Option (Option Alignment) × List Char :=
  match cs with
  | c :: d :: r =>
    match mark? d with
    | some a => (some c, some a, r)
    | none =>
      match mark? c with
      | some a => (none, some a, d :: r)
      | none => (none, none, cs)
  | [c] =>
    match mark? c with
    | some a => (none, some a, [])
    | none => (none, none, cs)
  | [] => (none, none, [])

/-- Leading decimal digits as a number, `none` beyond the greatest position. -/
def scanNumber (cs : List Char) : Option (Option Nat × List Char) :=
  let digits := cs.takeWhile Text.isDecimalDigit
  let rest := cs.drop digits.length
  match index? digits with
  | none => some (none, rest)
  | some none => none
  | some (some n) => some (some n, rest)

/-- The limit after a point. -/
def scanLimit (cs : List Char) : Option (Option Nat × List Char) :=
  match cs with
  | '.' :: r =>
    match scanNumber r with
    | some (some n, r) => some (some n, r)
    | _ => none
  | _ => some (none, cs)

/-- Reads a layout; `none` if it is malformed or asks for what texts do not have. -/
def ofText? (cs : List Char) : Option Layout := do
  let (fill, mark, r) := scanAlignment cs
  let alignment ← match mark with
    | none => some .left
    | some a => a
  let (fill, r) := match fill, r with
    | none, '0' :: r => ('0', r)
    | none, r => (' ', r)
    | some c, r => (c, r)
  let (width, r) ← scanNumber r
  let (limit, r) ← scanLimit r
  if r.isEmpty || r == ['s'] then
    some ⟨fill, alignment, width.getD 0, limit⟩
  else none

/-- A text in its layout. -/
def apply (l : Layout) (s : List Char) : List Char :=
  let s := match l.limit with
    | some n => s.take n
    | none => s
  let pad := l.width - s.length
  let before := match l.alignment with
    | .left => 0
    | .right => pad
    | .center => pad / 2
  List.replicate before l.fill ++ s ++ List.replicate (pad - before) l.fill

end Layout
end Template
end MemberRules
