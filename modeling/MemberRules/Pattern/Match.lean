/-
# Matching texts

A match is searched depth first. What is still to be tried is a list of entries, the preferred ones
first; an entry is a spot (a step of the program, a position in the text, the marks of groups and
the repetitions under way) or a row of spots at neighbouring positions. A spot at which the search
branches is never searched twice: what follows depends on the spot alone, so the first search has
failed. Hence there are finitely many turns, and `effort` bounds their number.

A repetition goes on after a turn that consumed nothing only as long as turns are required. An
assertion, and a part that matches in the first way only, is a search of its own.
-/
import Std.Data.HashSet
import MemberRules.Pattern.Program

namespace MemberRules
namespace Pattern

/-! ## 1. Spots -/

/-- A repetition under way: the step that counts its turns, their number as far as it matters, and
where the last turn that was not required began. -/
structure Underway where
  turn : Nat
  count : Nat := 0
  last : Option Nat := none
  deriving BEq, Hashable, Repr

/-- Where a search stands. -/
structure Spot where
  step : Nat
  position : Nat
  /-- Positions under marks, in the order of the marks. -/
  marks : List (Nat × Nat) := []
  /-- The repetitions under way, the innermost one first. -/
  underway : List Underway := []
  deriving BEq, Hashable, Repr

namespace Spot

/-- The spot at another step. -/
def goTo (s : Spot) (step : Nat) : Spot := { s with step }

/-- The spot at another step and position. -/
def toAt (s : Spot) (step position : Nat) : Spot := { s with step, position }

/-- Puts a position under a mark. -/
def insertMark (slot position : Nat) : List (Nat × Nat) → List (Nat × Nat)
  | [] => [(slot, position)]
  | (k, p) :: rest =>
    if k < slot then (k, p) :: insertMark slot position rest
    else if k == slot then (slot, position) :: rest
    else (slot, position) :: (k, p) :: rest

/-- What a group has matched: its first position and the one after it. -/
def matched? (s : Spot) (group : Nat) : Option (Nat × Nat) := do
  let start ← s.marks.lookup (openSlot group)
  let stop ← s.marks.lookup (closeSlot group)
  if start ≤ stop then some (start, stop) else none

end Spot

/-! ## 2. Texts -/

/-- Whether the character at a position is a word character. -/
def wordAt (plain : Bool) (text : Array Char) (i : Nat) : Bool :=
  match text[i]? with
  | some c => CharClass.word.has plain c
  | none => false

/-- Whether an anchor holds at a position. -/
def Anchor.holdsAt (a : Anchor) (text : Array Char) (i : Nat) : Bool :=
  match a with
  | first => i == 0
  | lineStart => i == 0 || text[i - 1]? == some '\n'
  | last => i == text.size || (i + 1 == text.size && text[i]? == some '\n')
  | lineEnd => i == text.size || text[i]? == some '\n'
  | veryEnd => i == text.size
  | boundary plain inside =>
    let wordBefore := i != 0 && wordAt plain text (i - 1)
    !text.isEmpty && (wordBefore != wordAt plain text i) != inside

/-- Whether the character at a position passes a test. -/
def CharTest.admitsAt (t : CharTest) (text : Array Char) (i : Nat) : Bool :=
  match text[i]? with
  | some c => t.admits c
  | none => false

/-- The number of characters in a row from a position on that pass a test, at most `limit`. -/
def CharTest.run (t : CharTest) (text : Array Char) (i : Nat) : Nat → Nat → Nat
  | 0, found => found
  | limit + 1, found =>
    if t.admitsAt text (i + found) then t.run text i limit (found + 1) else found

/-- Whether the text from a position on repeats `length` characters from `start` on. -/
def repeatsAt (rule : CaseRule) (text : Array Char) (start length i : Nat) : Bool :=
  (List.range length).all fun k =>
    match text[start + k]?, text[i + k]? with
    | some a, some b => rule.lower a.toNat == rule.lower b.toNat
    | _, _ => false

/-! ## 3. Entries -/

/-- What is still to be tried. -/
inductive Entry
  | one (s : Spot)
  /-- The spot, then the spots before it down to a position. -/
  | falling (s : Spot) (low : Nat)
  /-- The spot, then the spots after it as long as characters pass a test. -/
  | rising (s : Spot) (t : CharTest) (left : Nat)

/-- The spot that an entry begins with, and the entries for the others. -/
def Entry.split (text : Array Char) : Entry → Spot × List Entry
  | one s => (s, [])
  | falling s low =>
    (s, if s.position > low then [falling { s with position := s.position - 1 } low] else [])
  | rising s t left =>
    (s, if left > 0 && t.admitsAt text s.position then
      [rising { s with position := s.position + 1 } t (left - 1)] else [])

/-- The entries for a stretch of characters that pass a test. -/
def stretchEntries (text : Array Char) (s : Spot) (t : CharTest) (min : Nat) (max : Option Nat)
    (lazy : Bool) (next : Nat) : List Entry :=
  let left := text.size - s.position
  if left < min then []
  else
    let limit := Nat.min left (max.getD left)
    let found := t.run text s.position (if lazy then min else limit) 0
    if found < min then []
    else if lazy then [.rising (s.toAt next (s.position + min)) t (limit - min)]
    else [.falling (s.toAt next (s.position + found)) (s.position + min)]

/-- The entries at a place between two turns. -/
def turnEntries (s : Spot) (min : Nat) (max : Option Nat) (lazy : Bool) (body next : Nat) :
    List Entry :=
  match s.underway with
  | [] => []
  | u :: rest =>
    let count := Nat.min (u.count + 1) (max.getD min)
    if u.count < min then [.one { s with step := body, underway := { u with count } :: rest }]
    else
      let leave : Entry := .one { s with step := next, underway := rest }
      let more := max.all (u.count < ·) && u.last != some s.position
      let again : Entry := .one
        { s with step := body, underway := { u with count, last := some s.position } :: rest }
      if !more then [leave] else if lazy then [leave, again] else [again, leave]

/-- The entries after a step at a spot. `search` finds the first match of steps that end on their
own. -/
def Step.entries (text : Array Char) (search : Spot → Option Spot) (s : Spot) :
    Step → List Entry
  | accept => []
  | test t next =>
    if t.admitsAt text s.position then [.one (s.toAt next (s.position + 1))] else []
  | stretch t min max lazy next => stretchEntries text s t min max lazy next
  | anchor a next => if a.holdsAt text s.position then [.one (s.goTo next)] else []
  | mark slot next =>
    [.one { s with step := next, marks := Spot.insertMark slot s.position s.marks }]
  | back rule index next =>
    match s.matched? index with
    | some (start, stop) =>
      if repeatsAt rule text start (stop - start) s.position then
        [.one (s.toAt next (s.position + (stop - start)))]
      else []
    | none => []
  | either first second => [.one (s.goTo first), .one (s.goTo second)]
  | look negated width body next =>
    let found :=
      if width > s.position then none
      else search { s with step := body, position := s.position - width, underway := [] }
    match found with
    | some f => if negated then [] else [.one { s with step := next, marks := f.marks }]
    | none => if negated then [.one (s.goTo next)] else []
  | atomic body next =>
    match search { s with step := body, underway := [] } with
    | some f => [.one { s with step := next, position := f.position, marks := f.marks }]
    | none => []
  | given index yes no => [.one (s.goTo (if (s.matched? index).isSome then yes else no))]
  | enter first => [.one { s with step := first, underway := { turn := first } :: s.underway }]
  | turn min max lazy body next => turnEntries s min max lazy body next

/-- Whether a step can lead to more than one spot. -/
def Step.branches : Step → Bool
  | stretch .. | either .. | turn .. => true
  | _ => false

/-! ## 4. The search -/

/-- The first match among entries, in the order of preference: a spot at a step that accepts, and if
`whole` at the end of the text. `seen` are the spots that have been searched. -/
def search (steps : Array Step) (text : Array Char) :
    Nat → Bool → List Entry → Std.HashSet Spot → Option Spot
  | 0, _, _, _ => none
  | _, _, [], _ => none
  | fuel + 1, whole, e :: rest, seen =>
    let (s, others) := e.split text
    let rest := others ++ rest
    match steps[s.step]? with
    | none => search steps text fuel whole rest seen
    | some .accept =>
      if whole && s.position != text.size then search steps text fuel whole rest seen
      else some s
    | some step =>
      if step.branches && seen.contains s then search steps text fuel whole rest seen
      else
        let own (b : Spot) : Option Spot := search steps text fuel false [.one b] {}
        let seen := if step.branches then seen.insert s else seen
        search steps text fuel whole (step.entries text own s ++ rest) seen

/-- The number of values of what a spot remembers because of a step. -/
def Step.memory (size : Nat) : Step → Nat
  | mark .. => size + 2
  | turn min max .. => (max.getD min + 2) * (size + 3)
  | _ => 1

/-- A bound on the number of turns of a search: spots, with the rows that begin at each and the
steps without a branch that follow. -/
def Program.effort (p : Program) (size : Nat) : Nat :=
  p.steps.foldl (fun n s => n * s.memory size) ((p.steps.size + 2) * (p.steps.size + 2) *
    (size + 2) * (size + 2))

/-- Whether a pattern matches a text from its beginning to its end. -/
def matchesWhole (p : Pattern) (s : String) : Bool :=
  let text := s.toList.toArray
  let program := p.program
  (search program.steps text (program.effort text.size) true
    [.one { step := program.start, position := 0 }] {}).isSome

end Pattern
end MemberRules
