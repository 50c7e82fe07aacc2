/-
# Patterns as programs

A program is a pattern laid out as steps. Every step names the steps that may follow it, so what is
left to be matched after a part of a pattern is one number. Programs are built from the end of a
pattern to its beginning: the step after a part exists before the part does, except for a turn of a
repetition, which its body leads back to.

Only groups that something refers to leave marks.
-/
import MemberRules.Pattern.Basic

namespace MemberRules
namespace Pattern

/-- A step of a program. -/
inductive Step
  /-- The end of the pattern, or of an assertion. -/
  | accept
  | test (t : CharTest) (next : Nat)
  /-- As many characters of a test as a repetition asks for. -/
  | stretch (t : CharTest) (min : Nat) (max : Option Nat) (lazy : Bool) (next : Nat)
  | anchor (a : Anchor) (next : Nat)
  /-- Remembers the position under a mark. -/
  | mark (slot : Nat) (next : Nat)
  | back (rule : CaseRule) (group next : Nat)
  | either (first second : Nat)
  /-- Whether the steps from `body` on match `back` characters before the position. -/
  | look (negated : Bool) (back body next : Nat)
  /-- The first match of the steps from `body` on. -/
  | atomic (body next : Nat)
  | given (group yes no : Nat)
  /-- Begins a repetition, whose turns the step `turn` counts. -/
  | enter (turn : Nat)
  /-- A place between two turns of a repetition. -/
  | turn (min : Nat) (max : Option Nat) (lazy : Bool) (body next : Nat)
  deriving Repr, Inhabited

/-- The steps of a program by their numbers, and the one it begins with. -/
structure Program where
  steps : Array Step
  start : Nat

/-- The mark for the beginning of a group; the one for its end follows. -/
def openSlot (group : Nat) : Nat := 2 * group

/-- The mark for the end of a group. -/
def closeSlot (group : Nat) : Nat := 2 * group + 1

/-- The groups that a pattern refers to. -/
def referred : Pattern → List Nat
  | empty | test _ | anchor _ => []
  | back _ index => [index]
  | given index yes no => index :: (referred yes ++ referred no)
  | group _ p | ahead _ p | behind _ _ p | atomic p | repeated _ _ _ p => referred p
  | seq a b | either a b => referred a ++ referred b

/-- Adds a step and returns its number. -/
def Step.add (s : Step) : StateM (Array Step) Nat :=
  modifyGet fun steps => (steps.size, steps.push s)

/-- Adds a turn of a repetition before its body, and the body, which leads back to it. -/
def Step.addTurn (min : Nat) (max : Option Nat) (lazy : Bool)
    (body : Nat → StateM (Array Step) Nat) (next : Nat) : StateM (Array Step) Nat := do
  let turn ← Step.accept.add
  let first ← body turn
  modify fun steps => steps.setIfInBounds turn (.turn min max lazy first next)
  (Step.enter turn).add

/-- Adds steps that end on their own, and a step that uses them. -/
def Step.addOver (body : Nat → StateM (Array Step) Nat) (use : Nat → Step) :
    StateM (Array Step) Nat := do
  let first ← body (← Step.accept.add)
  (use first).add

/-- Adds a repetition of one test or of a body. -/
def Step.addRepeated (min : Nat) (max : Option Nat) (lazy : Bool) (test : Option CharTest)
    (body : Nat → StateM (Array Step) Nat) (next : Nat) : StateM (Array Step) Nat :=
  match test with
  | some t => (Step.stretch t min max lazy next).add
  | none => Step.addTurn min max lazy body next

/-- The test that a pattern consists of. -/
def test? : Pattern → Option CharTest
  | test t => some t
  | _ => none

/-- Adds the steps of a pattern that is followed by the step `next`, and returns the first one.
`marked` are the groups that leave marks. -/
def layOut (marked : List Nat) : Pattern → Nat → StateM (Array Step) Nat
  | empty, next => return next
  | test t, next => (Step.test t next).add
  | anchor a, next => (Step.anchor a next).add
  | group none p, next => layOut marked p next
  | group (some index) p, next => do
    if marked.contains index then
      let stop ← (Step.mark (closeSlot index) next).add
      let first ← layOut marked p stop
      (Step.mark (openSlot index) first).add
    else layOut marked p next
  | back rule index, next => (Step.back rule index next).add
  | ahead negated p, next => Step.addOver (layOut marked p) fun b => .look negated 0 b next
  | behind negated width p, next =>
    Step.addOver (layOut marked p) fun b => .look negated width b next
  | atomic p, next => Step.addOver (layOut marked p) fun b => .atomic b next
  | given index yes no, next => do
    let y ← layOut marked yes next
    let n ← layOut marked no next
    (Step.given index y n).add
  | seq a b, next => do
    let middle ← layOut marked b next
    layOut marked a middle
  | either a b, next => do
    let second ← layOut marked b next
    let first ← layOut marked a next
    (Step.either first second).add
  | repeated min max greed p, next =>
    if greed == .possessive then
      Step.addOver (Step.addRepeated min max false p.test? (layOut marked p))
        fun b => .atomic b next
    else Step.addRepeated min max (greed == .lazy) p.test? (layOut marked p) next

/-- The program of a pattern. -/
def program (p : Pattern) : Program :=
  let (start, steps) := (do layOut p.referred p (← Step.accept.add)).run #[]
  ⟨steps, start⟩

end Pattern
end MemberRules
