/-
# Text patterns

A pattern is a tree of single-character tests, anchors, groups, references back to groups,
assertions, alternatives and repetitions. This module holds the tree and what one character has to
satisfy; `Pattern.Reader` reads the written form, `Pattern.Program` lays a pattern out as steps and
`Pattern.Match` matches texts.

Letters are compared exactly or without regard to case. In the second way both sides are taken in
small letters, and small letters that share a capital count as one, so that `(?i)s` admits the long
s; a letter that becomes several letters in capitals stays one letter.
-/
import MemberRules.Text.Blank
import MemberRules.Text.Case
import MemberRules.Text.Digit
import MemberRules.Text.Word

namespace MemberRules
namespace Pattern

/-! ## 1. Classes of characters -/

/-- The classes of characters that a pattern can name. -/
inductive CharClass
  | digit | space | word
  deriving DecidableEq, Repr

/-- Whether a character is a letter, a digit or the low line among the first 128 characters. -/
def isPlainWord (c : Char) : Bool := c.isAlphanum || c == '_'

/-- Whether a character is a blank among the first 128 characters. -/
def isPlainBlank (c : Char) : Bool := c == ' ' || (9 ≤ c.toNat && c.toNat ≤ 13)

/-- Whether a character belongs to a class; with `plain`, only the first 128 characters do. -/
def CharClass.has (plain : Bool) : CharClass → Char → Bool
  | digit, c => if plain then c.isDigit else Text.isDecimalDigit c
  | space, c => if plain then isPlainBlank c else Text.isBlank c
  | word, c => if plain then isPlainWord c else Text.isWordChar c

/-! ## 2. Letter case -/

/-- How letters are compared. -/
inductive CaseRule
  | exact
  /-- Without regard to case among the first 128 characters. -/
  | plain
  /-- Without regard to case in all scripts. -/
  | all
  deriving DecidableEq, Repr

namespace CaseRule

/-- The small form of a code point. -/
def lower : CaseRule → Nat → Nat
  | exact, n => n
  | plain, n => if 0x41 ≤ n && n ≤ 0x5A then n + 32 else n
  | all, n => Text.lowerCode n

/-- The small forms that count as one with a small form. -/
def mates : CaseRule → Nat → List Nat
  | all, n => Text.capitalMates n
  | _, n => [n]

/-- The code points with the given small form. -/
def sources : CaseRule → Nat → List Nat
  | exact, n => [n]
  | plain, n => if 0x61 ≤ n && n ≤ 0x7A then [n, n - 32] else [n]
  | all, n => Text.lowerSources n

/-- Whether a code point is admitted where another one is written. -/
def sameLetter (rule : CaseRule) (written n : Nat) : Bool :=
  (rule.mates (rule.lower written)).contains (rule.lower n)

end CaseRule

/-! ## 3. Tests of one character -/

/-- A member of a character set. Code points that are no characters may occur in a pattern. -/
inductive SetItem
  | code (n : Nat)
  | range (lo hi : Nat)
  | named (c : CharClass) (plain negated : Bool)
  deriving DecidableEq, Repr

/-- The last code point of the plane that holds most scripts. -/
def lastOfPlane : Nat := 0xFFFF

/-- Whether a set item admits a character. Without regard to case, a code point beyond the first
plane stands for itself only, and a range beyond it for the letters of which a form lies in it. -/
def SetItem.admits (rule : CaseRule) (item : SetItem) (c : Char) : Bool :=
  let small := rule.lower c.toNat
  match item with
  | code n =>
    if n > lastOfPlane then small == n else rule.sameLetter n c.toNat
  | range lo hi =>
    let within (n : Nat) : Bool := lo ≤ n && n ≤ hi
    if rule == .exact then within c.toNat
    else
      (((rule.mates small).flatMap rule.sources).any fun n => within n && n ≤ lastOfPlane) ||
        (hi > lastOfPlane && (within small || within (Text.upperCode small)))
  | named cls plain negated => cls.has plain c != negated

/-- What one character has to satisfy. -/
inductive CharTest
  | code (rule : CaseRule) (negated : Bool) (n : Nat)
  /-- Any character; line feeds too if `all`. -/
  | any (all : Bool)
  | set (rule : CaseRule) (negated : Bool) (items : List SetItem)
  deriving DecidableEq, Repr

/-- Whether a character passes a test. -/
def CharTest.admits : CharTest → Char → Bool
  | code rule negated n, c => rule.sameLetter n c.toNat != negated
  | any all, c => all || c != '\n'
  | set rule negated items, c => (items.any fun i => i.admits rule c) != negated

/-! ## 4. Patterns -/

/-- Places between characters. -/
inductive Anchor
  /-- The beginning of the text. -/
  | first
  /-- The beginning of the text or of a line. -/
  | lineStart
  /-- The end of the text, or before a line feed that ends it. -/
  | last
  /-- The end of the text or of a line. -/
  | lineEnd
  /-- The very end of the text. -/
  | veryEnd
  /-- A place between a word character and another one, or with `inside` no such place; an empty
  text has neither. -/
  | boundary (plain inside : Bool)
  deriving DecidableEq, Repr

/-- How a repetition chooses between going on and ending. -/
inductive Greed
  | greedy | lazy | possessive
  deriving DecidableEq, Repr

end Pattern

/-- A pattern. -/
inductive Pattern
  | empty
  | test (t : Pattern.CharTest)
  | anchor (a : Pattern.Anchor)
  /-- A group; a numbered one remembers what it matched. -/
  | group (index : Option Nat) (body : Pattern)
  /-- What a group has matched. -/
  | back (rule : Pattern.CaseRule) (index : Nat)
  /-- What follows, or what does not follow. -/
  | ahead (negated : Bool) (body : Pattern)
  /-- What precedes, or what does not precede, in `width` characters. -/
  | behind (negated : Bool) (width : Nat) (body : Pattern)
  /-- The first way to match only. -/
  | atomic (body : Pattern)
  /-- One pattern if a group has matched and another one if not. -/
  | given (index : Nat) (yes no : Pattern)
  | seq (a b : Pattern)
  | either (a b : Pattern)
  | repeated (min : Nat) (max : Option Nat) (greed : Pattern.Greed) (body : Pattern)
  deriving DecidableEq, Repr

namespace Pattern

/-- Patterns one after the other. -/
def sequence (ps : List Pattern) : Pattern :=
  match ps with
  | [] => empty
  | p :: rest => rest.foldl seq p

/-! ## 5. Widths -/

/-- The least number of characters of a match and the greatest one, `none` without an end. -/
abbrev Width := Nat × Option Nat

/-- The width of two matches after each other. -/
def Width.after (a b : Width) : Width := (a.1 + b.1, do return (← a.2) + (← b.2))

/-- The width of a match of either width. -/
def Width.or (a b : Width) : Width := (Nat.min a.1 b.1, do return Nat.max (← a.2) (← b.2))

/-- The width of a repetition. -/
def Width.times (w : Width) (min : Nat) (max : Option Nat) : Width :=
  (w.1 * min, if w.2 == some 0 || max == some 0 then some 0 else do return (← w.2) * (← max))

/-- The width of a pattern; `groups` has the widths of the groups before it. -/
def width (groups : List (Nat × Width)) : Pattern → Width
  | empty | anchor _ | ahead .. | behind .. => (0, some 0)
  | test _ => (1, some 1)
  | group _ body | atomic body => width groups body
  | back _ index => (groups.lookup index).getD (0, some 0)
  | given _ yes no => (width groups yes).or (width groups no)
  | seq a b => (width groups a).after (width groups b)
  | either a b => (width groups a).or (width groups b)
  | repeated min max _ body => (width groups body).times min max

end Pattern
end MemberRules
