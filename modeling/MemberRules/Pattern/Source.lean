/-
# The text of a pattern

A pattern is read token by token: a character, or a backslash with the character after it. This
module holds what the reader knows while it reads, the reasons for which a text is no pattern, and
the steps that take tokens from the text.

A backslash at the end of the text is an error as soon as the token before it has been read, so it
wins over later ones.
-/
import MemberRules.Number.Rounding
import MemberRules.Pattern.Basic

namespace MemberRules
namespace Pattern

/-! ## 1. Texts that are no patterns -/

/-- Why a text is no pattern. -/
inductive Unreadable
  /-- The text is malformed, at a position where one can be given. -/
  | malformed (reason : String) (position : Option Nat)
  /-- A repetition asks for more turns than can be counted. -/
  | tooManyTurns
  /-- A number has too many digits, or two switches exclude each other. -/
  | badValue
  /-- Groups are nested too deep. -/
  | tooDeep
  deriving DecidableEq, Repr

/-- The error of a malformed text as one line; a text of several lines adds line and column. -/
def malformedText (reason : String) (position : Option Nat) (pattern : List Char) : String :=
  match position with
  | none => reason
  | some position =>
    let plain := reason ++ " at position " ++ Number.natText position
    if pattern.contains '\n' then
      let before := pattern.take position
      let line := before.count '\n' + 1
      let column := (before.reverse.takeWhile (· != '\n')).length + 1
      plain ++ " (line " ++ Number.natText line ++ ", column " ++ Number.natText column ++ ")"
    else plain

namespace Reader

/-! ## 2. What the reader knows -/

/-- The switches that hold at a place. -/
structure Switches where
  folded : Bool := false
  /-- Only the first 128 characters have classes and cases. -/
  plain : Bool := false
  dotAll : Bool := false
  multiline : Bool := false
  verbose : Bool := false
  deriving DecidableEq, Repr

/-- What has been read and what is ahead. -/
structure State where
  rest : List Char
  /-- The number of characters read. -/
  position : Nat := 0
  /-- Groups opened so far, closed or not. -/
  groups : Nat := 0
  /-- The widths of the closed groups. -/
  closed : List (Nat × Width) := []
  names : List (String × Nat) := []
  switches : Switches := {}
  /-- The switch that names the classes of all scripts was given for the whole pattern. -/
  allScripts : Bool := false
  /-- The number of groups before the outermost look-behind that is being read. -/
  behindFrom : Option Nat := none
  /-- Groups that conditions have named by number, and where. -/
  conditions : List (Nat × Nat) := []
  /-- A look-behind had no fixed width. -/
  openBehind : Bool := false

/-- A step of the reader. -/
abbrev Step (α : Type) := StateT State (Except Unreadable) α

/-- The rule by which letters are compared. -/
def Switches.rule (s : Switches) : CaseRule :=
  if !s.folded then .exact else if s.plain then .plain else .all

/-! ## 3. Failures -/

/-- Fails at a position. -/
def failAt (reason : String) (position : Nat) : Step α :=
  throw (.malformed reason (some position))

/-- Fails `back` characters before the next token. -/
def failBefore (reason : String) (back : Nat) : Step α := do
  failAt reason ((← get).position - back)

/-! ## 4. Tokens -/

/-- A token. -/
inductive Token
  | plain (c : Char)
  | escaped (c : Char)
  deriving DecidableEq, Repr

namespace Token

/-- The characters of a token. -/
def chars : Token → List Char
  | plain c => [c]
  | escaped c => ['\\', c]

/-- The text of a token. -/
def text (t : Token) : String := String.ofList t.chars

/-- The number of characters of a token. -/
def size (t : Token) : Nat := t.chars.length

end Token

/-- The next token without reading it. -/
def peek : Step (Option Token) := do
  match (← get).rest with
  | [] => return none
  | '\\' :: c :: _ => return some (.escaped c)
  | c :: _ => return some (.plain c)

/-- Fails if a backslash without a character after it comes next. -/
def checkEscape : Step Unit := do
  let s ← get
  match s.rest with
  | ['\\'] => failAt "bad escape (end of pattern)" s.position
  | _ => return

/-- Goes on by a number of characters. -/
def skip (n : Nat) : Step Unit := do
  modify fun s => { s with rest := s.rest.drop n, position := s.position + n }
  checkEscape

/-- Reads the next token. -/
def next : Step (Option Token) := do
  let t ← peek
  match t with
  | none => return none
  | some t =>
    skip t.size
    return some t

/-- Reads the next token if it is the given character. -/
def accept (c : Char) : Step Bool := do
  if (← peek) == some (.plain c) then
    skip 1
    return true
  else return false

/-- Reads at most `n` characters of a class. -/
def takeChars (p : Char → Bool) (n : Nat) : Step (List Char) := do
  let taken := ((← get).rest.take n).takeWhile p
  skip taken.length
  return taken

/-- Reads a name up to a closing character; `what` says what the name is for. -/
def takeUntil (close : Char) (what : String) : Nat → List Char → Step (List Char)
  | 0, name => return name
  | fuel + 1, name => do
    match ← next with
    | none =>
      if name.isEmpty then failBefore ("missing " ++ what) 0
      else failBefore ("missing " ++ String.singleton close ++ ", unterminated name") name.length
    | some t =>
      if t == .plain close then
        if name.isEmpty then failBefore ("missing " ++ what) 1 else return name
      else takeUntil close what fuel (name ++ t.chars)

/-- Reads a name that is closed by a character. -/
def takeName (close : Char) (what : String) : Step (List Char) := do
  takeUntil close what ((← get).rest.length + 1) []

end Reader
end Pattern
end MemberRules
