/-
# Reading patterns

Reads sequences, alternatives, groups and repetitions. The items of a sequence are kept in a list
until the sequence ends: a group without a number and without switches then gives way to its own
items, alternatives that begin alike share their beginning, and alternatives of one character each
become a character set.
-/
import MemberRules.Pattern.Escape
import MemberRules.Text.Name

namespace MemberRules
namespace Pattern
namespace Reader

/-! ## 1. Repetitions -/

/-- The least number of turns that is too large to be counted. -/
def tooManyTurns : Nat := 4294967295

/-- A number of turns. -/
def turnCount (digits : List Char) : Step Nat :=
  if digits.length > Number.digitLimit then throw .badValue
  else if valueIn 10 digits ≥ tooManyTurns then throw .tooManyTurns
  else return valueIn 10 digits

/-- The counts after an opening brace, `none` if the brace is text. -/
def counts : Step (Option (Nat × Option Nat)) := do
  let s ← get
  if (← peek) == some (.plain '\x7d') then return none
  let low ← takeChars Char.isDigit s.rest.length
  let high ← if ← accept ',' then takeChars Char.isDigit s.rest.length else pure low
  if ← accept '\x7d' then
    let min ← turnCount low
    if high.isEmpty then return some (min, none)
    let max ← turnCount high
    if max < min then failAt "min repeat greater than max repeat" s.position
    return some (min, some max)
  else
    set s
    return none

/-- The counts that a character asks for, `none` if it is text. -/
def repeatCounts (c : Char) : Step (Option (Nat × Option Nat)) :=
  if c == '?' then return some (0, some 1)
  else if c == '*' then return some (0, none)
  else if c == '+' then return some (1, none)
  else counts

/-- The mark after a repetition that says how it chooses. -/
def repeatGreed : Step Greed := do
  if ← accept '?' then return .lazy
  if ← accept '+' then return .possessive
  return .greedy

/-- An item of a sequence. -/
inductive Item
  | single (p : Pattern)
  /-- A group without a number and without switches, as the items in it. -/
  | plain (ps : List Pattern)

/-- The patterns that an item stands for. -/
def Item.patterns : Item → List Pattern
  | single p => [p]
  | plain ps => ps

/-- Repeats the last of the items read so far, which come last first; the mark of the repetition
is at `position`. -/
def repeatLast (position : Nat) (min : Nat) (max : Option Nat) (items : List Item) :
    Step (List Item) := do
  match items with
  | [] | .single (.anchor _) :: _ => failAt "nothing to repeat" position
  | .single (.repeated ..) :: _ => failAt "multiple repeat" position
  | item :: rest =>
    return .single (.repeated min max (← repeatGreed) (sequence item.patterns)) :: rest

/-! ## 2. Alternatives -/

/-- Whether two patterns are one character or place each, and the same. -/
def sameUnit (p q : Pattern) : Bool :=
  match p with
  | .test _ | .anchor _ | .back .. => p == q
  | _ => false

/-- The items with which a sequence and all others begin. -/
def sharedItems : List Pattern → List (List Pattern) → List Pattern
  | [], _ => []
  | p :: ps, others =>
    if others.all fun o => o.head?.any (sameUnit p) then p :: sharedItems ps (others.map List.tail)
    else []

/-- The set items of an alternative of one character. -/
def setItems? : List Pattern → Option (List SetItem)
  | [.test (.code _ false n)] => some [.code n]
  | [.test (.set _ false items)] => some items
  | _ => none

/-- Several alternatives as one pattern. -/
def choice : List (List Pattern) → Pattern
  | [] => .empty
  | [a] => sequence a
  | a :: b :: rest => .either (sequence a) (choice (b :: rest))

/-- Alternatives as a sequence: the common beginning, and a set or a choice of the rest. -/
def joinAlternatives (rule : CaseRule) (alternatives : List (List Pattern)) : List Pattern :=
  match alternatives with
  | [] => []
  | [only] => only
  | first :: others =>
    let shared := sharedItems first others
    let rest := alternatives.map fun a => a.drop shared.length
    match rest.mapM setItems? with
    | some items => shared ++ [.test (.set rule false items.flatten.eraseDups)]
    | none => shared ++ [choice rest]

/-! ## 3. Names of groups -/

/-- Fails about the name of a group that has just been read. -/
def failName (reason : String) (name : List Char) : Step α :=
  failBefore (reason ++ " " ++ Text.quote (String.ofList name)) (name.length + 1)

/-- Checks the name of a group that has just been read. -/
def checkName (name : List Char) : Step Unit :=
  if Text.isName name then return () else failName "bad character in group name" name

/-- The group of a name that has just been read. -/
def groupNamed (name : List Char) : Step Nat := do
  match (← get).names.lookup (String.ofList name) with
  | none => failName "unknown group name" name
  | some n => return n

/-- A reference to a group by its name. -/
def namedReference : Step Pattern := do
  let name ← takeName ')' "group name"
  checkName name
  referTo (← groupNamed name) (name.length + 1)

/-- Opens a numbered group, with a name or without. -/
def openGroup (name : Option (List Char)) : Step Nat := do
  let s ← get
  let n := s.groups + 1
  match name with
  | none => modify fun s => { s with groups := n }
  | some cs =>
    let text := String.ofList cs
    match s.names.lookup text with
    | some old =>
      failBefore ("redefinition of group name " ++ Text.quote text ++ " as group " ++
        Number.natText n ++ "; was group " ++ Number.natText old) (cs.length + 1)
    | none => modify fun s => { s with groups := n, names := (text, n) :: s.names }
  return n

/-- Closes a numbered group. -/
def closeGroup (n : Nat) (body : Pattern) : Step Unit :=
  modify fun s => { s with closed := (n, body.width s.closed) :: s.closed }

/-- The number from which on no group can have it. -/
def groupLimit : Nat := 1073741823

/-- The group that a condition names. A number is checked when the whole pattern has been read. -/
def conditionGroup : Step Nat := do
  let name ← takeName ')' "group name"
  if Text.isName name then groupNamed name
  else
    match Text.readDecimal? name with
    | none => failName "bad character in group name" name
    | some 0 => failBefore "bad group number" (name.length + 1)
    | some n =>
      if n ≥ groupLimit then
        failBefore ("invalid group reference " ++ Number.natText n) (name.length + 1)
      modify fun s =>
        if (s.conditions.lookup n).isSome then s
        else { s with conditions := s.conditions ++ [(n, s.position - name.length - 1)] }
      return n

/-! ## 4. Switches -/

/-- The letters of switches. -/
def switchLetters : List Char := ['i', 'L', 'm', 's', 'x', 'a', 't', 'u']

/-- The switches that choose what the classes of characters are. -/
def isClassSwitch (c : Char) : Bool := c == 'a' || c == 'u' || c == 'L'

/-- Checks the switches that are turned on, the last one first. -/
def checkOn (letters : List Char) : Step Unit :=
  if letters.head? == some 'L' then
    failBefore "bad inline flags: cannot use 'L' flag with a str pattern" 0
  else if letters.head?.any isClassSwitch && letters.contains 'a' && letters.contains 'u' then
    failBefore "bad inline flags: flags 'a', 'u' and 'L' are incompatible" 0
  else return

/-- Checks the switches that are turned off, the last one first. -/
def checkOff (letters : List Char) : Step Unit :=
  if letters.head?.any isClassSwitch then
    failBefore "bad inline flags: cannot turn off flags 'a', 'u' and 'L'" 0
  else return

/-- Fails about a token in the place of a switch. -/
def failSwitch (missing : String) (t : Token) : Step α :=
  match t with
  | .plain c => failBefore (if Text.isLetter c then "unknown flag" else missing) 1
  | .escaped _ => failBefore missing 2

/-- Reads the letters of switches from the first one on, up to one of the characters that end them.
The results are the letters, the last one first, and the end. -/
def takeSwitches (ends : List Char) (missing : String) (check : List Char → Step Unit) :
    Nat → Char → List Char → Step (List Char × Char)
  | 0, c, letters => return (letters, c)
  | fuel + 1, c, letters => do
    check (c :: letters)
    match ← next with
    | none => failBefore missing 0
    | some (.plain d) =>
      if ends.contains d then return (c :: letters, d)
      else if switchLetters.contains d then
        takeSwitches ends missing check fuel d (c :: letters)
      else failSwitch missing (.plain d)
    | some t => failSwitch missing t

/-- Turns switches on or off. -/
def Switches.turn (on : Bool) (letters : List Char) (s : Switches) : Switches :=
  letters.foldl (fun s c =>
    match c with
    | 'i' => { s with folded := on }
    | 's' => { s with dotAll := on }
    | 'm' => { s with multiline := on }
    | 'x' => { s with verbose := on }
    | 'a' => { s with plain := true }
    | 'u' => { s with plain := false }
    | _ => s) s

/-- Turns switches on for the whole pattern. -/
def turnOnForAll (letters : List Char) : Step Unit :=
  modify fun s => { s with
    switches := s.switches.turn true (letters.filter (· != 'u'))
    allScripts := s.allScripts || letters.contains 'u' }

/-- The switches inside a group that turns some on and some off; those are read next if `ended` is a
dash. -/
def scopedSwitches (on : List Char) (ended : Char) : Step Switches := do
  if on.contains 't' then failBefore "bad inline flags: cannot turn on global flag" 1
  let off ← if ended != '-' then pure [] else
    match ← next with
    | none => failBefore "missing flag" 0
    | some (.plain c) =>
      if switchLetters.contains c then
        pure (← takeSwitches [':'] "missing :" checkOff ((← get).rest.length + 1) c []).1
      else failSwitch "missing flag" (.plain c)
    | some t => failSwitch "missing flag" t
  if off.contains 't' then failBefore "bad inline flags: cannot turn off global flag" 1
  if on.any off.contains then failBefore "bad inline flags: flag turned on and off" 1
  return ((← get).switches.turn true on).turn false off

/-! ## 5. What an opening parenthesis begins -/

/-- What follows an opening parenthesis. -/
inductive Opening
  | numbered (name : Option (List Char))
  | plain
  | scoped (switches : Switches)
  | atomic
  | ahead (negated : Bool)
  | behind (negated : Bool)
  | given (group : Nat)
  | item (p : Pattern)
  | nothing

/-- Reads up to one of the tokens of the given text, or to the end. The result says whether it was
found. -/
def skipPast (c : Char) : Nat → Step Bool
  | 0 => return false
  | fuel + 1 => do
    match ← next with
    | none => return false
    | some t => if t == .plain c then return true else skipPast c fuel

/-- What follows `(?P`. -/
def namedOpening : Step Opening := do
  if ← accept '<' then
    let name ← takeName '>' "group name"
    checkName name
    return .numbered (some name)
  else if ← accept '=' then return .item (← namedReference)
  else
    match ← next with
    | none => failBefore "unexpected end of pattern" 0
    | some t => failBefore ("unknown extension ?P" ++ t.text) (t.size + 2)

/-- What follows `(?<`. -/
def behindOpening : Step Opening := do
  match ← next with
  | none => failBefore "unexpected end of pattern" 0
  | some (.plain '=') => return .behind false
  | some (.plain '!') => return .behind true
  | some t => failBefore ("unknown extension ?<" ++ t.text) (t.size + 2)

/-- Switches after `(?`, from their first letter or dash on. They hold for the whole pattern, at
whose beginning they must stand then, or for the group. -/
def switchOpening (start : Nat) (isFirst : Bool) (c : Char) : Step Opening := do
  let (on, ended) ←
    if c == '-' then pure ([], c)
    else takeSwitches [')', '-', ':'] "missing -, : or )" checkOn ((← get).rest.length + 1) c []
  if ended == ')' then
    turnOnForAll on
    if isFirst then return .nothing
    else failAt "global flags not at the start of the expression" start
  else return .scoped (← scopedSwitches on ended)

/-- What follows the opening parenthesis at `start`; `isFirst` says that nothing has been read
before it. -/
def opening (start : Nat) (isFirst : Bool) : Step Opening := do
  if !(← accept '?') then return .numbered none
  match ← next with
  | none => failBefore "unexpected end of pattern" 0
  | some (.plain 'P') => namedOpening
  | some (.plain ':') => return .plain
  | some (.plain '#') =>
    if ← skipPast ')' ((← get).rest.length + 1) then return .nothing
    else failAt "missing ), unterminated comment" start
  | some (.plain '=') => return .ahead false
  | some (.plain '!') => return .ahead true
  | some (.plain '<') => behindOpening
  | some (.plain '(') =>
    let n ← conditionGroup
    checkBehind n
    return .given n
  | some (.plain '>') => return .atomic
  | some t =>
    match t with
    | .plain c =>
      if switchLetters.contains c || c == '-' then switchOpening start isFirst c
      else failBefore ("unknown extension ?" ++ t.text) (t.size + 1)
    | _ => failBefore ("unknown extension ?" ++ t.text) (t.size + 1)

/-! ## 6. Sequences -/

/-- The greatest number of groups inside each other. -/
def deepest : Nat := 2400

/-- Closes a parenthesis that was opened at `start`. -/
def closeParen (start : Nat) : Step Unit := do
  if !(← accept ')') then failAt "missing ), unterminated subpattern" start

/-- Reads with other switches. -/
def withSwitches (switches : Switches) (read : Step α) : Step α := do
  let outer := (← get).switches
  modify fun s => { s with switches }
  let a ← read
  modify fun s => { s with switches := outer }
  return a

/-- Reads what a look-behind holds: the groups in it cannot be referred to. -/
def withinBehind (read : Step α) : Step α := do
  let outer := (← get).behindFrom
  modify fun s => { s with behindFrom := outer.or (some s.groups) }
  let a ← read
  modify fun s => { s with behindFrom := outer }
  return a

/-- A look-behind; its body must have one width. -/
def lookBehind (negated : Bool) (body : Pattern) : Step Pattern := do
  let w := body.width (← get).closed
  if w.2 != some w.1 then modify fun s => { s with openBehind := true }
  return .behind negated w.1 body

/-- The parts of a condition. -/
def conditional (group : Nat) (read : Step (List Pattern)) : Step Pattern := do
  let yes ← read
  let no ← if ← accept '|' then
      let no ← read
      if (← peek) == some (.plain '|') then
        failBefore "conditional backref with more than two branches" 0
      pure no
    else pure []
  return .given group (sequence yes) (sequence no)

/-- The group that an opening begins; `read` reads the alternatives in it and `readOne` a single
one. -/
def group (start : Nat) (o : Opening) (read readOne : Step (List Pattern)) :
    Step (Option Item) := do
  match o with
  | .nothing => return none
  | .item p => return some (.single p)
  | .plain =>
    let ps ← read
    closeParen start
    return some (.plain ps)
  | .scoped switches =>
    let ps ← withSwitches switches read
    closeParen start
    return some (.single (.group none (sequence ps)))
  | .atomic =>
    let ps ← read
    closeParen start
    return some (.single (.atomic (sequence ps)))
  | .ahead negated =>
    let ps ← read
    closeParen start
    return some (.single (.ahead negated (sequence ps)))
  | .behind negated =>
    let ps ← withinBehind read
    closeParen start
    return some (.single (← lookBehind negated (sequence ps)))
  | .given n =>
    let p ← conditional n readOne
    closeParen start
    return some (.single p)
  | .numbered name =>
    let n ← openGroup name
    let p := sequence (← read)
    closeParen start
    closeGroup n p
    return some (.single (.group (some n) p))

/-- Characters that are left out between items when the pattern is written out. -/
def isFiller (c : Char) : Bool := c == ' ' || (9 ≤ c.toNat && c.toNat ≤ 13)

mutual

/-- The alternatives up to the end or a closing parenthesis, inside `depth` parentheses. -/
def alternatives (depth : Nat) : Nat → List (List Pattern) → Step (List Pattern)
  | 0, done => return joinAlternatives .exact done.reverse
  | fuel + 1, done => do
    if depth > deepest then throw .tooDeep
    let ps ← items depth (depth == 0 && done.isEmpty) fuel []
    if ← accept '|' then alternatives depth fuel (ps :: done)
    else return joinAlternatives (← get).switches.rule (ps :: done).reverse

/-- The items of one alternative, the last one first in `acc`; `isFirst` says that the pattern
begins with it. -/
def items (depth : Nat) (isFirst : Bool) : Nat → List Item → Step (List Pattern)
  | 0, acc => return acc.reverse.flatMap Item.patterns
  | fuel + 1, acc => do
    let s ← get
    let start := s.position
    let add (p : Pattern) : Step (List Pattern) := items depth isFirst fuel (.single p :: acc)
    match ← peek with
    | none | some (.plain '|') | some (.plain ')') => return acc.reverse.flatMap Item.patterns
    | some t =>
      skip t.size
      match t with
      | .escaped c => add (← escape c)
      | .plain '[' => add (← characterSet start)
      | .plain '.' => add (.test (.any s.switches.dotAll))
      | .plain '^' => add (.anchor (if s.switches.multiline then .lineStart else .first))
      | .plain '$' => add (.anchor (if s.switches.multiline then .lineEnd else .last))
      | .plain '(' =>
        let o ← opening start (isFirst && acc.isEmpty)
        let item ← group start o (alternatives (depth + 1) fuel [])
          (items (depth + 1) false fuel [])
        items depth isFirst fuel (item.toList ++ acc)
      | .plain c =>
        if s.switches.verbose && isFiller c then items depth isFirst fuel acc
        else if s.switches.verbose && c == '#' then
          let _ ← skipPast '\n' (s.rest.length + 1)
          items depth isFirst fuel acc
        else if c == '?' || c == '*' || c == '+' || c == '\x7b' then
          match ← repeatCounts c with
          | none => add (← codeTest c.toNat)
          | some (min, max) => items depth isFirst fuel (← repeatLast start min max acc)
        else add (← codeTest c.toNat)

end

/-- Checks that the groups named by conditions exist. -/
def checkConditions : Step Unit := do
  let s ← get
  s.conditions.forM fun (n, position) =>
    if n > s.groups then failAt ("invalid group reference " ++ Number.natText n) position
    else return

/-- A whole pattern. -/
def whole : Step Pattern := do
  checkEscape
  let ps ← alternatives 0 (2 * (← get).rest.length + 2) []
  let s ← get
  if s.switches.plain && s.allScripts then throw .badValue
  if !s.rest.isEmpty then failBefore "unbalanced parenthesis" 0
  checkConditions
  if s.openBehind then
    throw (.malformed "look-behind requires fixed-width pattern" none)
  return sequence ps

end Reader

/-- Reads a pattern. -/
def ofText (s : String) : Except Unreadable Pattern :=
  (Reader.whole.run { rest := s.toList }).map Prod.fst

end Pattern
end MemberRules
