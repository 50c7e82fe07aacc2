/-
# Escapes and character sets in patterns

Reads what stands for one character, for a class of characters or for a place, and the references
to groups that look like escapes.
-/
import MemberRules.Text.Quoted
import MemberRules.Pattern.Source

namespace MemberRules
namespace Pattern
namespace Reader

/-! ## 1. Numbers in escapes -/

/-- Whether a character is an octal digit. -/
def isOctal (c : Char) : Bool := '0' ≤ c && c ≤ '7'

/-- Whether a character is a hexadecimal digit. -/
def isHex (c : Char) : Bool := c.isDigit || ('a' ≤ c && c ≤ 'f') || ('A' ≤ c && c ≤ 'F')

/-- The value of a digit in a base up to sixteen. -/
def digitValue (c : Char) : Nat :=
  if c.isDigit then c.toNat - '0'.toNat
  else if 'a' ≤ c then c.toNat - 'a'.toNat + 10 else c.toNat - 'A'.toNat + 10

/-- The number of digits in a base. -/
def valueIn (base : Nat) (cs : List Char) : Nat := cs.foldl (fun n c => n * base + digitValue c) 0

/-- Fails at the beginning of an escape that was read so far as `text`. -/
def failEscape (reason text : String) : Step α :=
  failBefore (reason ++ " \\" ++ text) (text.length + 1)

/-- The greatest code point. -/
def lastCode : Nat := 0x10FFFF

/-- A code in hexadecimal digits, of which there must be exactly `n`. -/
def hexCode (letter : Char) (n : Nat) : Step Nat := do
  let digits ← takeChars isHex n
  let text := String.ofList (letter :: digits)
  let code := valueIn 16 digits
  if digits.length != n then failEscape "incomplete escape" text
  else if code > lastCode then failEscape "bad escape" text
  else return code

/-- A code of three octal digits, at most 0377. -/
def octalCode (digits : List Char) : Step Nat := do
  let n := valueIn 8 digits
  if n > 0o377 then
    failBefore ("octal escape value \\" ++ String.ofList digits ++ " outside of range 0-0o377")
      (1 + digits.length)
  else return n

/-- A character by its name; no name is known. -/
def namedCode : Step Nat := do
  if !(← accept '\x7b') then failBefore "missing \x7b" 0
  let name ← takeName '\x7d' "character name"
  failBefore ("undefined character name " ++ Text.quote (String.ofList name)) (name.length + 4)

/-! ## 2. What letters stand for -/

/-- Control characters with a letter of their own. -/
def controlCode? (c : Char) : Option Nat :=
  match c with
  | 'a' => some 7
  | 'f' => some 12
  | 'n' => some 10
  | 'r' => some 13
  | 't' => some 9
  | 'v' => some 11
  | '\\' => some 92
  | _ => none

/-- The class that a letter stands for. -/
def classItem? (plain : Bool) (c : Char) : Option SetItem :=
  match c with
  | 'd' => some (.named .digit plain false)
  | 'D' => some (.named .digit plain true)
  | 's' => some (.named .space plain false)
  | 'S' => some (.named .space plain true)
  | 'w' => some (.named .word plain false)
  | 'W' => some (.named .word plain true)
  | _ => none

/-- The place that a letter stands for. -/
def anchorOf? (plain : Bool) (c : Char) : Option Anchor :=
  match c with
  | 'A' => some .first
  | 'b' => some (.boundary plain false)
  | 'B' => some (.boundary plain true)
  | 'Z' => some .veryEnd
  | _ => none

/-- A code point that an escape writes out, after its letter; `none` if the letter is none for
that. -/
def writtenCode? (c : Char) : Step (Option Nat) := do
  if c == 'x' then return some (← hexCode c 2)
  else if c == 'u' then return some (← hexCode c 4)
  else if c == 'U' then return some (← hexCode c 8)
  else if c == 'N' then return some (← namedCode)
  else return none

/-- An escape that stands for its character, which must be no letter and no digit. -/
def ownCode (c : Char) : Step Nat :=
  if c.isDigit || c.isAlpha then failEscape "bad escape" (String.singleton c) else return c.toNat

/-! ## 3. Escapes outside character sets -/

/-- Checks that a group may be referred to within a look-behind: it began before it. -/
def checkBehind (n : Nat) : Step Unit := do
  let s ← get
  match s.behindFrom with
  | none => return
  | some before =>
    if (s.closed.lookup n).isNone then failBefore "cannot refer to an open group" 0
    else if n > before then
      failBefore "cannot refer to group defined in the same lookbehind subpattern" 0
    else return

/-- A reference to a closed group; `width` characters wrote it. -/
def referTo (n width : Nat) : Step Pattern := do
  let s ← get
  if (s.closed.lookup n).isNone then failBefore "cannot refer to an open group" width
  else
    checkBehind n
    return .back s.switches.rule n

/-- A reference to a group by its number, written in `width` characters. -/
def reference (n width : Nat) : Step Pattern := do
  if n ≤ (← get).groups then referTo n width
  else failBefore ("invalid group reference " ++ Number.natText n) (width - 1)

/-- A test for one code point. -/
def codeTest (n : Nat) : Step Pattern := do
  return .test (.code (← get).switches.rule false n)

/-- An escape that begins with a digit other than zero: a reference, or an octal code of three
digits. -/
def digitEscape (c : Char) : Step Pattern := do
  match ← takeChars Char.isDigit 1 with
  | [d] =>
    if isOctal c && isOctal d then
      match ← takeChars isOctal 1 with
      | [e] => codeTest (← octalCode [c, d, e])
      | _ => reference (valueIn 10 [c, d]) 3
    else reference (valueIn 10 [c, d]) 3
  | _ => reference (digitValue c) 2

/-- An escape outside a character set, after its two characters. -/
def escape (c : Char) : Step Pattern := do
  let switches := (← get).switches
  match anchorOf? switches.plain c, classItem? switches.plain c with
  | some a, _ => return .anchor a
  | none, some item => return .test (.set switches.rule false [item])
  | none, none =>
    match controlCode? c with
    | some n => codeTest n
    | none =>
      match ← writtenCode? c with
      | some n => codeTest n
      | none =>
        if c == '0' then codeTest (valueIn 8 (← takeChars isOctal 2))
        else if c.isDigit then digitEscape c
        else codeTest (← ownCode c)

/-! ## 4. Character sets -/

/-- An escape inside a character set, after its two characters. -/
def setEscape (c : Char) : Step SetItem := do
  match if c == 'b' then some 8 else controlCode? c with
  | some n => return .code n
  | none =>
    match classItem? (← get).switches.plain c with
    | some item => return item
    | none =>
      match ← writtenCode? c with
      | some n => return .code n
      | none =>
        if isOctal c then return .code (← octalCode (c :: (← takeChars isOctal 2)))
        else return .code (← ownCode c)

/-- One element of a set: a token and what it stands for. -/
def setElement (t : Token) : Step SetItem :=
  match t with
  | .escaped c => setEscape c
  | .plain c => return .code c.toNat

/-- The end of a range. -/
def setRange (low : Token) (lowItem : SetItem) (high : Token) : Step SetItem := do
  let highItem ← setElement high
  let bad : Step SetItem :=
    failBefore ("bad character range " ++ low.text ++ "-" ++ high.text) (low.size + 1 + high.size)
  match lowItem, highItem with
  | .code lo, .code hi => if hi < lo then bad else return .range lo hi
  | _, _ => bad

/-- The items of a set that begins at `here`, up to its closing bracket, the last one first. A
bracket that comes first is an item. -/
def setItems (here : Nat) : Nat → List SetItem → Step (List SetItem)
  | 0, items => return items
  | fuel + 1, items => do
    match ← next with
    | none => failAt "unterminated character set" here
    | some t =>
      if t == .plain ']' && !items.isEmpty then return items
      let item ← setElement t
      if ← accept '-' then
        match ← next with
        | none => failAt "unterminated character set" here
        | some high =>
          if high == .plain ']' then return .code '-'.toNat :: item :: items
          else setItems here fuel ((← setRange t item high) :: items)
      else setItems here fuel (item :: items)

/-- The test of a set; a single code point is a test of its own. -/
def setTest (rule : CaseRule) (negated : Bool) (items : List SetItem) : CharTest :=
  match items with
  | [.code n] => .code rule negated n
  | items => .set rule negated items

/-- A character set, after its opening bracket at `here`. -/
def characterSet (here : Nat) : Step Pattern := do
  let negated ← accept '^'
  let s ← get
  let items ← setItems here (s.rest.length + 1) []
  return .test (setTest s.switches.rule negated items.reverse.eraseDups)

end Reader
end Pattern
end MemberRules
