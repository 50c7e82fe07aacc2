/-
# Message templates: their parts

A template is text with fields in braces; a brace that is text is written twice. A field names an
argument, by position or by name, then reads attributes (`.name`) and items (`[index]`) of it, may
ask for a quoted form (`!r`, `!a`, `!s`) and ends with a layout after a colon.

Reading never fails as a whole: a place that cannot be read becomes a `malformed` part, so that the
parts before it are looked up first, and their faults win.
-/
import MemberRules.Text.Digit

namespace MemberRules
namespace Template

/-- A field, taken apart no further than the reading of the template asks. -/
structure Field where
  name : List Char
  conversion : Option Char
  layout : List Char
  deriving DecidableEq, Repr

/-- A part of a template. -/
inductive Part
  | literal (text : List Char)
  | field (f : Field)
  | malformed
  deriving DecidableEq, Repr

/-! ## 1. One field -/

/-- The name of a field up to the character that ends it; inside brackets every character but the
closing one belongs to the name. `none` if a brace opens in it or it does not end. -/
def scanName : Bool → List Char → Option (List Char × Char × List Char)
  | _, [] => none
  | true, c :: r => (scanName (c != ']') r).map fun (n, x) => (c :: n, x)
  | false, c :: r =>
    if c == '\x7b' then none
    else if c == '\x7d' || c == ':' || c == '!' then some ([], c, r)
    else (scanName (c == '[') r).map fun (n, x) => (c :: n, x)

/-- The layout of a field up to the brace that closes it; `depth` braces are open. -/
def scanLayout : Nat → List Char → Option (List Char × List Char)
  | _, [] => none
  | depth, c :: r =>
    if c == '\x7b' then (scanLayout (depth + 1) r).map fun (l, x) => (c :: l, x)
    else if c == '\x7d' then
      match depth with
      | 0 => some ([], r)
      | d + 1 => (scanLayout d r).map fun (l, x) => (c :: l, x)
    else (scanLayout depth r).map fun (l, x) => (c :: l, x)

/-- The rest of a field after its name has ended with `stop`. -/
def scanTail (name : List Char) (stop : Char) (r : List Char) : Option (Field × List Char) :=
  if stop == '\x7d' then some (⟨name, none, []⟩, r)
  else if stop == ':' then (scanLayout 0 r).map fun (l, x) => (⟨name, none, l⟩, x)
  else
    match r with
    | [] => none
    | conv :: [] => (scanLayout 0 []).map fun (l, x) => (⟨name, some conv, l⟩, x)
    | conv :: c :: r =>
      if c == '\x7d' then some (⟨name, some conv, []⟩, r)
      else if c == ':' then (scanLayout 0 r).map fun (l, x) => (⟨name, some conv, l⟩, x)
      else none

/-- A field, after its opening brace, and the text that follows it. -/
def scanField (cs : List Char) : Option (Field × List Char) :=
  match scanName false cs with
  | none => none
  | some (name, stop, r) => scanTail name stop r

/-! ## 2. All parts -/

/-- The parts of a template. Every step consumes a character, so `fuel` as large as the text
suffices. -/
def partsFrom : Nat → List Char → List Part
  | 0, _ => []
  | _, [] => []
  | fuel + 1, c :: r =>
    if c == '\x7b' then
      match r with
      | '\x7b' :: r => .literal ['\x7b'] :: partsFrom fuel r
      | _ =>
        match scanField r with
        | none => [.malformed]
        | some (f, r) => .field f :: partsFrom fuel r
    else if c == '\x7d' then
      match r with
      | '\x7d' :: r => .literal ['\x7d'] :: partsFrom fuel r
      | _ => [.malformed]
    else .literal [c] :: partsFrom fuel r

/-- The parts of a template. -/
def parts (cs : List Char) : List Part := partsFrom cs.length cs

/-! ## 3. The argument that a field names -/

/-- What is read from an argument. -/
inductive Access
  | attribute (name : List Char)
  | item (name : List Char)
  | malformed
  deriving DecidableEq, Repr

/-- The name of the argument: the field's name up to a point or an opening bracket. -/
def argumentName (name : List Char) : List Char :=
  name.takeWhile fun c => c != '.' && c != '['

/-- The accesses after the name of the argument. -/
def accessesFrom : Nat → List Char → List Access
  | 0, _ => []
  | _, [] => []
  | fuel + 1, c :: r =>
    if c == '.' then
      let name := argumentName r
      if name.isEmpty then [.malformed]
      else .attribute name :: accessesFrom fuel (r.drop name.length)
    else if c == '[' then
      let name := r.takeWhile (· != ']')
      if name.isEmpty || name.length == r.length then [.malformed]
      else .item name :: accessesFrom fuel (r.drop (name.length + 1))
    else [.malformed]

/-- The accesses that a field's name asks for. -/
def accesses (name : List Char) : List Access :=
  accessesFrom name.length (name.drop (argumentName name).length)

/-- The greatest position that can be written. -/
def maxIndex : Nat := 9223372036854775807

/-- Reads on in a position of which `n` has been read. -/
def readIndex (n : Nat) : List Char → Option (Option Nat)
  | [] => some (some n)
  | c :: r =>
    match Text.decimalDigit? c with
    | none => none
    | some d => if n * 10 + d > maxIndex then some none else readIndex (n * 10 + d) r

/-- A name as a position: `none` if it is no number, `some none` if the number is too large. A name
is read from the left, so that one whose leading digits are too large is a number, whatever
follows. -/
def index? (name : List Char) : Option (Option Nat) :=
  if name.isEmpty then none else readIndex 0 name

end Template
end MemberRules
