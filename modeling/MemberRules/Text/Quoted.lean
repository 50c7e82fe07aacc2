/-
# Quoted texts

A text inside a printed collection stands between quotes: single ones, unless it holds a single
and no double quote. The quote in use, the backslash and the characters that are not printable are
escaped. `quote` keeps the printable characters of all scripts, `quoteAscii` escapes everything
beyond ASCII, and `quoteBytes` writes a byte string after the letter `b`.
-/
import MemberRules.Text.Printable

namespace MemberRules
namespace Text

/-- The hexadecimal digits of a number, padded with zeros to a width. -/
def hexPadded (width n : Nat) : List Char :=
  let digits := Nat.toDigits 16 n
  List.replicate (width - digits.length) '0' ++ digits

/-- The quote that surrounds a text: single, unless only single ones occur in it. -/
def quoteMark (cs : List Char) : Char :=
  if cs.contains '\'' && !cs.contains '"' then '"' else '\''

/-- The escape of a code point: two, four or eight hexadecimal digits, as few as suffice. -/
def escapeCode (n : Nat) : List Char :=
  if n < 0x100 then '\\' :: 'x' :: hexPadded 2 n
  else if n < 0x10000 then '\\' :: 'u' :: hexPadded 4 n
  else '\\' :: 'U' :: hexPadded 8 n

/-- One character between the given quotes; `plain` says which ones need no escape. -/
def quoteChar (mark : Char) (plain : Char → Bool) (c : Char) : List Char :=
  if c == mark || c == '\\' then ['\\', c]
  else if c == '\n' then ['\\', 'n']
  else if c == '\r' then ['\\', 'r']
  else if c == '\t' then ['\\', 't']
  else if plain c then [c]
  else escapeCode c.toNat

/-- Characters between quotes, with the characters outside `plain` escaped. -/
def quoteWith (plain : Char → Bool) (cs : List Char) : List Char :=
  let mark := quoteMark cs
  mark :: cs.flatMap (quoteChar mark plain) ++ [mark]

/-- A text in quotes, every printable character shown as it is. -/
def quote (s : String) : String := String.ofList (quoteWith isPrintable s.toList)

/-- A text in quotes, everything beyond ASCII escaped. -/
def quoteAscii (s : String) : String :=
  String.ofList (quoteWith (fun c => c.toNat < 0x7F && isPrintable c) s.toList)

/-- A byte string in quotes, the bytes outside ASCII escaped. -/
def quoteBytes (bytes : List UInt8) : String :=
  let cs := bytes.map fun b => Char.ofNat b.toNat
  String.ofList ('b' :: quoteWith (fun c => 0x20 ≤ c.toNat && c.toNat < 0x7F) cs)

end Text
end MemberRules
