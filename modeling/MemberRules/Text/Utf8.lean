/-
# Bytes as text

Bytes are read as UTF-8. What is not well formed becomes the replacement character: one for each
longest beginning of a character, and one for each byte that can begin none.
-/

namespace MemberRules
namespace Text

/-- The character that stands for malformed bytes. -/
def replacement : Char := Char.ofNat 0xFFFD

/-- The number of bytes after the first one of a character, the range that the second byte must lie
in, and the bits that the first one gives; `none` if the byte begins no character. -/
def leadByte? (b : Nat) : Option (Nat × Nat × Nat × Nat) :=
  if b < 0x80 then some (0, 0, 0, b)
  else if 0xC2 ≤ b && b ≤ 0xDF then some (1, 0x80, 0xBF, b - 0xC0)
  else if b == 0xE0 then some (2, 0xA0, 0xBF, 0)
  else if b == 0xED then some (2, 0x80, 0x9F, b - 0xE0)
  else if 0xE1 ≤ b && b ≤ 0xEF then some (2, 0x80, 0xBF, b - 0xE0)
  else if b == 0xF0 then some (3, 0x90, 0xBF, 0)
  else if b == 0xF4 then some (3, 0x80, 0x8F, 4)
  else if 0xF1 ≤ b && b ≤ 0xF3 then some (3, 0x80, 0xBF, b - 0xF0)
  else none

/-- Reads the bytes that continue a character. The result is the character, or the replacement, and
the bytes that follow. -/
def continueChar : Nat → Nat → Nat → Nat → List Nat → Char × List Nat
  | 0, _, _, code, bs => (Char.ofNat code, bs)
  | _, _, _, _, [] => (replacement, [])
  | n + 1, lo, hi, code, b :: bs =>
    if lo ≤ b && b ≤ hi then continueChar n 0x80 0xBF (code * 64 + (b - 0x80)) bs
    else (replacement, b :: bs)

/-- The characters of bytes; every step reads a byte, so `fuel` as large as their number suffices. -/
def decodeFrom : Nat → List Nat → List Char
  | 0, _ => []
  | _, [] => []
  | fuel + 1, b :: bs =>
    match leadByte? b with
    | none => replacement :: decodeFrom fuel bs
    | some (n, lo, hi, code) =>
      let (c, rest) := continueChar n lo hi code bs
      c :: decodeFrom fuel rest

/-- Bytes as a text. -/
def decode (bytes : List UInt8) : String :=
  String.ofList (decodeFrom bytes.length (bytes.map UInt8.toNat))

/-- The text that well-formed bytes encode, which encodes to them again. -/
def decode? (bytes : List UInt8) : Option String :=
  if (decode bytes).toUTF8.toList == bytes then some (decode bytes) else none

end Text
end MemberRules
