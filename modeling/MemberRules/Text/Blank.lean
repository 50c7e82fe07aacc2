/-
# White space

A blank character is one of bidirectional type "white space", "segment separator" or "paragraph
separator", or a space separator. That includes the information separators U+001C to U+001F,
U+0085 and the wide space U+3000; the zero-width space U+200B is not one of them.
-/
import MemberRules.Text.Range

namespace MemberRules
namespace Text

/-- The blank characters. -/
def blanks : CodeRanges :=
  [
    (0x9, 0xD), (0x1C, 0x20), (0x85, 0x85), (0xA0, 0xA0), (0x1680, 0x1680), (0x2000, 0x200A),
    (0x2028, 0x2029), (0x202F, 0x202F), (0x205F, 0x205F), (0x3000, 0x3000)]

/-- Whether a character is white space. -/
def isBlank (c : Char) : Bool := blanks.has c.toNat

/-- A text without the white space at its two ends. -/
def strip (s : String) : String :=
  String.ofList ((s.toList.dropWhile isBlank).reverse.dropWhile isBlank).reverse

/-- Whether a byte is white space. -/
def isBlankByte (b : UInt8) : Bool := b == 0x20 || (0x9 ≤ b && b ≤ 0xD)

/-- Bytes without the white space at their two ends. -/
def stripBytes (bs : List UInt8) : List UInt8 :=
  ((bs.dropWhile isBlankByte).reverse.dropWhile isBlankByte).reverse

/-- Whether a text holds white space only, the empty text included. -/
def isBlankText (s : String) : Bool := s.toList.all isBlank

end Text
end MemberRules
