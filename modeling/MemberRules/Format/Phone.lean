/-
# Telephone numbers

A number is an optional plus sign and then decimal digits of any script, white space, parentheses,
points and hyphens, with seven to fifteen digits among them.
-/
import MemberRules.Text.Blank
import MemberRules.Text.Digit

namespace MemberRules
namespace Phone

/-- The characters of a number after its sign. -/
def isNumberChar (c : Char) : Bool :=
  Text.isDecimalDigit c || Text.isBlank c || c == '(' || c == ')' || c == '.' || c == '-'

/-- A text without the plus sign at its start. -/
def unsigned : List Char → List Char
  | '+' :: r => r
  | r => r

/-- Whether a text is a telephone number. -/
def accepts (s : String) : Bool :=
  let body := unsigned s.toList
  let digits := s.toList.countP Text.isDigit
  !body.isEmpty && body.all isNumberChar && 7 ≤ digits && digits ≤ 15

end Phone
end MemberRules
