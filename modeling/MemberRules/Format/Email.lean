/-
# E-mail addresses

An address is a local part, the at sign, a domain, a point and a top-level domain. The local part
and the domain are not empty, the top-level domain has at least two letters, and all three are
written with ASCII characters only. One line feed may follow the address.
-/

namespace MemberRules
namespace Email

/-- ASCII letters and digits. -/
def isAlphanumeric (c : Char) : Bool := c.isAlpha || c.isDigit

/-- The characters of a local part. -/
def isLocalChar (c : Char) : Bool :=
  isAlphanumeric c || c == '.' || c == '_' || c == '%' || c == '+' || c == '-'

/-- The characters of a domain. -/
def isDomainChar (c : Char) : Bool := isAlphanumeric c || c == '.' || c == '-'

/-- Whether characters are a domain, a point and a top-level domain. The top-level domain holds no
point, so the last point of the text ends the domain. -/
def isHost (cs : List Char) : Bool :=
  let top := (cs.reverse.takeWhile (· != '.')).reverse
  let before := cs.take (cs.length - top.length)
  match before.reverse with
  | '.' :: domain =>
    !domain.isEmpty && domain.all isDomainChar && 2 ≤ top.length && top.all Char.isAlpha
  | _ => false

/-- Whether characters are an address and nothing else. -/
def isAddress (cs : List Char) : Bool :=
  let localPart := cs.takeWhile isLocalChar
  match cs.drop localPart.length with
  | '@' :: host => !localPart.isEmpty && isHost host
  | _ => false

/-- Whether a text is an address, with at most one line feed after it. -/
def accepts (s : String) : Bool :=
  let cs := s.toList
  isAddress cs || (cs.getLast? == some '\n' && isAddress cs.dropLast)

end Email
end MemberRules
