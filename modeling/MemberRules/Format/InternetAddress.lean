/-
# Internet addresses

The written forms of numeric addresses. An address of four octets has decimal numbers up to 255
without leading zeros between points. An address of eight groups has up to four hexadecimal digits
in each, with colons between them; `::` stands once for one or more groups of zeros, the last two
groups may be written as four octets, and a zone may follow a per cent sign.
-/

namespace MemberRules
namespace InternetAddress

/-- A text cut at every occurrence of a character. -/
def pieces (mark : Char) : List Char → List (List Char)
  | [] => [[]]
  | c :: cs =>
    match pieces mark cs with
    | [] => [[c]]
    | p :: ps => if c == mark then [] :: p :: ps else (c :: p) :: ps

/-- A hexadecimal digit. -/
def isHexDigit (c : Char) : Bool :=
  c.isDigit || ('a' ≤ c && c ≤ 'f') || ('A' ≤ c && c ≤ 'F')

/-- The number that decimal digits stand for. -/
def digitsValue (cs : List Char) : Nat := cs.foldl (fun n c => n * 10 + (c.toNat - 48)) 0

/-- A decimal number up to 255 without leading zeros. -/
def isOctet (cs : List Char) : Bool :=
  !cs.isEmpty && cs.length ≤ 3 && cs.all Char.isDigit && (cs.head? != some '0' || cs == ['0']) &&
    digitsValue cs ≤ 255

/-- An address of four octets. -/
def isQuad (cs : List Char) : Bool :=
  let octets := pieces '.' cs
  octets.length == 4 && octets.all isOctet

/-- A group of hexadecimal digits. -/
def isGroup (cs : List Char) : Bool := !cs.isEmpty && cs.length ≤ 4 && cs.all isHexDigit

/-- The groups with four octets at the end as two groups, `none` if they are malformed. -/
def expandQuad (groups : List (List Char)) : Option (List (List Char)) :=
  match groups.reverse with
  | last :: before =>
    if last.contains '.' then
      if isQuad last then some (before.reverse ++ [['0'], ['0']]) else none
    else some groups
  | [] => some []

/-- The groups on one side of `::`: none if it stands at the end, and none of them empty. -/
def isSide (groups : List (List Char)) : Bool := groups == [[]] || groups.all isGroup

/-- The number of groups on one side of `::`. -/
def sideLength (groups : List (List Char)) : Nat := if groups == [[]] then 0 else groups.length

/-- The places of the empty groups between the first and the last one. -/
def gaps (groups : List (List Char)) : List Nat :=
  groups.zipIdx.filterMap fun (g, i) =>
    if g.isEmpty && 0 < i && i + 1 < groups.length then some i else none

/-- Whether groups make an address. -/
def isGroups (groups : List (List Char)) : Bool :=
  match gaps groups with
  | [] => groups.length == 8 && groups.all isGroup
  | [i] =>
    let before := groups.take i
    let after := groups.drop (i + 1)
    isSide before && isSide after && sideLength before + sideLength after ≤ 7
  | _ => false

/-- An address of eight groups, possibly with a zone. -/
def isGrouped (cs : List Char) : Bool :=
  let address := cs.takeWhile (· != '%')
  let zone := cs.drop address.length
  let zoned := zone.isEmpty || (zone.length > 1 && !zone.tail.contains '%')
  let groups := pieces ':' address
  zoned && 3 ≤ groups.length &&
    match expandQuad groups with
    | some groups => groups.length ≤ 9 && isGroups groups
    | none => false

/-- An address of a later version: `v`, hexadecimal digits, a point, and at least one character. -/
def isVersioned : List Char → Bool
  | 'v' :: cs =>
    let version := cs.takeWhile isHexDigit
    match version.isEmpty, cs.drop version.length with
    | false, '.' :: _ :: _ => true
    | _, _ => false
  | _ => false

end InternetAddress
end MemberRules
