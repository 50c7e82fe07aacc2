/-
# Web addresses

An address is split into its scheme and its authority. Blanks and control characters in front are
dropped first, and tabs and line ends everywhere. The scheme ends at the first colon, begins with an
ASCII letter and holds letters, digits, `+`, `-` and `.` only; without such a scheme there is none.
After two slashes the authority reaches up to the next `/`, `?` or `#`: a user up to the last `@`, a
host, and a port after a colon. With one of the brackets `[`, `]` in it and not the other it is
malformed. With both of them its host has to be a numeric address, in brackets that nothing but a
port follows or up to the port. An authority with a character whose compatibility form contains a
mark that separates the parts of an address is malformed as well.
-/
import MemberRules.Format.InternetAddress

namespace MemberRules

/-- The scheme and the authority of an address, each possibly empty. -/
structure WebAddress where
  scheme : String
  authority : String
  deriving DecidableEq, Repr

namespace WebAddress

/-- Characters whose compatibility form contains `/`, `?`, `#`, `@` or `:`. -/
def disguisedMarks : List Nat :=
  [0x2047, 0x2048, 0x2049, 0x2100, 0x2101, 0x2105, 0x2106, 0x2A74, 0xFE13, 0xFE16, 0xFE55, 0xFE56,
    0xFE5F, 0xFE6B, 0xFF03, 0xFF0F, 0xFF1A, 0xFF1F, 0xFF20]

/-- The characters of a scheme. -/
def isSchemeChar (c : Char) : Bool :=
  c.isAlpha || c.isDigit || c == '+' || c == '-' || c == '.'

/-- The scheme, in small letters, and what follows its colon. -/
def splitScheme (cs : List Char) : List Char × List Char :=
  let before := cs.takeWhile (· != ':')
  match before, cs.drop before.length with
  | c :: _, ':' :: rest =>
    if c.isAlpha && before.all isSchemeChar then (before.map Char.toLower, rest) else ([], cs)
  | _, _ => ([], cs)

/-- The authority after two slashes. -/
def authorityOf : List Char → List Char
  | '/' :: '/' :: r => r.takeWhile fun c => c != '/' && c != '?' && c != '#'
  | _ => []

/-- What follows the user: everything after the last `@`. -/
def afterUser (cs : List Char) : List Char := (cs.reverse.takeWhile (· != '@')).reverse

/-- Whether a text is a numeric address that may stand in brackets. -/
def isNumeric (cs : List Char) : Bool :=
  if cs.head? == some 'v' then InternetAddress.isVersioned cs else InternetAddress.isGrouped cs

/-- Whether a host with its port is numeric: in brackets with nothing around them but a port, or
without brackets up to the port. -/
def hasNumericHost (cs : List Char) : Bool :=
  if cs.contains '[' then
    match cs with
    | '[' :: r =>
      let host := r.takeWhile (· != ']')
      let port := (r.drop host.length).tail
      (port.isEmpty || port.head? == some ':') && isNumeric host
    | _ => false
  else isNumeric (cs.takeWhile (· != ':'))

/-- Whether the brackets of an authority come together and belong to a numeric host. -/
def hasProperBrackets (cs : List Char) : Bool :=
  cs.contains '[' == cs.contains ']' && (!cs.contains '[' || hasNumericHost (afterUser cs))

/-- Whether an authority can stand in an address. -/
def isAuthority (cs : List Char) : Bool :=
  hasProperBrackets cs && !cs.any fun c => disguisedMarks.contains c.toNat

/-- A text without blanks and control characters in front, and without tabs and line ends. -/
def cleaned (cs : List Char) : List Char :=
  (cs.dropWhile fun c => c.toNat ≤ 32).filter fun c => c != '\t' && c != '\r' && c != '\n'

/-- Splits an address, `none` if its authority is malformed. -/
def ofText? (s : String) : Option WebAddress :=
  let (scheme, rest) := splitScheme (cleaned s.toList)
  let authority := authorityOf rest
  if isAuthority authority then some ⟨String.ofList scheme, String.ofList authority⟩ else none

/-- Whether a text is an address with an authority and one of the schemes. -/
def accepts (schemes : List String) (s : String) : Bool :=
  match ofText? s with
  | some a => schemes.contains a.scheme && !a.authority.isEmpty
  | none => false

end WebAddress
end MemberRules
