/-
# Powers of the base, rounding, and digits

`roundHalfEven num den` is the whole number nearest to `num / den`; a quotient half way between
two goes to the even one. It is the rounding of decimal arithmetic and of binary floating point.
-/

namespace MemberRules
namespace Number

/-- A power of ten. -/
def tenTo (n : Nat) : Nat := Nat.pow 10 n

/-- A power of two. -/
def twoTo (n : Nat) : Nat := Nat.pow 2 n

/-- The whole number nearest to `num / den`, of two equally near the even one. -/
def roundHalfEven (num den : Nat) : Nat :=
  let q := num / den
  let r := num % den
  if 2 * r < den then q
  else if den < 2 * r then q + 1
  else if q % 2 == 0 then q else q + 1

/-- The number of decimal digits of a number; zero has one. -/
def digitCount (n : Nat) : Nat := (Nat.toDigits 10 n).length

/-- The greatest number of decimal digits that a whole number may have to be read or written. -/
def digitLimit : Nat := 4300

/-- A whole number in decimal digits. -/
def natText (n : Nat) : String := String.ofList (Nat.toDigits 10 n)

/-- An integer in decimal digits, a minus sign before a negative one. -/
def intText (i : Int) : String :=
  if i < 0 then "-" ++ natText i.natAbs else natText i.natAbs

/-- A number in decimal digits, padded with zeros on the left to a width. -/
def paddedText (width n : Nat) : String :=
  let digits := Nat.toDigits 10 n
  String.ofList (List.replicate (width - digits.length) '0' ++ digits)

end Number
end MemberRules
