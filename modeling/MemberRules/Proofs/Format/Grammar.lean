/-
# What addresses and telephone numbers look like

The checks of e-mail addresses and telephone numbers read a text from its ends inwards.  Here is what
they admit, said of the text as a whole.

An address is three parts around an at sign and a point.  The domain may hold points as well, so there is
more than one point at which a text could be cut; but the top-level domain holds letters only, so only the
last one will do.  The check also admits one line feed behind an address, which no address holds.

A telephone number is a run of digits, white space and some marks, perhaps with a plus sign in front.
There are two notions of a digit: the digits that a number is made of have a place value in some script,
and those that are counted need not.  And there are two readings of where a number ends: at the end of the
text, or before a line feed there.  Neither makes a difference: no character of a number is a digit in one
sense only, and a line feed is white space.

* `Email.IsAddress`, `Phone.IsNumber`: what addresses and numbers look like.
* `email_admits_iff`: the e-mail check admits addresses, and addresses with a line feed behind them.
* `phone_admits_iff`: the telephone check admits nothing at all and numbers.
-/
import Mathlib
import MemberRules.Attribute.Run

namespace MemberRules

/-! ## 1. Addresses -/

namespace Email

variable {c : Char} {cs : List Char} {s : String}

/-- The letters from a to z, small or capital. -/
def IsLetter (c : Char) : Prop := ('a' ≤ c ∧ c ≤ 'z') ∨ ('A' ≤ c ∧ c ≤ 'Z')

/-- The figures from 0 to 9. -/
def IsFigure (c : Char) : Prop := '0' ≤ c ∧ c ≤ '9'

/-- The characters that the part before the at sign is written with. -/
def InLocalPart (c : Char) : Prop := IsLetter c ∨ IsFigure c ∨ c ∈ ['.', '_', '%', '+', '-']

/-- The characters that a domain is written with. -/
def InDomain (c : Char) : Prop := IsLetter c ∨ IsFigure c ∨ c ∈ ['.', '-']

instance (c : Char) : Decidable (IsLetter c) := inferInstanceAs (Decidable (_ ∨ _))

instance (c : Char) : Decidable (IsFigure c) := inferInstanceAs (Decidable (_ ∧ _))

instance (c : Char) : Decidable (InLocalPart c) := inferInstanceAs (Decidable (_ ∨ _))

/-- **Addresses**: a local part, an at sign, a domain, a point and a top-level domain. -/
def IsAddress (s : String) : Prop :=
  ∃ localPart domain top : String, s = localPart ++ "@" ++ domain ++ "." ++ top ∧
    (localPart ≠ "" ∧ ∀ c ∈ localPart.toList, InLocalPart c) ∧
    (domain ≠ "" ∧ ∀ c ∈ domain.toList, InDomain c) ∧
    (2 ≤ top.length ∧ ∀ c ∈ top.toList, IsLetter c)

theorem isAlpha_iff : c.isAlpha = true ↔ IsLetter c := by
  simp [Char.isAlpha, Char.isUpper, Char.isLower, IsLetter, Char.le_def, or_comm]

theorem isDigit_iff : c.isDigit = true ↔ IsFigure c := by
  simp [Char.isDigit, IsFigure, Char.le_def]

theorem isLocalChar_iff : isLocalChar c = true ↔ InLocalPart c := by
  simp [isLocalChar, isAlphanumeric, InLocalPart, isAlpha_iff, isDigit_iff, or_assoc]

theorem isDomainChar_iff : isDomainChar c = true ↔ InDomain c := by
  simp [isDomainChar, isAlphanumeric, InDomain, isAlpha_iff, isDigit_iff, or_assoc]

/-! ### The last point of a host -/

/-- A host is judged by what stands on the two sides of its last point. -/
theorem isHost_append {domain top : List Char} (htop : '.' ∉ top) :
    isHost (domain ++ '.' :: top) =
      (!domain.isEmpty && domain.all isDomainChar && 2 ≤ top.length && top.all Char.isAlpha) := by
  have hpoint : ∀ c ∈ top.reverse, (c != '.') = true := by
    intro c hc
    rw [bne_iff_ne]
    rintro rfl
    exact htop (List.mem_reverse.mp hc)
  have hlast : (domain ++ '.' :: top).reverse.takeWhile (· != '.') = top.reverse := by
    rw [List.reverse_append, List.reverse_cons, List.append_assoc, List.takeWhile_append_of_pos hpoint]
    simp
  have hlength : (domain ++ '.' :: top).length - top.length = (domain ++ ['.']).length := by
    simp
    omega
  have hbefore : (domain ++ '.' :: top).take (domain ++ ['.']).length = domain ++ ['.'] := by
    rw [List.append_cons domain '.' top, List.take_left]
  unfold isHost
  dsimp only
  rw [hlast, List.reverse_reverse, hlength, hbefore, List.reverse_append]
  simp only [List.reverse_singleton, List.singleton_append, List.isEmpty_reverse, List.all_reverse]

theorem isHost_of_notMem (h : '.' ∉ cs) : isHost cs = false := by
  have hall : cs.reverse.takeWhile (· != '.') = cs.reverse := by
    rw [List.takeWhile_eq_self_iff]
    intro c hc
    rw [bne_iff_ne]
    rintro rfl
    exact h (List.mem_reverse.mp hc)
  unfold isHost
  simp [hall]

/-- A text with a point is cut at its last one. -/
theorem exists_last_point (h : '.' ∈ cs) : ∃ domain top, cs = domain ++ '.' :: top ∧ '.' ∉ top := by
  obtain ⟨top, domain, hsplit, hnot⟩ := List.eq_append_cons_of_mem (List.mem_reverse.mpr h)
  refine ⟨domain.reverse, top.reverse, ?_, by simpa using hnot⟩
  have hback := congrArg List.reverse hsplit
  simpa using hback

/-- **What a host is**: a domain, a point and a top-level domain. -/
theorem isHost_iff : isHost cs = true ↔ ∃ domain top, cs = domain ++ '.' :: top ∧
    (domain ≠ [] ∧ ∀ c ∈ domain, InDomain c) ∧ (2 ≤ top.length ∧ ∀ c ∈ top, IsLetter c) := by
  constructor
  · intro h
    by_cases hpoint : '.' ∈ cs
    · obtain ⟨domain, top, rfl, htop⟩ := exists_last_point hpoint
      rw [isHost_append htop] at h
      refine ⟨domain, top, rfl, ?_⟩
      simpa [isDomainChar_iff, isAlpha_iff, and_assoc] using h
    · rw [isHost_of_notMem hpoint] at h
      cases h
  · rintro ⟨domain, top, rfl, hdomain, htop⟩
    have hpoint : '.' ∉ top := fun hmem => by
      have hletter := isAlpha_iff.mpr (htop.2 _ hmem)
      revert hletter
      decide
    rw [isHost_append hpoint]
    simpa [isDomainChar_iff, isAlpha_iff, and_assoc] using And.intro hdomain htop

/-! ### The at sign -/

/-- An address is judged by what stands on the two sides of its at sign. -/
theorem isAddress_append {localPart host : List Char} (h : ∀ c ∈ localPart, isLocalChar c = true) :
    isAddress (localPart ++ '@' :: host) = (!localPart.isEmpty && isHost host) := by
  have hat : isLocalChar '@' = false := by decide
  have hfirst : (localPart ++ '@' :: host).takeWhile isLocalChar = localPart := by
    rw [List.takeWhile_append_of_pos h]
    simp [hat]
  unfold isAddress
  simp only [hfirst, List.drop_left]

/-- **What an address is**: a local part, the at sign and a host. -/
theorem isAddress_iff : isAddress cs = true ↔ ∃ localPart host, cs = localPart ++ '@' :: host ∧
    (localPart ≠ [] ∧ ∀ c ∈ localPart, InLocalPart c) ∧ isHost host = true := by
  constructor
  · intro h
    have hlocal : ∀ c ∈ cs.takeWhile isLocalChar, isLocalChar c = true :=
      fun c hc => List.mem_takeWhile_imp hc
    have hsplit : cs.takeWhile isLocalChar ++ cs.drop (cs.takeWhile isLocalChar).length = cs := by
      rw [← List.prefix_iff_eq_append]
      exact List.takeWhile_prefix _
    unfold isAddress at h
    dsimp only at h
    split at h
    · rename_i host hhost
      rw [hhost] at hsplit
      rw [Bool.and_eq_true, Bool.not_eq_true', List.isEmpty_eq_false_iff] at h
      exact ⟨_, host, hsplit.symm, ⟨h.1, fun c hc => isLocalChar_iff.mp (hlocal c hc)⟩, h.2⟩
    · cases h
  · rintro ⟨localPart, host, rfl, hlocal, hhost⟩
    rw [isAddress_append fun c hc => isLocalChar_iff.mpr (hlocal.2 c hc)]
    simpa [hhost] using hlocal.1

/-- The characters of an address by themselves are an address. -/
theorem isAddress_toList : isAddress s.toList = true ↔ IsAddress s := by
  rw [isAddress_iff]
  constructor
  · rintro ⟨localPart, host, hs, hlocal, hhost⟩
    obtain ⟨domain, top, rfl, hdomain, htop⟩ := isHost_iff.mp hhost
    refine ⟨String.ofList localPart, String.ofList domain, String.ofList top, ?_, ?_, ?_, ?_⟩
    · exact String.toList_injective (by simpa using hs)
    · simpa using hlocal
    · simpa using hdomain
    · simpa using htop
  · rintro ⟨localPart, domain, top, rfl, hlocal, hdomain, htop⟩
    refine ⟨localPart.toList, domain.toList ++ '.' :: top.toList, by simp, ?_, isHost_iff.mpr ?_⟩
    · simpa using hlocal
    · refine ⟨domain.toList, top.toList, rfl, ?_, ?_⟩
      · simpa using hdomain
      · rwa [String.length_toList]

/-! ### What the check admits -/

/-- **A text passes** if it is an address, or an address and a line feed. -/
theorem accepts_iff :
    accepts s = true ↔ IsAddress s ∨ ∃ address, s = address ++ "\n" ∧ IsAddress address := by
  unfold accepts
  simp only [Bool.or_eq_true, Bool.and_eq_true, beq_iff_eq, isAddress_toList]
  refine or_congr_right ⟨?_, ?_⟩
  · rintro ⟨hlast, haddress⟩
    obtain ⟨front, hs⟩ := List.getLast?_eq_some_iff.mp hlast
    rw [hs, List.dropLast_concat] at haddress
    refine ⟨String.ofList front, String.toList_injective (by simpa using hs), ?_⟩
    rwa [← isAddress_toList, String.toList_ofList]
  · rintro ⟨address, rfl, haddress⟩
    rw [← isAddress_toList] at haddress
    simpa using haddress

/-- An address is written with the characters of local parts and the at sign. -/
theorem IsAddress.inLocalPart (h : IsAddress s) : ∀ c ∈ s.toList, InLocalPart c ∨ c = '@' := by
  obtain ⟨localPart, domain, top, rfl, hlocal, hdomain, htop⟩ := h
  intro c hc
  simp only [String.toList_append, List.mem_append] at hc
  rcases hc with (((hc | hc) | hc) | hc) | hc
  · exact .inl (hlocal.2 c hc)
  · exact .inr (by simpa using hc)
  · rcases hdomain.2 c hc with hletter | hfigure | hmark
    · exact .inl (.inl hletter)
    · exact .inl (.inr (.inl hfigure))
    · simp only [List.mem_cons, List.not_mem_nil, or_false] at hmark
      rcases hmark with rfl | rfl
      · exact .inl (.inr (.inr (by decide)))
      · exact .inl (.inr (.inr (by decide)))
  · obtain rfl : c = '.' := by simpa using hc
    exact .inl (.inr (.inr (by decide)))
  · exact .inl (.inl (htop.2 c hc))

/-- There is no line feed in an address. -/
theorem not_isAddress_lineFeed (address : String) : ¬ IsAddress (address ++ "\n") := by
  intro h
  have hchar := h.inLocalPart '\n' (by simp)
  revert hchar
  decide

end Email

/-- The e-mail check has no effect, and every value that is no text fails. -/
theorem Check.runWith_email (d : Drive) (v owner : Value) (w : World) :
    email.runWith d v owner w = (.ok ⟨(v.text?.map Email.accepts).getD false, none⟩, w) := by
  show (_, w) = _
  cases v.text? <;> rfl

/-- **What the e-mail check admits**: texts that are an address, and texts that are an address with a line
feed behind it.  It comes to a result for every value, with no effect.  So it admits just the addresses
but for the values that are an address with a line feed behind it. -/
theorem email_admits_iff (d : Drive) (v owner : Value) (w : World) :
    ∃ passed, Check.email.runWith d v owner w = (.ok ⟨passed, none⟩, w) ∧
      (passed = true ↔ ∃ s, v.text? = some s ∧
        (Email.IsAddress s ∨ ∃ address, s = address ++ "\n" ∧ Email.IsAddress address)) ∧
      ((passed = true ↔ ∃ s, v.text? = some s ∧ Email.IsAddress s) ↔
        ¬ ∃ address, v.text? = some (address ++ "\n") ∧ Email.IsAddress address) := by
  refine ⟨_, Check.runWith_email d v owner w, ?_⟩
  cases htext : v.text? with
  | none => simp
  | some s =>
    simp only [Option.map_some, Option.getD_some, Email.accepts_iff, Option.some.injEq,
      exists_eq_left', true_and]
    by_cases haddress : Email.IsAddress s
    · have hnone : ¬ ∃ address, s = address ++ "\n" ∧ Email.IsAddress address := by
        rintro ⟨address, rfl, -⟩
        exact Email.not_isAddress_lineFeed address haddress
      simp [haddress, hnone]
    · simp [haddress]

/-- **Not every text that the e-mail check admits is an address.** -/
theorem email_admits_more : ¬ ∀ (d : Drive) (v owner : Value) (w : World),
    (Check.email.runWith d v owner w).1 = .ok ⟨true, none⟩ ↔
      ∃ s, v.text? = some s ∧ Email.IsAddress s := by
  intro h
  have hpassed : Email.accepts "a@b.co\n" = true := by decide +kernel
  have hadmits := h .immediate (.text "a@b.co\n") .none { schema := {} }
  rw [Check.runWith_email, Value.text?, Option.map_some, Option.getD_some, hpassed] at hadmits
  obtain ⟨s, hs, haddress⟩ := hadmits.mp rfl
  obtain rfl := Option.some.inj hs
  exact Email.not_isAddress_lineFeed "a@b.co" haddress

/-! ## 2. Telephone numbers -/

namespace Text.CodeRanges

/-- What is in a set of characters lies in one of its ranges. -/
theorem exists_of_has {rs : CodeRanges} {n : Nat} (h : rs.has n = true) :
    ∃ r ∈ rs, r.1 ≤ n ∧ n ≤ r.2 := by
  induction rs with
  | nil => cases h
  | cons r rs ih =>
    obtain ⟨lo, hi⟩ := r
    rw [has] at h
    split at h
    · cases h
    · rename_i hlo
      rw [Bool.or_eq_true, decide_eq_true_eq] at h
      rcases h with hhi | hrest
      · exact ⟨(lo, hi), List.mem_cons_self, by omega, hhi⟩
      · obtain ⟨r, hr, hn⟩ := ih hrest
        exact ⟨r, List.mem_cons_of_mem _ hr, hn⟩

/-- Sets whose ranges lie apart have no character in common. -/
theorem not_has_of_apart {rs rs' : CodeRanges} {n : Nat}
    (happart : ∀ r ∈ rs, ∀ r' ∈ rs', r.2 < r'.1 ∨ r'.2 < r.1) (h : rs.has n = true) :
    rs'.has n = false := by
  rw [Bool.eq_false_iff]
  intro h'
  obtain ⟨r, hr, hlo, hhi⟩ := exists_of_has h
  obtain ⟨r', hr', hlo', hhi'⟩ := exists_of_has h'
  rcases happart r hr r' hr' with hbefore | hafter <;> omega

end Text.CodeRanges

namespace Phone

variable {c : Char} {cs : List Char} {s sign body : String}

/-- The characters that a number is written with after its sign: decimal digits of any script, white
space and some marks. -/
def InNumber (c : Char) : Prop :=
  Text.isDecimalDigit c = true ∨ Text.isBlank c = true ∨ c ∈ ['(', ')', '.', '-']

/-- A text is a sign, if any, and a run of the characters of numbers. -/
structure IsRun (s sign body : String) : Prop where
  eq : s = sign ++ body
  sign : sign = "" ∨ sign = "+"
  nonempty : body ≠ ""
  chars : ∀ c ∈ body.toList, InNumber c

/-- The number of decimal digits. -/
def digits (s : String) : Nat := s.toList.countP Text.isDecimalDigit

/-- **Telephone numbers**: a sign, if any, and a run with seven to fifteen decimal digits. -/
def IsNumber (s : String) : Prop :=
  ∃ sign body, IsRun s sign body ∧ 7 ≤ digits body ∧ digits body ≤ 15

theorem isNumberChar_iff : isNumberChar c = true ↔ InNumber c := by
  simp [isNumberChar, InNumber, or_assoc]

/-- **The two notions of a digit agree on numbers**: white space and marks are digits in neither sense. -/
theorem InNumber.isDigit_eq (h : InNumber c) : Text.isDigit c = Text.isDecimalDigit c := by
  unfold Text.isDigit
  rcases h with hdigit | hblank | hmark
  · rw [hdigit, Bool.true_or]
  · have hapart : ∀ r ∈ Text.blanks, ∀ r' ∈ Text.figureDigits, r.2 < r'.1 ∨ r'.2 < r.1 := by decide
    rw [Text.CodeRanges.not_has_of_apart hapart hblank, Bool.or_false]
  · simp only [List.mem_cons, List.not_mem_nil, or_false] at hmark
    rcases hmark with rfl | rfl | rfl | rfl <;> decide

/-- A plus sign is no digit, so in a number the digits of the run are all there are. -/
theorem IsRun.countP_isDigit (h : IsRun s sign body) : s.toList.countP Text.isDigit = digits body := by
  have hsign : sign.toList.countP Text.isDigit = 0 := by
    rcases h.sign with rfl | rfl <;> decide
  rw [h.eq, String.toList_append, List.countP_append, hsign, Nat.zero_add]
  exact List.countP_congr fun c hc => by rw [(h.chars c hc).isDigit_eq]

/-- A run does not begin with a plus sign, so the sign is taken off. -/
theorem IsRun.unsigned (h : IsRun s sign body) : Phone.unsigned s.toList = body.toList := by
  rw [h.eq, String.toList_append]
  rcases h.sign with rfl | rfl
  · cases hbody : body.toList with
    | nil => rfl
    | cons c cs =>
      have hplus : c ≠ '+' := by
        rintro rfl
        have hchar := isNumberChar_iff.mpr (h.chars '+' (by rw [hbody]; exact List.mem_cons_self))
        revert hchar
        decide
      rw [String.toList_empty, List.nil_append, Phone.unsigned]
      exact fun _ heq => hplus (List.cons.inj heq).1
  · rfl

/-- Every text is a sign, if any, and the rest. -/
theorem exists_sign (cs : List Char) : ∃ sign, (sign = [] ∨ sign = ['+']) ∧
    cs = sign ++ Phone.unsigned cs := by
  unfold Phone.unsigned
  split
  · exact ⟨['+'], .inr rfl, rfl⟩
  · exact ⟨[], .inl rfl, rfl⟩

theorem isRun_iff : (∃ sign body, IsRun s sign body) ↔
    (Phone.unsigned s.toList ≠ [] ∧ ∀ c ∈ Phone.unsigned s.toList, InNumber c) := by
  constructor
  · rintro ⟨sign, body, h⟩
    rw [h.unsigned]
    exact ⟨by simpa using h.nonempty, h.chars⟩
  · rintro ⟨hnonempty, hchars⟩
    obtain ⟨sign, hsign, hs⟩ := exists_sign s.toList
    refine ⟨String.ofList sign, String.ofList (Phone.unsigned s.toList), ?_, ?_, ?_, ?_⟩
    · exact String.toList_injective (by simpa using hs)
    · rcases hsign with rfl | rfl
      · exact .inl rfl
      · exact .inr rfl
    · simpa using hnonempty
    · simpa using hchars

/-- **A text passes** if it is a number. -/
theorem accepts_iff : accepts s = true ↔ IsNumber s := by
  have hrun : accepts s = true ↔ (∃ sign body, IsRun s sign body) ∧
      7 ≤ s.toList.countP Text.isDigit ∧ s.toList.countP Text.isDigit ≤ 15 := by
    rw [isRun_iff]
    unfold accepts
    simp [isNumberChar_iff, and_assoc]
  rw [hrun]
  constructor
  · rintro ⟨⟨sign, body, h⟩, hcount⟩
    rw [h.countP_isDigit] at hcount
    exact ⟨sign, body, h, hcount⟩
  · rintro ⟨sign, body, h, hcount⟩
    rw [h.countP_isDigit]
    exact ⟨⟨sign, body, h⟩, hcount⟩

/-! ### Where a number ends -/

/-- A line feed may follow a run: it is white space. -/
theorem IsRun.lineFeed (h : IsRun s sign body) : IsRun (s ++ "\n") sign (body ++ "\n") where
  eq := by rw [h.eq, String.append_assoc]
  sign := h.sign
  nonempty := by simp
  chars := by
    intro c hc
    rw [String.toList_append, List.mem_append] at hc
    rcases hc with hc | hc
    · exact h.chars c hc
    · obtain rfl : c = '\n' := by simpa using hc
      exact .inr (.inl (by decide))

/-- A run, or a run with a line feed behind it. -/
def EndsLoosely (s : String) : Prop :=
  (∃ sign body, IsRun s sign body) ∨ ∃ front, s = front ++ "\n" ∧ ∃ sign body, IsRun front sign body

/-- The number of digits, those without a place value included. -/
def allDigits (s : String) : Nat := s.toList.countP Text.isDigit

/-- **Numbers whose end and whose digits are taken in the wider sense** are the same numbers. -/
theorem isNumber_iff_loosely :
    IsNumber s ↔ EndsLoosely s ∧ 7 ≤ allDigits s ∧ allDigits s ≤ 15 := by
  unfold EndsLoosely allDigits
  constructor
  · rintro ⟨sign, body, h, hcount⟩
    rw [h.countP_isDigit]
    exact ⟨.inl ⟨sign, body, h⟩, hcount⟩
  · rintro ⟨⟨sign, body, h⟩ | ⟨front, rfl, sign, body, h⟩, hcount⟩
    · rw [h.countP_isDigit] at hcount
      exact ⟨sign, body, h, hcount⟩
    · rw [h.lineFeed.countP_isDigit] at hcount
      exact ⟨sign, body ++ "\n", h.lineFeed, hcount⟩

end Phone

/-- **What the telephone check admits**: nothing at all, and texts that are a number.  It comes to a result
for every value, with no effect.  The texts are the same if a line feed may stand behind a number, and if all
digits are counted. -/
theorem phone_admits_iff (d : Drive) (v owner : Value) (w : World) :
    ∃ passed, Check.phone.runWith d v owner w = (.ok ⟨passed, none⟩, w) ∧
      (passed = true ↔ v = .none ∨ ∃ s, v.text? = some s ∧ Phone.IsNumber s) ∧
      (passed = true ↔ v = .none ∨ ∃ s, v.text? = some s ∧ Phone.EndsLoosely s ∧
        7 ≤ Phone.allDigits s ∧ Phone.allDigits s ≤ 15) := by
  refine ⟨Check.textOrMissing Phone.accepts v, rfl, ?_⟩
  simp only [← Phone.isNumber_iff_loosely, and_self]
  unfold Check.textOrMissing
  cases v <;> simp [Value.text?, Phone.accepts_iff]

end MemberRules
