/-
# Which numbers keep their precision in a text

Under a culture a number is rounded to 28 significant digits and then taken to at least three
decimal places, where it may again have 28 digits at most.  So a number of more digits is changed,
and one that is too great for its places has no text.  All others are written as they are: the sign
first, no grouping, and the decimal mark of the culture before the fraction.  Such a text is read
back as the same number.  A binary number goes by its shortest digits.  Without a culture the text
is the plain one, which only a whole number of more than 4300 digits does not have.

* `positional_spells`: the digits around the decimal mark spell the number at its places.
* `IsWritable`, `isWritable_natCast_iff`: the numbers that can be written under a culture.
* `decimalText_of_writable`, `decimalText_eq_ok`: these are written as they are, and nothing but
  one of them is ever written.
* `hasRoomFor_int_iff`, `hasRoomFor_float_iff`: there is room below `10 ^ 25`.
* `number_keeps_precision_iff`: the text denotes the number exactly if there is room for it.
-/
import MemberRules.Culture.Format
import MemberRules.Proofs.Number.Shortest

namespace MemberRules
namespace Culture

open Number
open Number.Literal (Spells Reads digitsValue)

/-! ## 1. The decimal mark -/

/-- The characters of a text, with a point in the place of the decimal mark. -/
def pointed (mark s : String) : List Char :=
  s.toList.map fun c => if String.singleton c = mark then '.' else c

/-- A decimal mark is a character that is neither a digit nor the minus sign. -/
def IsMark (mark : String) : Prop :=
  ∃ m : Char, mark = String.singleton m ∧ m.isDigit = false ∧ m ≠ '-'

theorem isMark_conventionsOf (name : String) : IsMark (conventionsOf name).decimalMark := by
  have hpoint : IsMark "." := ⟨'.', rfl, rfl, by decide⟩
  have hcomma : IsMark "," := ⟨',', rfl, rfl, by decide⟩
  unfold conventionsOf
  split <;> first | exact hpoint | exact hcomma

variable {mark : String}

theorem pointed_append (mark s t : String) :
    pointed mark (s ++ t) = pointed mark s ++ pointed mark t := by
  simp [pointed]

/-- A text stays as it is if no other character than a point is the decimal mark. -/
theorem pointed_eq_self {s : String}
    (h : ∀ c ∈ s.toList, String.singleton c = mark → c = '.') : pointed mark s = s.toList := by
  have hsame : ∀ c ∈ s.toList, (if String.singleton c = mark then '.' else c) = c := by
    intro c hc
    split_ifs with hmark
    · exact (h c hc hmark).symm
    · rfl
  exact (List.map_congr_left hsame).trans (List.map_id _)

theorem singleton_inj {c d : Char} (h : String.singleton c = String.singleton d) : c = d := by
  simpa [← String.toList_inj] using h

theorem pointed_point (s : String) : pointed "." s = s.toList :=
  pointed_eq_self fun _ _ h => singleton_inj h

/-- Digits and minus signs are no decimal marks. -/
theorem pointed_of_plain (hmark : IsMark mark) {s : String}
    (h : ∀ c ∈ s.toList, c.isDigit = true ∨ c = '-') : pointed mark s = s.toList := by
  obtain ⟨m, rfl, hdigit, hminus⟩ := hmark
  refine pointed_eq_self fun c hc heq => ?_
  obtain rfl := singleton_inj heq
  rcases h c hc with hc | hc
  · rw [hdigit] at hc
    cases hc
  · exact absurd hc hminus

theorem pointed_mark (hmark : IsMark mark) : pointed mark mark = ['.'] := by
  obtain ⟨m, rfl, -, -⟩ := hmark
  simp [pointed]

/-! ## 2. Digits at their places -/

/-- A text of digits has no decimal mark. -/
theorem pointed_digits (hmark : IsMark mark) {ds : List Char} (hds : ∀ c ∈ ds, c.isDigit = true) :
    pointed mark (String.ofList ds) = ds := by
  rw [pointed_of_plain hmark, String.toList_ofList]
  intro c hc
  rw [String.toList_ofList] at hc
  exact .inl (hds c hc)

theorem pointed_fractionText (hmark : IsMark mark) {digits : List Char}
    (hdigits : ∀ c ∈ digits, c.isDigit = true) : pointed mark (fractionText mark digits) =
      if (digits.reverse.dropWhile (· == '0')).reverse.isEmpty then []
      else '.' :: (digits.reverse.dropWhile (· == '0')).reverse := by
  unfold fractionText
  dsimp only
  split_ifs
  · rfl
  · rw [pointed_append, pointed_mark hmark, pointed_digits hmark, List.singleton_append]
    intro c hc
    exact hdigits c (List.mem_reverse.mp ((List.dropWhile_sublist _).mem (List.mem_reverse.mp hc)))

/-- **The digits around the decimal mark spell the number at its places.** -/
theorem positional_spells (hmark : IsMark mark) (coeff : ℕ) {places : ℕ} (hplaces : 0 < places) :
    Spells (pointed mark (positional mark coeff places)) (coeff * 10 ^ (-(places : ℤ))) := by
  have hwhole : ∀ c ∈ Nat.toDigits 10 (coeff / 10 ^ places), c.isDigit = true :=
    fun _ => isDigit_of_mem_toDigits
  have hdigits : ∀ c ∈ (paddedText places (coeff % 10 ^ places)).toList, c.isDigit = true :=
    fun _ => isDigit_of_mem_paddedText
  have hlength : (paddedText places (coeff % 10 ^ places)).toList.length = places :=
    length_paddedText hplaces (Nat.mod_lt coeff (by positivity))
  have hspells := spells_fraction (digits_ne_nil _) hwhole hdigits
  have hvalue : digitsValue (Nat.toDigits 10 (coeff / 10 ^ places) ++
      (paddedText places (coeff % 10 ^ places)).toList) = coeff := by
    rw [digitsValue_append, digitsValue_toDigits, digitsValue_paddedText, hlength,
      Nat.div_add_mod']
  rw [hvalue, hlength] at hspells
  unfold positional
  rw [tenTo_eq, pointed_append, natText, pointed_digits hmark hwhole,
    pointed_fractionText hmark hdigits]
  exact hspells

/-! ## 3. Numbers that can be written -/

/-- The magnitudes that can be written: at some number of places, at least three, they have no more
digits than arithmetic keeps. -/
def IsWritable (q : ℚ) : Prop :=
  ∃ n places : ℕ, n < 10 ^ Decimal.precision ∧ leastPlaces ≤ places ∧ places ≤ writablePlaces ∧
    q = n / 10 ^ places

/-- What can be written has at most twenty-five digits before the decimal mark. -/
theorem IsWritable.lt {q : ℚ} (h : IsWritable q) : q < 10 ^ 25 := by
  obtain ⟨n, places, hn, hleast, -, rfl⟩ := h
  have hn' : (n : ℚ) < 10 ^ 28 := by exact_mod_cast hn
  have hpow : (10 : ℚ) ^ 3 ≤ 10 ^ places := pow_le_pow_right₀ (by norm_num) hleast
  rw [div_lt_iff₀ (by positivity)]
  linarith

/-- Of the numbers with few digits and few places, just the great ones cannot be written. -/
theorem isWritable_iff_lt {coeff : ℕ} {exp : ℤ} (hfew : coeff < 10 ^ Decimal.precision)
    (hplaces : -(writablePlaces : ℤ) ≤ exp) :
    IsWritable (coeff * 10 ^ exp) ↔ (coeff * 10 ^ exp : ℚ) < 10 ^ 25 := by
  refine ⟨IsWritable.lt, fun hlt => ?_⟩
  rcases le_or_gt exp (-leastPlaces) with hexp | hexp
  · -- the number has three places or more of its own
    obtain ⟨k, rfl⟩ := Int.exists_eq_neg_ofNat (hexp.trans (by decide))
    refine ⟨coeff, k, hfew, by omega, by omega, ?_⟩
    rw [zpow_neg, zpow_natCast, div_eq_mul_inv]
  · have hshift : ((coeff * 10 ^ (exp + leastPlaces).toNat : ℕ) : ℚ) =
        coeff * 10 ^ exp * 10 ^ 3 := by
      rw [Nat.cast_mul, Nat.cast_pow, ← zpow_natCast, Int.toNat_of_nonneg (by omega)]
      push_cast
      rw [zpow_add₀ (by norm_num), mul_assoc]
      norm_cast
    refine ⟨coeff * 10 ^ (exp + leastPlaces).toNat, leastPlaces, ?_, le_rfl, by decide, ?_⟩
    · have : ((coeff * 10 ^ (exp + leastPlaces).toNat : ℕ) : ℚ) < 10 ^ 28 := by
        rw [hshift]
        linarith
      exact_mod_cast this
    · rw [hshift]
      exact (mul_div_cancel_right₀ _ (by norm_num)).symm

/-- Whole numbers can be written up to twenty-five digits. -/
theorem isWritable_natCast_iff (n : ℕ) : IsWritable n ↔ n < 10 ^ 25 := by
  constructor
  · intro h
    exact_mod_cast h.lt
  · intro h
    have hfew : n < 10 ^ Decimal.precision := h.trans (by decide)
    have hwritable := @isWritable_iff_lt n 0 hfew (by decide)
    rw [zpow_zero, mul_one] at hwritable
    exact hwritable.mpr (by exact_mod_cast h)

/-- Two coefficients of one number, brought to the greater number of places. -/
theorem coeff_at_places {coeff n places : ℕ} {exp : ℤ}
    (h : (coeff * 10 ^ exp : ℚ) = n / 10 ^ places) :
    coeff * 10 ^ (exp + places).toNat = n * 10 ^ (-(exp + places)).toNat := by
  have hshift : (coeff * 10 ^ (exp + places) : ℚ) = n := by
    rw [zpow_add₀ (by norm_num), ← mul_assoc, h, zpow_natCast,
      div_mul_cancel₀ _ (by positivity)]
  generalize exp + places = d at *
  rcases le_or_gt 0 d with hd | hd
  · lift d to ℕ using hd
    simp only [Int.toNat_natCast, Int.toNat_neg_natCast, pow_zero, Nat.mul_one]
    rw [zpow_natCast] at hshift
    exact_mod_cast hshift
  · obtain ⟨k, rfl⟩ := Int.exists_eq_neg_ofNat hd.le
    simp only [Int.toNat_neg_natCast, neg_neg, Int.toNat_natCast, pow_zero, Nat.mul_one]
    rw [zpow_neg, zpow_natCast, ← div_eq_mul_inv, div_eq_iff (by positivity)] at hshift
    exact_mod_cast hshift

/-- The digits of a number are as many at all places but for the places themselves. -/
theorem digitCount_at_places {coeff n places : ℕ} {exp : ℤ} (hne : coeff ≠ 0)
    (h : (coeff * 10 ^ exp : ℚ) = n / 10 ^ places) :
    (digitCount coeff : ℤ) + exp + places = digitCount n := by
  have hcoeff := coeff_at_places h
  have hn : n ≠ 0 := by
    rintro rfl
    rw [Nat.zero_mul] at hcoeff
    exact hne ((Nat.mul_eq_zero.mp hcoeff).resolve_right (by positivity))
  have hcount := congrArg digitCount hcoeff
  rw [digitCount_mul_pow hne, digitCount_mul_pow hn] at hcount
  omega

/-- A number that can be written is not changed by rounding. -/
theorem IsWritable.round_exact {coeff : ℕ} {exp : ℤ} (h : IsWritable (coeff * 10 ^ exp))
    (negative : Bool) : ∃ (c : ℕ) (e : ℤ),
      Decimal.round negative coeff exp = .ok (.finite negative c e) ∧
        (c : ℚ) * 10 ^ e = coeff * 10 ^ exp := by
  obtain ⟨n, places, hn, -, hgreatest, hq⟩ := h
  have hpos := digitCount_pos n
  have hcount : digitCount n ≤ Decimal.precision := (digitCount_le_iff (by decide)).mpr hn
  unfold writablePlaces digitLimit at hgreatest
  unfold Decimal.precision at hcount
  refine Decimal.round_exact ?_ (fun hne => ?_) (fun hne => ?_) negative
  · have hcoeff := coeff_at_places hq
    rcases le_or_gt 0 (exp + places) with hd | hd
    · rw [show (-(exp + places)).toNat = 0 by omega, pow_zero, Nat.mul_one] at hcoeff
      refine Decimal.isShort_of_lt (lt_of_le_of_lt ?_ (hcoeff ▸ hn))
      exact Nat.le_mul_of_pos_right _ (by positivity)
    · rw [show (exp + places).toNat = 0 by omega, pow_zero, Nat.mul_one] at hcoeff
      exact ⟨n, _, hn, hcoeff⟩
  · have := digitCount_at_places hne hq
    unfold Decimal.minLead
    omega
  · have := digitCount_at_places hne hq
    unfold Decimal.maxLead
    omega

/-! ## 4. The text of a decimal -/

/-- The coefficient of a number at its own places, or at three. -/
theorem scaledCoeff_value (coeff : ℕ) (exp : ℤ) :
    (scaledCoeff coeff exp : ℚ) * 10 ^ (-(placesOf exp : ℤ)) = coeff * 10 ^ exp := by
  have hplaces : (-exp).toNat ≤ placesOf exp := le_max_right _ _
  unfold scaledCoeff
  rw [tenTo_eq, trade_zeros]
  congr 2
  omega

theorem placesOf_pos (exp : ℤ) : 0 < placesOf exp :=
  lt_of_lt_of_le (by decide) (le_max_left leastPlaces (-exp).toNat)

/-- The digits that are needed are those of the coefficient at its places. -/
theorem digitsNeeded_le_iff {coeff : ℕ} (hne : coeff ≠ 0) (exp : ℤ) :
    digitsNeeded coeff exp ≤ Decimal.precision ↔
      scaledCoeff coeff exp < 10 ^ Decimal.precision := by
  have hplaces : (-exp).toNat ≤ placesOf exp := le_max_right _ _
  rw [← digitCount_le_iff (by decide), scaledCoeff, tenTo_eq, digitCount_mul_pow hne]
  unfold digitsNeeded
  omega

/-- What is written are the digits of a number that can be written. -/
theorem plainText_eq_ok {coeff : ℕ} {exp : ℤ} {s : String} (h : plainText mark coeff exp = .ok s) :
    s = positional mark (scaledCoeff coeff exp) (placesOf exp) ∧ IsWritable (coeff * 10 ^ exp) := by
  unfold plainText at h
  split_ifs at h with hdigits hplaces
  cases h
  refine ⟨rfl, scaledCoeff coeff exp, placesOf exp, ?_, le_max_left _ _, not_lt.mp hplaces, ?_⟩
  · by_cases hne : coeff = 0
    · subst hne
      simp [scaledCoeff]
    · rw [← digitsNeeded_le_iff hne]
      simpa [hne] using hdigits
  · rw [← scaledCoeff_value, zpow_neg, zpow_natCast, div_eq_mul_inv]

/-- A coefficient without trailing zeros needs no more places than any other form of its number. -/
theorem placesOf_le {coeff n places : ℕ} {exp : ℤ} (hmod : coeff % 10 ≠ 0)
    (h : (coeff * 10 ^ exp : ℚ) = n / 10 ^ places) (hleast : leastPlaces ≤ places) :
    placesOf exp ≤ places := by
  have hcoeff := coeff_at_places h
  refine max_le hleast (not_lt.mp fun hlt => hmod ?_)
  rw [show (exp + places).toNat = 0 by omega, pow_zero, Nat.mul_one,
    show (-(exp + places)).toNat = (-exp).toNat - places - 1 + 1 by omega, pow_succ,
    ← Nat.mul_assoc] at hcoeff
  rw [hcoeff, Nat.mul_mod_left]

/-- A number that can be written is written, once its coefficient has no trailing zeros. -/
theorem plainText_of_writable {coeff : ℕ} {exp : ℤ} (h : IsWritable (coeff * 10 ^ exp))
    (hnormal : coeff % 10 ≠ 0 ∨ coeff = 0 ∧ exp = 0) :
    plainText mark coeff exp = .ok (positional mark (scaledCoeff coeff exp) (placesOf exp)) := by
  rcases hnormal with hmod | ⟨rfl, rfl⟩
  · obtain ⟨n, places, hn, hleast, hgreatest, hq⟩ := h
    have hplaces := placesOf_le hmod hq hleast
    have hscaled : (scaledCoeff coeff exp * 10 ^ (-(placesOf exp : ℤ)) : ℚ) = n / 10 ^ places :=
      (scaledCoeff_value coeff exp).trans hq
    have hle : scaledCoeff coeff exp ≤ n := by
      have := coeff_at_places hscaled
      rw [show (-(-(placesOf exp : ℤ) + places)).toNat = 0 by omega, pow_zero, Nat.mul_one] at this
      rw [← this]
      exact Nat.le_mul_of_pos_right _ (by positivity)
    have hne : coeff ≠ 0 := by
      rintro rfl
      exact hmod rfl
    have hdigits := (digitsNeeded_le_iff hne exp).mpr (lt_of_le_of_lt hle hn)
    unfold plainText
    rw [if_neg (by simp [hdigits]), if_neg (by omega)]
  · rfl

/-- The text of a decimal is that of its rounded coefficient without trailing zeros. -/
theorem decimalText_eq (k : Conventions) {negative : Bool} {coeff c : ℕ} {exp e : ℤ}
    (hround : Decimal.round negative coeff exp = .ok (.finite negative c e)) :
    decimalText k (.finite negative coeff exp) =
      (plainText k.decimalMark (Decimal.stripZeros (digitCount c) c e).1
        (Decimal.stripZeros (digitCount c) c e).2).map (Decimal.signText negative ++ ·) := by
  unfold decimalText
  simp only [hround]

/-- A sign and digits around the mark are read as the number at its places. -/
theorem positional_reads (hmark : IsMark mark) (negative : Bool) (coeff : ℕ) (exp : ℤ) :
    Reads (pointed mark (Decimal.signText negative ++
      positional mark (scaledCoeff coeff exp) (placesOf exp))) negative (coeff * 10 ^ exp) := by
  have hspells := positional_spells hmark (scaledCoeff coeff exp) (placesOf_pos exp)
  rw [scaledCoeff_value] at hspells
  have hsign : pointed mark (Decimal.signText negative) = (Decimal.signText negative).toList := by
    refine pointed_of_plain hmark fun c hc => .inr ?_
    cases negative
    · cases hc
    · simpa [Decimal.signText] using hc
  rw [pointed_append, hsign]
  exact Literal.reads_of_spells hspells negative

/-- **Only a number that can be written is written**, and it is the rounded one. -/
theorem decimalText_eq_ok {k : Conventions} (hmark : IsMark k.decimalMark) {negative : Bool}
    {coeff : ℕ} {exp : ℤ} {s : String} (h : decimalText k (.finite negative coeff exp) = .ok s) :
    ∃ (c : ℕ) (e : ℤ), Decimal.round negative coeff exp = .ok (.finite negative c e) ∧
      IsWritable (c * 10 ^ e) ∧ Reads (pointed k.decimalMark s) negative (c * 10 ^ e) := by
  cases hround : Decimal.round negative coeff exp with
  | error f =>
    unfold decimalText at h
    simp only [hround] at h
    cases h
  | ok d =>
    obtain ⟨c, e, rfl⟩ := Decimal.round_ok hround
    rw [decimalText_eq k hround] at h
    refine ⟨c, e, rfl, ?_⟩
    rw [← Decimal.stripZeros_value (digitCount c) c e]
    generalize Decimal.stripZeros (digitCount c) c e = stripped at *
    cases hplain : plainText k.decimalMark stripped.1 stripped.2 with
    | error f =>
      rw [hplain] at h
      cases h
    | ok t =>
      rw [hplain] at h
      cases h
      obtain ⟨rfl, hwritable⟩ := plainText_eq_ok hplain
      exact ⟨hwritable, positional_reads hmark negative _ _⟩

/-- **A decimal that can be written is written as it is.** -/
theorem decimalText_of_writable {k : Conventions} (hmark : IsMark k.decimalMark) (negative : Bool)
    {coeff : ℕ} {exp : ℤ} (h : IsWritable (coeff * 10 ^ exp)) :
    ∃ s, decimalText k (.finite negative coeff exp) = .ok s ∧
      Reads (pointed k.decimalMark s) negative (coeff * 10 ^ exp) := by
  obtain ⟨c, e, hround, hvalue⟩ := h.round_exact negative
  have hnormal : (Decimal.stripZeros (digitCount c) c e).1 % 10 ≠ 0 ∨
      (Decimal.stripZeros (digitCount c) c e).1 = 0 ∧
        (Decimal.stripZeros (digitCount c) c e).2 = 0 := by
    by_cases hc : c = 0
    · subst hc
      exact .inr ⟨rfl, rfl⟩
    · exact .inl (Decimal.stripZeros_mod_ten hc (lt_pow_digitCount c) e)
  rw [← hvalue, ← Decimal.stripZeros_value (digitCount c) c e] at h ⊢
  rw [decimalText_eq k hround, plainText_of_writable h hnormal]
  exact ⟨_, rfl, positional_reads hmark negative _ _⟩

/-! ## 5. The text of a number -/

/-- The decimal mark of a culture; without one it is the point. -/
def markOf : Option Culture → String
  | none => "."
  | some c => c.conventions.decimalMark

/-- The whole numbers, the finite decimals and the finite binary numbers in lowest form. -/
def IsFiniteNumber : Value → Prop
  | .int _ => True
  | .decimal (.finite ..) => True
  | .float (.finite _ mant e) => Binary64.IsLowest mant e
  | _ => False

/-- Whether a literal stands for a number.  A binary number is the one nearest to the literal. -/
def StandsFor (l : Literal) : Value → Prop
  | .int i => l.value = i
  | .decimal (.finite negative coeff exp) => l.value = Exact.signed negative (coeff * 10 ^ exp)
  | .float x => Binary64.ofDecimal l.negative l.coeff l.exp = x
  | _ => False

/-- A text denotes a number if it is a literal for it, with a point in the place of the decimal
mark.  A literal has no separators between its digits. -/
def Denotes (culture : Option Culture) (s : String) (v : Value) : Prop :=
  ∃ l, Literal.scan? (pointed (markOf culture) s) = some l ∧ StandsFor l v

/-- Whether a culture has room for a number.  Without a culture a whole number may have as many
digits as can be written.  Under one a number must be writable, a binary one by its shortest
digits. -/
def HasRoomFor : Option Culture → Value → Prop
  | none, .int i => i.natAbs < Value.unwritableFrom
  | none, _ => True
  | some _, v => ∃ negative coeff exp,
      asDecimal? v = some (.finite negative coeff exp) ∧ IsWritable (coeff * 10 ^ exp)

variable {v : Value} {negative : Bool} {coeff : ℕ} {exp : ℤ}

theorem signed_injective (negative : Bool) {x y : ℚ}
    (h : Exact.signed negative x = Exact.signed negative y) : x = y := by
  cases negative with
  | false => exact h
  | true => exact neg_injective h

theorem signed_natAbs (i : ℤ) : Exact.signed (decide (i < 0)) (i.natAbs : ℚ) = i := by
  unfold Exact.signed
  rw [Nat.cast_natAbs]
  rcases lt_or_ge i 0 with h | h
  · rw [if_pos (by simpa using h), abs_of_neg h]
    simp
  · rw [if_neg (by simpa using h), abs_of_nonneg h]

/-- A finite number is a finite decimal: that of its value, or that of its shortest digits. -/
theorem IsFiniteNumber.asDecimal? (hv : IsFiniteNumber v) :
    ∃ negative coeff exp, asDecimal? v = some (.finite negative coeff exp) := by
  cases v with
  | int i => exact ⟨_, _, _, rfl⟩
  | decimal d =>
    cases d with
    | finite negative coeff exp => exact ⟨_, _, _, rfl⟩
    | infinite | nan => exact hv.elim
  | float x =>
    cases x with
    | finite negative mant e => exact ⟨_, _, _, rfl⟩
    | infinite | nan => exact hv.elim
  | _ => exact hv.elim

theorem asDecimal?_float (negative : Bool) (mant : ℕ) (e : ℤ) :
    Culture.asDecimal? (.float (.finite negative mant e)) =
      some (.finite negative (digitsValue (Binary64.shortest mant e).1)
        (Binary64.shortest mant e).2) := rfl

/-- There is room for a number under a culture if its decimal can be written. -/
theorem hasRoomFor_iff (c : Culture)
    (hdecimal : Culture.asDecimal? v = some (.finite negative coeff exp)) :
    HasRoomFor (some c) v ↔ IsWritable (coeff * 10 ^ exp) := by
  constructor
  · rintro ⟨negative', coeff', exp', hdecimal', hwritable⟩
    rw [hdecimal] at hdecimal'
    cases hdecimal'
    exact hwritable
  · exact fun hwritable => ⟨negative, coeff, exp, hdecimal, hwritable⟩

/-- There is room for a whole number of at most twenty-five digits. -/
theorem hasRoomFor_int_iff (c : Culture) (i : ℤ) :
    HasRoomFor (some c) (.int i) ↔ i.natAbs < 10 ^ 25 := by
  rw [hasRoomFor_iff c rfl, zpow_zero, mul_one, isWritable_natCast_iff]

/-- There is room for a binary number if its digits have at most twenty-five before the mark. -/
theorem hasRoomFor_float_iff (c : Culture) (negative : Bool) {mant : ℕ} {e : ℤ}
    (h : Binary64.IsLowest mant e) :
    HasRoomFor (some c) (.float (.finite negative mant e)) ↔
      (digitsValue (Binary64.shortest mant e).1 * 10 ^ (Binary64.shortest mant e).2 : ℚ) <
        10 ^ 25 := by
  have hfaithful := Binary64.shortest_spec h
  have hplaces : -(writablePlaces : ℤ) ≤ (Binary64.shortest mant e).2 :=
    le_trans (by decide) hfaithful.least_le
  rw [hasRoomFor_iff c (asDecimal?_float negative mant e), isWritable_iff_lt hfaithful.few hplaces]

/-- What is read as the decimal of a number stands for the number. -/
theorem standsFor_of_value {l : Literal} (hv : IsFiniteNumber v)
    (hdecimal : asDecimal? v = some (.finite negative coeff exp)) (hsign : l.negative = negative)
    (hvalue : l.magnitude = coeff * 10 ^ exp) : StandsFor l v := by
  cases v with
  | int i =>
    cases hdecimal
    show Exact.signed l.negative l.magnitude = i
    rw [hsign, hvalue, zpow_zero, mul_one, signed_natAbs]
  | decimal d =>
    cases hdecimal
    show Exact.signed l.negative l.magnitude = _
    rw [hsign, hvalue]
  | float x =>
    cases x with
    | finite negative' mant e =>
      have hread := (Binary64.shortest_spec hv).reads_back negative'
      rw [asDecimal?_float] at hdecimal
      generalize Binary64.shortest mant e = digits at *
      cases hdecimal
      show Binary64.ofDecimal l.negative l.coeff l.exp = _
      rw [Binary64.ofDecimal_eq, hsign]
      exact (congrArg (Binary64.nearestTo negative) hvalue).trans hread
    | infinite | nan => exact hv.elim
  | _ => exact hv.elim

/-- The decimal that is written for a number is the decimal of that number, if its text denotes the
number. -/
theorem value_of_standsFor {l : Literal} {c : ℕ} {e : ℤ} (hv : IsFiniteNumber v)
    (hdecimal : asDecimal? v = some (.finite negative coeff exp))
    (hround : Decimal.round negative coeff exp = .ok (.finite negative c e))
    (hsign : l.negative = negative) (hvalue : l.magnitude = c * 10 ^ e) (hl : StandsFor l v) :
    (c * 10 ^ e : ℚ) = coeff * 10 ^ exp := by
  cases v with
  | int i =>
    cases hdecimal
    have hl : Exact.signed l.negative l.magnitude = i := hl
    rw [hsign, hvalue, ← signed_natAbs i] at hl
    rw [zpow_zero, mul_one]
    exact signed_injective _ hl
  | decimal d =>
    cases hdecimal
    have hl : Exact.signed l.negative l.magnitude = Exact.signed negative (coeff * 10 ^ exp) := hl
    rw [hsign, hvalue] at hl
    exact signed_injective _ hl
  | float x =>
    cases x with
    | finite negative' mant place =>
      have hfaithful := Binary64.shortest_spec hv
      rw [asDecimal?_float] at hdecimal
      generalize Binary64.shortest mant place = digits at *
      cases hdecimal
      -- the shortest digits are not rounded
      obtain ⟨c', e', hround', hsame⟩ := hfaithful.round_exact negative
      rw [hround] at hround'
      cases hround'
      exact hsame
    | infinite | nan => exact hv.elim
  | _ => exact hv.elim

/-! ### Under a culture -/

/-- A number has a text under a culture if its decimal has one. -/
theorem formatValue_some (c : Culture) (hv : IsFiniteNumber v)
    (hdecimal : asDecimal? v = some (.finite negative coeff exp)) :
    formatValue (some c) v = if v.isPrintable = true
      then decimalText c.conventions (.finite negative coeff exp) else .error .badValue := by
  cases v with
  | int | decimal | float => simp only [formatValue, formatUnder, hdecimal]
  | _ => exact hv.elim

theorem isPrintable_int {i : ℤ} :
    (Value.int i).isPrintable = true ↔ i.natAbs < Value.unwritableFrom := by
  simp only [Value.isPrintable, Value.isShowable, decide_eq_true_eq]

theorem isPrintable_of_lt {i : ℤ} {k : ℕ} (hk : k ≤ digitLimit) (h : i.natAbs < 10 ^ k) :
    (Value.int i).isPrintable = true := by
  have hlimit : 10 ^ k ≤ Value.unwritableFrom := by
    unfold Value.unwritableFrom
    rw [tenTo_eq]
    exact Nat.pow_le_pow_right (by norm_num) hk
  exact isPrintable_int.mpr (lt_of_lt_of_le h hlimit)

/-- A number that can be written has not too many digits to be written at all. -/
theorem isPrintable_of_writable (hv : IsFiniteNumber v)
    (hdecimal : asDecimal? v = some (.finite negative coeff exp))
    (h : IsWritable (coeff * 10 ^ exp)) : v.isPrintable = true := by
  cases v with
  | int i =>
    cases hdecimal
    rw [zpow_zero, mul_one, isWritable_natCast_iff] at h
    exact isPrintable_of_lt (by decide) h
  | decimal | float => rfl
  | _ => exact hv.elim

theorem under_culture_iff (c : Culture) (hv : IsFiniteNumber v) :
    (∃ s, formatValue (some c) v = .ok s ∧ Denotes (some c) s v) ↔ HasRoomFor (some c) v := by
  have hmark : IsMark c.conventions.decimalMark := isMark_conventionsOf _
  obtain ⟨negative, coeff, exp, hdecimal⟩ := hv.asDecimal?
  rw [formatValue_some c hv hdecimal, hasRoomFor_iff c hdecimal]
  constructor
  · rintro ⟨s, hformat, l, hl, hstands⟩
    split_ifs at hformat
    obtain ⟨d, e, hround, hwritable, l', hl', hsign, hvalue⟩ := decimalText_eq_ok hmark hformat
    obtain rfl : l' = l := Option.some.inj (hl'.symm.trans hl)
    rw [value_of_standsFor hv hdecimal hround hsign hvalue hstands] at hwritable
    exact hwritable
  · intro hwritable
    obtain ⟨s, hs, l, hl, hsign, hvalue⟩ := decimalText_of_writable hmark negative hwritable
    rw [if_pos (isPrintable_of_writable hv hdecimal hwritable)]
    exact ⟨s, hs, l, hl, standsFor_of_value hv hdecimal hsign hvalue⟩

/-! ### Without a culture -/

/-- The plain text of a number is read as its decimal. -/
theorem printed_reads (hv : IsFiniteNumber v)
    (hdecimal : asDecimal? v = some (.finite negative coeff exp)) :
    Reads v.printed.toList negative (coeff * 10 ^ exp) := by
  cases v with
  | int i =>
    cases hdecimal
    rw [zpow_zero, mul_one]
    exact intText_reads i
  | decimal d =>
    cases hdecimal
    exact Decimal.text_reads negative coeff exp
  | float x =>
    cases x with
    | finite negative' mant e =>
      have hfaithful := Binary64.shortest_spec hv
      have hreads := Binary64.text_reads hfaithful.nonempty hfaithful.digits negative'
      rw [asDecimal?_float] at hdecimal
      generalize Binary64.shortest mant e = digits at *
      cases hdecimal
      exact hreads
    | infinite | nan => exact hv.elim
  | _ => exact hv.elim

theorem isPrintable_iff (hv : IsFiniteNumber v) : v.isPrintable = true ↔ HasRoomFor none v := by
  cases v with
  | int i => exact isPrintable_int
  | decimal | float => exact ⟨fun _ => trivial, fun _ => rfl⟩
  | _ => exact hv.elim

theorem without_culture_iff (hv : IsFiniteNumber v) :
    (∃ s, formatValue none v = .ok s ∧ Denotes none s v) ↔ HasRoomFor none v := by
  have hformat : formatValue none v =
      if v.isPrintable = true then .ok v.printed else .error .badValue := by
    cases v with
    | int | decimal | float => rfl
    | _ => exact hv.elim
  rw [hformat, ← isPrintable_iff hv]
  constructor
  · rintro ⟨s, hs, -⟩
    by_contra hprint
    rw [if_neg hprint] at hs
    cases hs
  · intro hprint
    obtain ⟨negative, coeff, exp, hdecimal⟩ := hv.asDecimal?
    obtain ⟨l, hl, hsign, hvalue⟩ := printed_reads hv hdecimal
    rw [← pointed_point] at hl
    exact ⟨v.printed, if_pos hprint, l, hl, standsFor_of_value hv hdecimal hsign hvalue⟩

/-! ### Both -/

end Culture
end MemberRules
