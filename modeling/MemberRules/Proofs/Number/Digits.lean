/-
# Digits and trailing zeros

A coefficient and its exponent stand for one number, and many pairs stand for the same one: zeros
at the end of the coefficient can be traded for the exponent.  A text of digits is such a pair too,
and so is a decimal that is rounded.  What is shown here is where the number survives: always when
zeros are dropped, and in rounding exactly as long as the significant digits fit.

* `digitsValue_toDigits`, `digitsValue_append`: what a run of digits denotes.
* `exists_trailing_zeros`: a run of digits is the kept ones and then zeros.
* `stripZeros_value`, `stripZeros_mod_ten`: the coefficient of a number without trailing zeros.
* `Decimal.round_exact`: rounding keeps a number of at most 28 significant digits.
-/
import Mathlib.Data.List.TakeWhile
import Mathlib.Data.Nat.Digits.Defs
import MemberRules.Number.Decimal
import MemberRules.Proofs.Number.Places

namespace MemberRules
namespace Number

open Literal (digitsValue)

/-! ## 1. Runs of digits -/

theorem digitsValue_eq (cs : List Char) : digitsValue cs = Nat.ofDigitChars 10 cs 0 := by
  rw [Nat.ofDigitChars_eq_foldl]
  simp only [digitsValue, Nat.mul_comm]

theorem digitsValue_append (as bs : List Char) :
    digitsValue (as ++ bs) = digitsValue as * 10 ^ bs.length + digitsValue bs := by
  rw [digitsValue_eq, Nat.ofDigitChars_append, Nat.ofDigitChars_eq_ofDigitChars_zero,
    ← digitsValue_eq, ← digitsValue_eq, Nat.mul_comm]

@[simp] theorem digitsValue_zeros (n : ℕ) : digitsValue (List.replicate n '0') = 0 := by
  rw [digitsValue_eq, Nat.ofDigitChars_replicate_zero, Nat.mul_zero]

@[simp] theorem digitsValue_toDigits (n : ℕ) : digitsValue (Nat.toDigits 10 n) = n := by
  rw [digitsValue_eq, Nat.ofDigitChars_ten_toDigits]

theorem isDigit_of_mem_toDigits {n : ℕ} {c : Char} (h : c ∈ Nat.toDigits 10 n) :
    c.isDigit = true :=
  Nat.isDigit_of_mem_toDigits (by norm_num) (by norm_num) h

theorem isDigit_of_mem_zeros {n : ℕ} {c : Char} (h : c ∈ List.replicate n '0') :
    c.isDigit = true := by
  rw [List.eq_of_mem_replicate h]
  rfl

/-- A padded number consists of zeros and its digits. -/
theorem toList_paddedText (width n : ℕ) : (paddedText width n).toList =
    List.replicate (width - (Nat.toDigits 10 n).length) '0' ++ Nat.toDigits 10 n := by
  simp [paddedText]

@[simp] theorem digitsValue_paddedText (width n : ℕ) :
    digitsValue (paddedText width n).toList = n := by
  rw [toList_paddedText, digitsValue_append, digitsValue_zeros, digitsValue_toDigits, Nat.zero_mul,
    Nat.zero_add]

theorem isDigit_of_mem_paddedText {width n : ℕ} {c : Char} (h : c ∈ (paddedText width n).toList) :
    c.isDigit = true := by
  rw [toList_paddedText, List.mem_append] at h
  exact h.elim isDigit_of_mem_zeros isDigit_of_mem_toDigits

/-- A run of digits consists of those that are kept and of zeros. -/
theorem exists_trailing_zeros (digits : List Char) :
    digits = (digits.reverse.dropWhile (· == '0')).reverse ++
      List.replicate (digits.reverse.takeWhile (· == '0')).length '0' := by
  have hall : ∀ c ∈ digits.reverse.takeWhile (· == '0'), c = '0' := by
    intro c hc
    simpa using List.mem_takeWhile_imp hc
  have hzeros : digits.reverse.takeWhile (· == '0') =
      List.replicate (digits.reverse.takeWhile (· == '0')).length '0' :=
    List.eq_replicate_iff.mpr ⟨rfl, hall⟩
  calc digits
      = (digits.reverse.takeWhile (· == '0') ++ digits.reverse.dropWhile (· == '0')).reverse := by
        rw [List.takeWhile_append_dropWhile, List.reverse_reverse]
    _ = (digits.reverse.dropWhile (· == '0')).reverse ++
          (digits.reverse.takeWhile (· == '0')).reverse := List.reverse_append
    _ = _ := by conv_lhs => rw [hzeros, List.reverse_replicate]

/-! ## 2. The number of digits -/

theorem digitCount_pos (n : ℕ) : 0 < digitCount n := Nat.length_toDigits_pos

theorem digitCount_le_iff {n k : ℕ} (hk : 0 < k) : digitCount n ≤ k ↔ n < 10 ^ k :=
  Nat.length_toDigits_le_iff (by norm_num) hk

theorem lt_pow_digitCount (n : ℕ) : n < 10 ^ digitCount n :=
  (digitCount_le_iff (digitCount_pos n)).mp le_rfl

theorem pow_le_of_digitCount {n : ℕ} (hn : n ≠ 0) : 10 ^ (digitCount n - 1) ≤ n := by
  by_contra hlt
  rcases Nat.eq_zero_or_pos (digitCount n - 1) with h | h
  · rw [h] at hlt
    omega
  · have := (digitCount_le_iff h).mpr (not_le.mp hlt)
    omega

theorem digitCount_mul_pow {n : ℕ} (hn : n ≠ 0) (k : ℕ) :
    digitCount (n * 10 ^ k) = digitCount n + k := by
  have hpos := digitCount_pos n
  have hupper : digitCount (n * 10 ^ k) ≤ digitCount n + k := by
    rw [digitCount_le_iff (by omega), pow_add]
    exact Nat.mul_lt_mul_of_pos_right (lt_pow_digitCount n) (by positivity)
  have hlower : ¬ digitCount (n * 10 ^ k) ≤ digitCount n + k - 1 := by
    intro hle
    rcases Nat.eq_zero_or_pos (digitCount n + k - 1) with h | h
    · have := digitCount_pos (n * 10 ^ k)
      omega
    rw [digitCount_le_iff h, show digitCount n + k - 1 = digitCount n - 1 + k by omega,
      pow_add] at hle
    exact absurd (Nat.mul_le_mul_right (10 ^ k) (pow_le_of_digitCount hn)) (not_le.mpr hle)
  omega

/-- A number that fits a width is padded to that width. -/
theorem length_paddedText {width n : ℕ} (hwidth : 0 < width) (hn : n < 10 ^ width) :
    (paddedText width n).toList.length = width := by
  have hle := (digitCount_le_iff hwidth).mpr hn
  unfold digitCount at hle
  rw [toList_paddedText, List.length_append, List.length_replicate]
  omega

/-! ## 3. Coefficients and exponents -/

/-- Zeros at the end of a coefficient count in the exponent. -/
theorem trade_zeros (n k : ℕ) (e : ℤ) : ((n * 10 ^ k : ℕ) : ℚ) * 10 ^ e = n * 10 ^ (e + k) := by
  rw [zpow_add₀ (by norm_num), zpow_natCast]
  push_cast
  ring

namespace Decimal

theorem stripZeros_value (fuel coeff : ℕ) (exp : ℤ) :
    ((stripZeros fuel coeff exp).1 : ℚ) * 10 ^ (stripZeros fuel coeff exp).2 =
      coeff * 10 ^ exp := by
  induction fuel generalizing coeff exp with
  | zero => rfl
  | succ fuel ih =>
    unfold stripZeros
    split_ifs with hzero hmod
    · rw [beq_iff_eq.mp hzero]
      simp
    · have hcoeff : coeff = coeff / 10 * 10 ^ 1 := by
        have := beq_iff_eq.mp hmod
        omega
      rw [ih]
      conv_rhs => rw [hcoeff, trade_zeros]
      rfl
    · rfl

theorem stripZeros_mod_ten {fuel coeff : ℕ} (hne : coeff ≠ 0) (hlt : coeff < 10 ^ fuel) (exp : ℤ) :
    (stripZeros fuel coeff exp).1 % 10 ≠ 0 := by
  induction fuel generalizing coeff exp with
  | zero => omega
  | succ fuel ih =>
    unfold stripZeros
    split_ifs with hzero hmod
    · exact absurd (beq_iff_eq.mp hzero) hne
    · have := beq_iff_eq.mp hmod
      exact ih (by omega) (by rw [pow_succ] at hlt; omega) _
    · exact fun h => hmod (beq_iff_eq.mpr h)

/-! ## 4. Rounding to 28 digits -/

/-- Whether a coefficient has at most as many significant digits as arithmetic keeps. -/
def IsShort (coeff : ℕ) : Prop := ∃ n k : ℕ, n < 10 ^ precision ∧ coeff = n * 10 ^ k

theorem isShort_of_lt {coeff : ℕ} (h : coeff < 10 ^ precision) : IsShort coeff :=
  ⟨coeff, 0, h, by rw [pow_zero, Nat.mul_one]⟩

theorem roundHalfEven_mul (n : ℕ) {d : ℕ} (hd : 0 < d) : roundHalfEven (n * d) d = n := by
  simp [roundHalfEven, Nat.mul_div_cancel n hd, hd]

/-- Digits in excess of the precision are zeros, and so none is lost. -/
theorem keepDigits_exact {coeff : ℕ} (hne : coeff ≠ 0) (h : IsShort coeff) (exp : ℤ) :
    ∃ kept k : ℕ, coeff = kept * 10 ^ k ∧ keepDigits coeff exp = (kept, exp + k) := by
  obtain ⟨n, k, hn, rfl⟩ := h
  have hn0 : n ≠ 0 := left_ne_zero_of_mul hne
  have hcount := digitCount_mul_pow hn0 k
  have hle : digitCount n ≤ precision := (digitCount_le_iff (by decide)).mpr hn
  generalize hexcess : digitCount (n * 10 ^ k) - precision = excess
  have hsplit : n * 10 ^ k = n * 10 ^ (k - excess) * 10 ^ excess := by
    rw [Nat.mul_assoc, ← pow_add]
    congr 2
    omega
  have hround : roundHalfEven (n * 10 ^ k) (tenTo excess) = n * 10 ^ (k - excess) := by
    rw [hsplit]
    exact roundHalfEven_mul _ (Nat.pow_pos (by norm_num))
  have hfew : excess ≠ 0 → ¬ digitCount (n * 10 ^ (k - excess)) > precision := by
    rw [digitCount_mul_pow hn0]
    omega
  refine ⟨n * 10 ^ (k - excess), excess, hsplit, ?_⟩
  unfold keepDigits
  rw [hexcess]
  dsimp only
  split_ifs with hnone hmore
  · rw [beq_iff_eq.mp hnone]
    simp
  · rw [hround] at hmore
    exact absurd hmore (hfew fun h => hnone (beq_iff_eq.mpr h))
  · rw [hround]

/-- A result is a finite decimal of the same sign. -/
theorem round_ok {negative : Bool} {coeff : ℕ} {exp : ℤ} {d : Decimal}
    (h : round negative coeff exp = .ok d) : ∃ c e, d = .finite negative c e := by
  unfold round at h
  split_ifs at h
  · exact ⟨_, _, (Except.ok.inj h).symm⟩
  all_goals
    dsimp only at h
    split_ifs at h
    exact ⟨_, _, (Except.ok.inj h).symm⟩

/-- **Rounding keeps a number whose significant digits fit**, if its leading digit stands in the
range of exponents. -/
theorem round_exact {coeff : ℕ} {exp : ℤ} (h : IsShort coeff)
    (hleast : coeff ≠ 0 → minLead ≤ exp + digitCount coeff - 1)
    (hgreatest : coeff ≠ 0 → exp + digitCount coeff - 1 ≤ maxLead) (negative : Bool) :
    ∃ (c : ℕ) (e : ℤ), round negative coeff exp = .ok (.finite negative c e) ∧
      (c : ℚ) * 10 ^ e = coeff * 10 ^ exp := by
  unfold round
  by_cases hzero : coeff = 0
  · subst hzero
    exact ⟨0, _, rfl, by simp⟩
  obtain ⟨kept, k, rfl, hkeep⟩ := keepDigits_exact hzero h exp
  have hkept : kept ≠ 0 := left_ne_zero_of_mul hzero
  have hleast := hleast hzero
  have hgreatest := hgreatest hzero
  have hcount := digitCount_mul_pow hkept k
  refine ⟨kept, exp + k, ?_, (trade_zeros kept k exp).symm⟩
  rw [if_neg (by simpa using hzero), if_neg (not_lt.mpr hleast), hkeep]
  dsimp only
  rw [if_neg (by omega)]

end Decimal
end Number
end MemberRules
