/-
# The nearest binary number

Rounding computes with quotients of whole numbers, scaled so that the mantissa has 53 bits.  What
it finds depends on the rational number only, not on how the quotient is written: it is the
`nearest` whole number on the grid of the number's own binary exponent.  From this form it can be
read off which rational numbers are taken to a given binary one.  Those within half a unit are, and
below a power of two, where the grid is finer, those within a quarter.

* `roundHalfEven_eq`, `nearest_eq`: rounding a quotient is rounding a rational number.
* `Binary64.round_eq`, `Binary64.ofDecimal_eq`: so is rounding to a binary number.
* `Binary64.IsLowest`, `Binary64.isLowest_of_round`: rounding gives numbers in lowest form.
* `Binary64.nearestTo_eq_of_near`, `Binary64.nearestTo_eq_of_below`: what is rounded to a number.
-/
import Mathlib.Algebra.Order.Floor.Semifield
import Mathlib.Data.Int.Log
import Mathlib.Data.Rat.Floor
import MemberRules.Number.Binary64
import MemberRules.Proofs.Number.Places

namespace MemberRules
namespace Number

/-! ## 1. The nearest whole number -/

/-- The whole number nearest to a rational number, of two equally near the even one. -/
def nearest (q : ℚ) : ℕ :=
  if 2 * (q - ⌊q⌋₊) < 1 then ⌊q⌋₊
  else if 1 < 2 * (q - ⌊q⌋₊) then ⌊q⌋₊ + 1
  else if ⌊q⌋₊ % 2 == 0 then ⌊q⌋₊ else ⌊q⌋₊ + 1

theorem roundHalfEven_eq (num : ℕ) {den : ℕ} (hden : 0 < den) :
    roundHalfEven num den = nearest (num / den) := by
  have hpos : (0 : ℚ) < den := by exact_mod_cast hden
  have hfloor : ⌊(num / den : ℚ)⌋₊ = num / den := Nat.floor_div_eq_div num den
  have hrest : (num / den : ℚ) - (num / den : ℕ) = (num % den : ℕ) / den := by
    have hsplit : (num : ℚ) = den * (num / den : ℕ) + (num % den : ℕ) := by
      exact_mod_cast (Nat.div_add_mod num den).symm
    rw [eq_div_iff hpos.ne', sub_mul, div_mul_cancel₀ _ hpos.ne']
    linarith
  have hbelow : 2 * ((num % den : ℕ) / den : ℚ) < 1 ↔ 2 * (num % den) < den := by
    rw [← mul_div_assoc, div_lt_one hpos]
    exact_mod_cast Iff.rfl
  have habove : 1 < 2 * ((num % den : ℕ) / den : ℚ) ↔ den < 2 * (num % den) := by
    rw [← mul_div_assoc, one_lt_div hpos]
    exact_mod_cast Iff.rfl
  unfold roundHalfEven nearest
  simp only [hfloor, hrest, hbelow, habove]

/-- A whole number less than one half away is the nearest one. -/
theorem nearest_eq {q : ℚ} {m : ℕ} (hq : 0 ≤ q) (hlow : (m : ℚ) - 1 / 2 < q)
    (hhigh : q < m + 1 / 2) : nearest q = m := by
  have hfloor := Nat.floor_le hq
  have hnext := Nat.lt_floor_add_one q
  unfold nearest
  generalize ⌊q⌋₊ = f at *
  have hle : f ≤ m := by
    have : (f : ℚ) < m + 1 := by linarith
    exact Nat.lt_succ_iff.mp (by exact_mod_cast this)
  have hge : m ≤ f + 1 := by
    have : (m : ℚ) < f + 1 + 1 := by linarith
    exact Nat.lt_succ_iff.mp (by exact_mod_cast this)
  rcases Nat.lt_or_ge f m with h | h
  · have hm : m = f + 1 := by omega
    subst hm
    push_cast at hlow hhigh
    rw [if_neg (by linarith), if_pos (by linarith)]
  · have hm : m = f := by omega
    subst hm
    rw [if_pos (by linarith)]

/-- The nearest whole number stays between whole numbers. -/
theorem nearest_bounds {q : ℚ} {a b : ℕ} (hlow : (a : ℚ) ≤ q) (hhigh : q < b) :
    a ≤ nearest q ∧ nearest q ≤ b := by
  have hq : 0 ≤ q := le_trans (by positivity) hlow
  have hfloor : a ≤ ⌊q⌋₊ := Nat.le_floor hlow
  have hnext : ⌊q⌋₊ < b := (Nat.floor_lt hq).mpr hhigh
  unfold nearest
  split_ifs <;> omega

namespace Binary64

/-! ## 2. Rounding a rational number -/

/-- The number with a mantissa that rounding may have carried over. -/
def settled (negative : Bool) (m : ℕ) (e : ℤ) : Binary64 :=
  let (m, e) := if m == twoTo 53 then (twoTo 52, e + 1) else (m, e)
  if e > maxExp then infinite negative else finite negative m e

/-- The number nearest to a rational number with a sign, ties to the even mantissa. -/
def nearestTo (negative : Bool) (y : ℚ) : Binary64 :=
  if y = 0 then finite negative 0 minExp
  else
    let e := max minExp (Int.log 2 y - 52)
    settled negative (nearest (y / 2 ^ e)) e

/-- Scaling divides by a power of two. -/
theorem scaled_eq (num : ℕ) {den : ℕ} (hden : 0 < den) (e : ℤ) :
    0 < (scaled num den e).2 ∧
      ((scaled num den e).1 / (scaled num den e).2 : ℚ) = num / den / 2 ^ e := by
  unfold scaled
  split
  · rename_i he
    lift e to ℕ using he
    refine ⟨by simp only [twoTo_eq, Int.toNat_natCast]; positivity, ?_⟩
    simp [twoTo_eq, div_div]
  · rename_i he
    obtain ⟨k, rfl⟩ := Int.exists_eq_neg_ofNat (not_le.mp he).le
    refine ⟨hden, ?_⟩
    simp [twoTo_eq, div_mul_eq_mul_div]

theorem log_eq {y : ℚ} (hy : 0 < y) {t : ℤ} (hlow : (2 : ℚ) ^ t ≤ y) (hhigh : y < 2 ^ (t + 1)) :
    Int.log 2 y = t := by
  have h1 := (Int.zpow_le_iff_le_log (b := 2) (by norm_num) hy).mp (by exact_mod_cast hlow)
  have h2 := (Int.lt_zpow_iff_log_lt (b := 2) (by norm_num) hy).mp (by exact_mod_cast hhigh)
  omega

/-- The size of a quotient lies in a range that the sizes of its parts give. -/
theorem quotient_bounds {num den : ℕ} (hnum : num ≠ 0) (hden : 0 < den) :
    (2 : ℚ) ^ ((num.log2 : ℤ) - den.log2 - 1) < num / den ∧
      (num / den : ℚ) < 2 ^ ((num.log2 : ℤ) - den.log2 + 1) := by
  have hpos : (0 : ℚ) < den := by exact_mod_cast hden
  have hnum1 : (2 : ℚ) ^ (num.log2 : ℤ) ≤ num := by exact_mod_cast Nat.log2_self_le hnum
  have hnum2 : (num : ℚ) < 2 ^ (num.log2 + 1 : ℤ) := by exact_mod_cast Nat.lt_log2_self
  have hden1 : (2 : ℚ) ^ (den.log2 : ℤ) ≤ den := by exact_mod_cast Nat.log2_self_le hden.ne'
  have hden2 : (den : ℚ) < 2 ^ (den.log2 + 1 : ℤ) := by exact_mod_cast Nat.lt_log2_self
  rw [lt_div_iff₀ hpos, div_lt_iff₀ hpos]
  constructor
  · calc (2 : ℚ) ^ ((num.log2 : ℤ) - den.log2 - 1) * den
        < 2 ^ ((num.log2 : ℤ) - den.log2 - 1) * 2 ^ (den.log2 + 1 : ℤ) := by gcongr
      _ = 2 ^ (num.log2 : ℤ) := by rw [← zpow_add₀ (by norm_num)]; congr 1; ring
      _ ≤ num := hnum1
  · calc (num : ℚ) < 2 ^ (num.log2 + 1 : ℤ) := hnum2
      _ = 2 ^ ((num.log2 : ℤ) - den.log2 + 1) * 2 ^ (den.log2 : ℤ) := by
        rw [← zpow_add₀ (by norm_num)]; congr 1; ring
      _ ≤ 2 ^ ((num.log2 : ℤ) - den.log2 + 1) * den := by gcongr

/-- **Rounding depends on the quotient only.** -/
theorem round_eq (negative : Bool) (num : ℕ) {den : ℕ} (hden : 0 < den) :
    round negative num den = nearestTo negative (num / den) := by
  unfold round nearestTo
  by_cases hnum : num = 0
  · simp [hnum]
  have hpos : (0 : ℚ) < den := by exact_mod_cast hden
  have hy : (0 : ℚ) < num / den := by
    have : (0 : ℚ) < num := by exact_mod_cast Nat.pos_of_ne_zero hnum
    positivity
  obtain ⟨hlow, hhigh⟩ := quotient_bounds hnum hden
  rw [if_neg (by simpa using hnum), if_neg hy.ne']
  generalize (num.log2 : ℤ) - den.log2 = lead at *
  -- the first guess at the exponent is right or too great by one
  have hguess : (scaled num den (lead - 52)).1 < twoTo 52 * (scaled num den (lead - 52)).2 ↔
      (num / den : ℚ) < 2 ^ lead := by
    obtain ⟨hd, hq⟩ := scaled_eq num hden (lead - 52)
    have hd' : (0 : ℚ) < (scaled num den (lead - 52)).2 := by exact_mod_cast hd
    have hcast : (scaled num den (lead - 52)).1 < twoTo 52 * (scaled num den (lead - 52)).2 ↔
        ((scaled num den (lead - 52)).1 / (scaled num den (lead - 52)).2 : ℚ) < 2 ^ 52 := by
      rw [div_lt_iff₀ hd', twoTo_eq]
      exact_mod_cast Iff.rfl
    have hscale : (2 : ℚ) ^ lead = 2 ^ 52 * 2 ^ (lead - 52) := by
      rw [← zpow_natCast, ← zpow_add₀ (by norm_num)]
      congr 1
      ring
    rw [hcast, hq, div_lt_iff₀ (by positivity), hscale]
  have hexp : (if (scaled num den (lead - 52)).1 < twoTo 52 * (scaled num den (lead - 52)).2
      then lead - 52 - 1 else lead - 52) = Int.log 2 (num / den : ℚ) - 52 := by
    split_ifs with h
    · have hlog := log_eq (t := lead - 1) hy hlow.le (by
        rw [sub_add_cancel]
        exact hguess.mp h)
      omega
    · have hlog := log_eq (t := lead) hy (not_lt.mp fun hlt => h (hguess.mpr hlt)) hhigh
      omega
  dsimp only
  rw [hexp]
  generalize max minExp (Int.log 2 (num / den : ℚ) - 52) = e
  obtain ⟨hd, hq⟩ := scaled_eq num hden e
  rw [roundHalfEven_eq _ hd, hq]
  rfl

/-- **A decimal number is taken to the number nearest to it.** -/
theorem ofDecimal_eq (negative : Bool) (coeff : ℕ) (exp : ℤ) :
    ofDecimal negative coeff exp = nearestTo negative (coeff * 10 ^ exp) := by
  unfold ofDecimal
  split
  · rename_i hexp
    lift exp to ℕ using hexp
    rw [round_eq _ _ one_pos]
    simp [tenTo_eq]
  · rename_i hexp
    obtain ⟨k, rfl⟩ := Int.exists_eq_neg_ofNat (not_le.mp hexp).le
    rw [round_eq _ _ (by simp [tenTo_eq])]
    simp [tenTo_eq, div_eq_mul_inv]

/-! ## 3. What is rounded to a number -/

/-- The lowest form of a finite number, in which it is the only one of its value. -/
structure IsLowest (mant : ℕ) (e : ℤ) : Prop where
  mant_lt : mant < 2 ^ 53
  least_le : minExp ≤ e
  le_greatest : e ≤ maxExp
  leading : 2 ^ 52 ≤ mant ∨ e = minExp

variable {mant : ℕ} {e : ℤ} {y : ℚ}

theorem settled_sign {m : ℕ} {k : ℤ} (h : settled false m k = finite false mant e)
    (negative : Bool) : settled negative m k = finite negative mant e := by
  unfold settled at *
  generalize (if m == twoTo 53 then (twoTo 52, k + 1) else (m, k)) = p at *
  dsimp only at *
  by_cases hrange : p.2 > maxExp
  · rw [if_pos hrange] at h
    cases h
  · rw [if_neg hrange] at h ⊢
    cases h
    rfl

/-- The sign takes no part in the rounding. -/
theorem nearestTo_sign (h : nearestTo false y = finite false mant e) (negative : Bool) :
    nearestTo negative y = finite negative mant e := by
  unfold nearestTo at *
  split_ifs at * with hzero
  · cases h
    rfl
  · exact settled_sign h negative

/-- A mantissa of at most 53 bits is settled in lowest form. -/
theorem isLowest_of_settled {m : ℕ} {k : ℤ} {n n' : Bool} (hm : m ≤ 2 ^ 53) (hk : minExp ≤ k)
    (hleading : 2 ^ 52 ≤ m ∨ k = minExp) (h : settled n m k = finite n' mant e) :
    IsLowest mant e := by
  unfold settled at h
  dsimp only at h
  split_ifs at h with hcarry hrange hrange <;> cases h
  · exact ⟨by simp [twoTo_eq], by omega, not_lt.mp hrange, .inl (by simp [twoTo_eq])⟩
  · have hne : m ≠ 2 ^ 53 := fun heq => hcarry (by simp [heq, twoTo_eq])
    exact ⟨by omega, hk, not_lt.mp hrange, hleading⟩

theorem isLowest_of_nearestTo {n n' : Bool} (hy : 0 ≤ y)
    (h : nearestTo n y = finite n' mant e) : IsLowest mant e := by
  unfold nearestTo at h
  split_ifs at h with hzero
  · cases h
    exact ⟨by norm_num, le_rfl, by decide, .inr rfl⟩
  have hpos : 0 < y := lt_of_le_of_ne hy (Ne.symm hzero)
  have hlog := Int.zpow_log_le_self (b := 2) (by norm_num) hpos
  have hsucc := Int.lt_zpow_succ_log_self (b := 2) (by norm_num) y
  push_cast at hlog hsucc
  dsimp only at h
  have hexp : Int.log 2 y - 52 ≤ max minExp (Int.log 2 y - 52) := le_max_right _ _
  have hhigh : y / 2 ^ max minExp (Int.log 2 y - 52) < (2 ^ 53 : ℕ) := by
    rw [div_lt_iff₀ (by positivity)]
    calc y < 2 ^ (Int.log 2 y + 1) := hsucc
      _ ≤ 2 ^ (53 + max minExp (Int.log 2 y - 52)) :=
        zpow_le_zpow_right₀ (by norm_num) (by omega)
      _ = _ := by rw [zpow_add₀ (by norm_num)]; norm_cast
  refine isLowest_of_settled (nearest_bounds (a := 0) (by simp; positivity) hhigh).2
    (le_max_left _ _) ?_ h
  rcases le_total (Int.log 2 y - 52) minExp with hmin | hmax
  · exact .inr (max_eq_left hmin)
  · left
    have hlow : ((2 ^ 52 : ℕ) : ℚ) ≤ y / 2 ^ max minExp (Int.log 2 y - 52) := by
      rw [max_eq_right hmax, le_div_iff₀ (by positivity)]
      calc (2 ^ 52 : ℕ) * (2 : ℚ) ^ (Int.log 2 y - 52)
          = 2 ^ (52 + (Int.log 2 y - 52)) := by rw [zpow_add₀ (by norm_num)]; norm_cast
        _ = 2 ^ Int.log 2 y := by congr 1; ring
        _ ≤ y := hlog
    exact (nearest_bounds hlow hhigh).1

/-- **Rounding gives numbers in lowest form**, and so do reading, sums and products, which all end
with it. -/
theorem isLowest_of_round {n n' : Bool} {num den : ℕ} (hden : 0 < den)
    (h : round n num den = finite n' mant e) : IsLowest mant e := by
  rw [round_eq n num hden] at h
  exact isLowest_of_nearestTo (by positivity) h

theorem nearestTo_zero (negative : Bool) : nearestTo negative 0 = finite negative 0 minExp :=
  if_pos rfl

/-- **What is less than half a unit away is rounded to the number**, if it does not stand on the
finer grid below it. -/
theorem nearestTo_eq_of_near (hlowest : IsLowest mant e) (hy : 0 < y)
    (hgrid : 2 ^ 52 * 2 ^ e ≤ y ∨ e = minExp)
    (hlow : mant * 2 ^ e - 2 ^ e / 2 < y) (hhigh : y < mant * 2 ^ e + 2 ^ e / 2)
    (negative : Bool) : nearestTo negative y = finite negative mant e := by
  have hunit : (0 : ℚ) < 2 ^ e := by positivity
  have hmant : (mant : ℚ) + 1 ≤ 2 ^ 53 := by exact_mod_cast hlowest.mant_lt
  have hbelow : y < 2 ^ (e + 53) := by
    rw [zpow_add₀ (by norm_num)]
    calc y < (mant + 1) * 2 ^ e := by linarith
      _ ≤ 2 ^ 53 * 2 ^ e := by gcongr
      _ = 2 ^ e * 2 ^ (53 : ℤ) := by rw [mul_comm]; norm_cast
  have hlog : Int.log 2 y < e + 53 :=
    (Int.lt_zpow_iff_log_lt (b := 2) (by norm_num) hy).mp (by exact_mod_cast hbelow)
  have hexp : max minExp (Int.log 2 y - 52) = e := by
    rcases hgrid with hgrid | rfl
    · have habove : (2 : ℚ) ^ (e + 52) ≤ y := by
        rw [zpow_add₀ (by norm_num), mul_comm]
        exact_mod_cast hgrid
      have := (Int.zpow_le_iff_le_log (b := 2) (by norm_num) hy).mp (by exact_mod_cast habove)
      have := hlowest.least_le
      omega
    · omega
  have hround : nearest (y / 2 ^ e) = mant := by
    refine nearest_eq (by positivity) ?_ ?_
    · rw [lt_div_iff₀ hunit]
      linarith
    · rw [div_lt_iff₀ hunit]
      linarith
  have hcarry : ¬ (mant == twoTo 53) = true := by
    have := hlowest.mant_lt
    simp only [twoTo_eq, beq_iff_eq]
    omega
  have hrange : ¬ e > maxExp := not_lt.mpr hlowest.le_greatest
  unfold nearestTo settled
  rw [if_neg hy.ne']
  simp only [hexp, hround, if_neg hcarry, if_neg hrange]

/-- **Below a power of two the grid is finer**: there what is less than a quarter of a unit away is
rounded to it. -/
theorem nearestTo_eq_of_below (hlowest : IsLowest (2 ^ 52) e) (he : minExp < e) (hy : 0 < y)
    (hlow : 2 ^ 52 * 2 ^ e - 2 ^ e / 4 < y) (hhigh : y < 2 ^ 52 * 2 ^ e) (negative : Bool) :
    nearestTo negative y = finite negative (2 ^ 52) e := by
  have hunit : (0 : ℚ) < 2 ^ e := by positivity
  have hhalf : (2 : ℚ) ^ (e - 1) = 2 ^ e / 2 := by rw [zpow_sub₀ (by norm_num), zpow_one]
  have hlog : Int.log 2 y = e + 51 := by
    refine log_eq hy ?_ ?_
    · rw [zpow_add₀ (by norm_num), show (2 : ℚ) ^ (51 : ℤ) = 2 ^ 51 by norm_cast]
      linarith
    · rw [show e + 51 + 1 = e + 52 by ring, zpow_add₀ (by norm_num),
        show (2 : ℚ) ^ (52 : ℤ) = 2 ^ 52 by norm_cast]
      linarith
  have hexp : max minExp (Int.log 2 y - 52) = e - 1 := by omega
  have hround : nearest (y / 2 ^ (e - 1)) = 2 ^ 53 := by
    refine nearest_eq (by positivity) ?_ ?_
    · rw [lt_div_iff₀ (by positivity), hhalf]
      push_cast
      linarith
    · rw [div_lt_iff₀ (by positivity), hhalf]
      push_cast
      linarith
  have hrange : ¬ e > maxExp := not_lt.mpr hlowest.le_greatest
  unfold nearestTo settled
  rw [if_neg hy.ne']
  simp only [hexp, hround, twoTo_eq, beq_self_eq_true, if_true, sub_add_cancel, if_neg hrange]

end Binary64
end Number
end MemberRules
