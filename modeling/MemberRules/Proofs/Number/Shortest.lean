/-
# The shortest digits read back

The digits of a binary number are looked for on finer and finer decimal grids, from one digit on.
On each grid only the two neighbours of the number are tried, and what is taken reads back by the
test that is made.  So it only has to be shown that the search ends: with seventeen digits the
decimal grid is finer than the binary one, and one of the two neighbours lies so near that it is
rounded to the number.

* `exists_neighbour_reads_back`: with seventeen digits one of the neighbours reads back.
* `shortest_spec`: the digits of a number in lowest form are read back as that number.
-/
import MemberRules.Proofs.Number.Nearest
import MemberRules.Proofs.Number.Written

namespace MemberRules
namespace Number
namespace Binary64

open Literal (digitsValue)

variable {mant : ℕ} {e exp : ℤ}

/-! ## 1. The number and its size -/

theorem magnitude_eq (mant : ℕ) (e : ℤ) :
    0 < (magnitude mant e).2 ∧
      ((magnitude mant e).1 / (magnitude mant e).2 : ℚ) = mant * 2 ^ e := by
  unfold magnitude
  split
  · rename_i he
    lift e to ℕ using he
    simp [twoTo_eq]
  · rename_i he
    obtain ⟨k, rfl⟩ := Int.exists_eq_neg_ofNat (not_le.mp he).le
    simp [twoTo_eq, div_eq_mul_inv]

/-- A quotient of at least one is as great as its whole part has digits. -/
theorem quotient_digits {num den : ℕ} (hle : den ≤ num) (hden : 0 < den) :
    (10 : ℚ) ^ (digitCount (num / den) - 1) ≤ num / den ∧
      (num / den : ℚ) ≤ 10 ^ digitCount (num / den) := by
  have hfloor : ⌊(num / den : ℚ)⌋₊ = num / den := Nat.floor_div_eq_div num den
  have hlow : (10 : ℚ) ^ (digitCount (num / den) - 1) ≤ (num / den : ℕ) := by
    exact_mod_cast pow_le_of_digitCount (Nat.div_pos hle hden).ne'
  have hhigh : ((num / den : ℕ) : ℚ) + 1 ≤ 10 ^ digitCount (num / den) := by
    exact_mod_cast lt_pow_digitCount (num / den)
  have hbelow := Nat.floor_le (a := (num / den : ℚ)) (by positivity)
  have habove := Nat.lt_floor_add_one (num / den : ℚ)
  rw [hfloor] at hbelow habove
  exact ⟨hlow.trans hbelow, habove.le.trans hhigh⟩

/-- The leading digit stands where the size of the number is. -/
theorem leadingExponent_bounds {num den : ℕ} (hnum : 0 < num) (hden : 0 < den) :
    (10 : ℚ) ^ leadingExponent num den ≤ num / den ∧
      (num / den : ℚ) ≤ 10 ^ (leadingExponent num den + 1) := by
  unfold leadingExponent
  split
  · rename_i hle
    obtain ⟨hlow, hhigh⟩ := quotient_digits hle hden
    have hpos := digitCount_pos (num / den)
    rw [sub_add_cancel, zpow_natCast,
      show (digitCount (num / den) : ℤ) - 1 = (digitCount (num / den) - 1 : ℕ) by omega,
      zpow_natCast]
    exact ⟨hlow, hhigh⟩
  · rename_i hlt
    obtain ⟨hlow, hhigh⟩ := quotient_digits (not_le.mp hlt).le hnum
    have hpos := digitCount_pos (den / num)
    have hnum' : (0 : ℚ) < num := by exact_mod_cast hnum
    have hden' : (0 : ℚ) < den := by exact_mod_cast hden
    rw [← inv_div (den : ℚ) num, zpow_neg, zpow_natCast,
      show -(digitCount (den / num) : ℤ) + 1 = -((digitCount (den / num) - 1 : ℕ) : ℤ) by omega,
      zpow_neg, zpow_natCast]
    exact ⟨inv_anti₀ (by positivity) hhigh, inv_anti₀ (by positivity) hlow⟩

/-! ## 2. The neighbours on a decimal grid -/

/-- The neighbour below a number among the multiples of a power of ten. -/
def neighbour (mant : ℕ) (e exp : ℤ) : ℕ := ⌊(mant * 2 ^ e / 10 ^ exp : ℚ)⌋₊

theorem neighbour_le (mant : ℕ) (e exp : ℤ) :
    neighbour mant e exp * (10 : ℚ) ^ exp ≤ mant * 2 ^ e := by
  rw [← le_div_iff₀ (by positivity)]
  exact Nat.floor_le (by positivity)

theorem lt_next_neighbour (mant : ℕ) (e exp : ℤ) :
    (mant * 2 ^ e : ℚ) < (neighbour mant e exp + 1 : ℕ) * 10 ^ exp := by
  rw [← div_lt_iff₀ (by positivity)]
  exact_mod_cast Nat.lt_floor_add_one _

/-- The quotient that the search computes is the neighbour below. -/
theorem quotient_eq_neighbour (mant : ℕ) (e exp : ℤ) :
    (if exp ≥ 0 then (magnitude mant e).1 / ((magnitude mant e).2 * tenTo exp.toNat)
      else (magnitude mant e).1 * tenTo (-exp).toNat / (magnitude mant e).2) =
        neighbour mant e exp := by
  unfold neighbour
  rw [← (magnitude_eq mant e).2]
  split
  · rename_i hexp
    lift exp to ℕ using hexp
    rw [← Nat.floor_div_eq_div (K := ℚ)]
    simp [tenTo_eq, div_div]
  · rename_i hexp
    obtain ⟨k, rfl⟩ := Int.exists_eq_neg_ofNat (not_le.mp hexp).le
    rw [← Nat.floor_div_eq_div (K := ℚ)]
    simp [tenTo_eq, div_mul_eq_mul_div]

theorem readsBack_iff {coeff : ℕ} : readsBack mant e coeff exp = true ↔
    nearestTo false (coeff * 10 ^ exp) = finite false mant e := by
  rw [readsBack, ofDecimal_eq, beq_iff_eq]

/-- What is taken on a grid is a neighbour that reads back. -/
theorem onGrid?_eq_some {c : ℕ} (h : onGrid? mant e exp = some c) :
    readsBack mant e c exp = true ∧ c ≤ neighbour mant e exp + 1 := by
  unfold onGrid? at h
  dsimp only at h
  rw [quotient_eq_neighbour] at h
  generalize neighbour mant e exp = below at *
  split at h
  · rename_i hbelow habove
    have hc : c = below ∨ c = below + 1 := by
      split_ifs at h <;> simp_all
    rcases hc with rfl | rfl
    · exact ⟨hbelow, by omega⟩
    · exact ⟨habove, le_rfl⟩
  · rename_i hbelow _
    cases h
    exact ⟨hbelow, by omega⟩
  · rename_i _ habove
    cases h
    exact ⟨habove, le_rfl⟩
  · cases h

/-- Something is taken on a grid where one of the neighbours reads back. -/
theorem onGrid?_isSome (h : readsBack mant e (neighbour mant e exp) exp = true ∨
      readsBack mant e (neighbour mant e exp + 1) exp = true) :
    (onGrid? mant e exp).isSome = true := by
  unfold onGrid?
  dsimp only
  rw [quotient_eq_neighbour]
  split
  · split_ifs <;> rfl
  · rfl
  · rfl
  · rename_i hbelow habove
    rw [hbelow, habove] at h
    simp at h

/-! ## 3. Seventeen digits -/

/-- On the grid of the seventeenth digit a step is shorter than one of the binary grid. -/
theorem step_lt_unit (hlowest : IsLowest mant e)
    (hgrid : (10 : ℚ) ^ exp * 10 ^ 16 ≤ mant * 2 ^ e) : (10 : ℚ) ^ exp < 2 ^ e := by
  have hunit : (0 : ℚ) < 2 ^ e := by positivity
  have hmant : (mant : ℚ) ≤ 2 ^ 53 := by exact_mod_cast hlowest.mant_lt.le
  have hle : (10 : ℚ) ^ exp * 10 ^ 16 ≤ 2 ^ 53 * 2 ^ e := hgrid.trans (by gcongr)
  linarith

/-- **With seventeen digits one of the neighbours reads back.** -/
theorem exists_neighbour_reads_back (hlowest : IsLowest mant e) (hmant : 0 < mant)
    (hgrid : (10 : ℚ) ^ exp * 10 ^ 16 ≤ mant * 2 ^ e) :
    readsBack mant e (neighbour mant e exp) exp = true ∨
      readsBack mant e (neighbour mant e exp + 1) exp = true := by
  rw [readsBack_iff, readsBack_iff]
  have hstep := step_lt_unit hlowest hgrid
  have hbelow := neighbour_le mant e exp
  have habove := lt_next_neighbour mant e exp
  have hunit : (0 : ℚ) < 2 ^ e := by positivity
  have hone : (2 : ℚ) ^ e ≤ mant * 2 ^ e := by
    refine le_mul_of_one_le_left hunit.le ?_
    exact_mod_cast hmant
  have hnext : ((neighbour mant e exp + 1 : ℕ) : ℚ) * 10 ^ exp =
      neighbour mant e exp * 10 ^ exp + 10 ^ exp := by
    push_cast
    ring
  rw [hnext] at habove ⊢
  generalize (neighbour mant e exp : ℚ) * 10 ^ exp = b at *
  -- the grid of a power of two is finer below it, so there the neighbours are told apart otherwise
  by_cases hpower : mant = 2 ^ 52 ∧ minExp < e
  · obtain ⟨rfl, he⟩ := hpower
    push_cast at *
    rcases lt_or_ge (2 ^ 52 * 2 ^ e - 2 ^ e / 4) b with hnear | hfar
    · left
      rcases hbelow.lt_or_eq with hlt | heq
      · exact nearestTo_eq_of_below hlowest he (by linarith) hnear hlt false
      · exact nearestTo_eq_of_near hlowest (by linarith) (Or.inl heq.ge)
          (by push_cast; linarith) (by push_cast; linarith) false
    · right
      exact nearestTo_eq_of_near hlowest (by linarith) (Or.inl habove.le)
        (by push_cast; linarith) (by push_cast; linarith) false
  · have hmore : 2 ^ 52 + 1 ≤ mant ∨ e = minExp := by
      have := hlowest.leading
      have := hlowest.least_le
      omega
    have hleading : (2 ^ 52 + 1 : ℚ) * 2 ^ e ≤ mant * 2 ^ e ∨ e = minExp := by
      refine hmore.imp_left fun hle => ?_
      gcongr
      exact_mod_cast hle
    rcases lt_or_ge (b + 10 ^ exp) (mant * 2 ^ e + 2 ^ e / 2) with hnear | hfar
    · right
      exact nearestTo_eq_of_near hlowest (by linarith) (hleading.imp_left fun h => by linarith)
        (by linarith) hnear false
    · left
      exact nearestTo_eq_of_near hlowest (by linarith) (hleading.imp_left fun h => by linarith)
        (by linarith) (by linarith) false

/-! ## 4. The search -/

/-- The search ends with digits that are taken on their grid. -/
theorem shortestFrom_spec {top : ℤ} (h : (onGrid? mant e (top - 16)).isSome = true) {tries : ℕ}
    (htries : tries ≤ 16) : ∃ (c : ℕ) (j : ℤ), (0 ≤ j ∧ j ≤ 16) ∧
      shortestFrom mant e top (tries + 1) = (c, top - j) ∧ onGrid? mant e (top - j) = some c := by
  induction tries with
  | zero =>
    obtain ⟨c, hc⟩ := Option.isSome_iff_exists.mp h
    refine ⟨c, 16, by norm_num, ?_, hc⟩
    unfold shortestFrom
    norm_num [hc]
  | succ tries ih =>
    unfold shortestFrom
    dsimp only
    split
    · rename_i c hc
      exact ⟨c, _, by omega, rfl, hc⟩
    · exact ih (by omega)

/-- Digits lose the zeros at their end, which are counted in the exponent. -/
theorem trimZeros_eq (ds : List Char) (exp : ℤ) : ∃ (kept : List Char) (k : ℕ),
    ds = kept ++ List.replicate k '0' ∧ trimZeros ds exp = (kept, exp + k) := by
  have hsplit := exists_trailing_zeros ds
  unfold trimZeros
  dsimp only
  generalize (ds.reverse.takeWhile (· == '0')).length = k at *
  generalize (ds.reverse.dropWhile (· == '0')).reverse = kept at *
  refine ⟨kept, k, hsplit, ?_⟩
  rw [hsplit, List.length_append, List.length_replicate, Nat.add_sub_cancel, List.take_left]

/-- The leading digit of a number in lowest form stands in a small range. -/
theorem top_bounds (hlowest : IsLowest mant e) (hmant : 0 < mant) {top : ℤ}
    (hlow : (10 : ℚ) ^ top ≤ mant * 2 ^ e) (hhigh : (mant * 2 ^ e : ℚ) ≤ 10 ^ (top + 1)) :
    -1075 ≤ top ∧ top ≤ 1024 := by
  have hleast : (10 : ℚ) ^ (-1074 : ℤ) ≤ mant * 2 ^ e := by
    have hone : (1 : ℚ) ≤ mant := by exact_mod_cast hmant
    have hbase : (2 : ℚ) ^ (1074 : ℤ) ≤ 10 ^ (1074 : ℤ) :=
      zpow_le_zpow_left₀ (by norm_num) (by norm_num) (by norm_num)
    calc (10 : ℚ) ^ (-1074 : ℤ) ≤ 2 ^ (-1074 : ℤ) := by
          rw [zpow_neg, zpow_neg]
          exact inv_anti₀ (by positivity) hbase
      _ ≤ 2 ^ e := zpow_le_zpow_right₀ (by norm_num) hlowest.least_le
      _ ≤ mant * 2 ^ e := le_mul_of_one_le_left (by positivity) hone
  have hgreatest : (mant * 2 ^ e : ℚ) ≤ 10 ^ (1024 : ℤ) := by
    have hm : (mant : ℚ) ≤ 2 ^ (53 : ℤ) := by exact_mod_cast hlowest.mant_lt.le
    have he : (2 : ℚ) ^ e ≤ 2 ^ (971 : ℤ) := zpow_le_zpow_right₀ (by norm_num) hlowest.le_greatest
    calc (mant * 2 ^ e : ℚ) ≤ 2 ^ (53 : ℤ) * 2 ^ (971 : ℤ) := by gcongr
      _ = 2 ^ (1024 : ℤ) := by rw [← zpow_add₀ (by norm_num)]; norm_num
      _ ≤ 10 ^ (1024 : ℤ) := zpow_le_zpow_left₀ (by norm_num) (by norm_num) (by norm_num)
  have h1 := (zpow_le_zpow_iff_right₀ (by norm_num : (1 : ℚ) < 10)).mp (hleast.trans hhigh)
  have h2 := (zpow_le_zpow_iff_right₀ (by norm_num : (1 : ℚ) < 10)).mp (hlow.trans hgreatest)
  omega

/-- The search finds at most eighteen digits, which read back. -/
theorem shortestFrom_reads_back (hlowest : IsLowest mant e) (hmant : 0 < mant) :
    ∃ (c : ℕ) (place : ℤ), shortestFrom mant e
        (leadingExponent (magnitude mant e).1 (magnitude mant e).2) 17 = (c, place) ∧
      readsBack mant e c place = true ∧ c ≤ 10 ^ 17 + 1 ∧ -1091 ≤ place ∧ place ≤ 1024 := by
  obtain ⟨hden, hvalue⟩ := magnitude_eq mant e
  have hpos : (0 : ℚ) < mant * 2 ^ e := by
    have : (0 : ℚ) < mant := by exact_mod_cast hmant
    positivity
  have hnum : 0 < (magnitude mant e).1 := by
    rw [← hvalue] at hpos
    exact Nat.pos_of_ne_zero fun h => by simp [h] at hpos
  obtain ⟨hlow, hhigh⟩ := leadingExponent_bounds hnum hden
  rw [hvalue] at hlow hhigh
  generalize leadingExponent (magnitude mant e).1 (magnitude mant e).2 = top at *
  have hgrid : (10 : ℚ) ^ (top - 16) * 10 ^ 16 ≤ mant * 2 ^ e := by
    rw [← zpow_natCast, ← zpow_add₀ (by norm_num),
      show top - 16 + (16 : ℕ) = top by push_cast; ring]
    exact hlow
  have hsome := onGrid?_isSome (exists_neighbour_reads_back hlowest hmant hgrid)
  obtain ⟨c, j, hj, hfound, hgrid⟩ := shortestFrom_spec hsome (le_refl 16)
  obtain ⟨hback, hle⟩ := onGrid?_eq_some hgrid
  have hfew : (neighbour mant e (top - j) : ℚ) ≤ 10 ^ (j + 1) := by
    have := (neighbour_le mant e (top - j)).trans hhigh
    rw [show top + 1 = j + 1 + (top - j) by ring, zpow_add₀ (by norm_num)] at this
    exact le_of_mul_le_mul_right this (by positivity)
  have hbound : (neighbour mant e (top - j) : ℚ) ≤ 10 ^ (17 : ℤ) :=
    hfew.trans (zpow_le_zpow_right₀ (by norm_num) (by omega))
  have htop := top_bounds hlowest hmant hlow hhigh
  exact ⟨c, top - j, hfound, hback, hle.trans (Nat.succ_le_succ (by exact_mod_cast hbound)),
    by omega, by omega⟩

/-- Digits with the exponent of their last place that stand for a number in lowest form. -/
structure Faithful (mant : ℕ) (e : ℤ) (ds : List Char) (exp : ℤ) : Prop where
  nonempty : ds ≠ []
  digits : ∀ c ∈ ds, c.isDigit = true
  few : digitsValue ds < 10 ^ Decimal.precision
  least_le : -1100 ≤ exp
  le_greatest : exp ≤ 1100
  reads_back : ∀ negative,
    nearestTo negative (digitsValue ds * 10 ^ exp) = finite negative mant e

/-- **The digits of a number in lowest form read back as that number**, and there are few. -/
theorem shortest_spec (hlowest : IsLowest mant e) :
    Faithful mant e (shortest mant e).1 (shortest mant e).2 := by
  generalize h : shortest mant e = digits
  obtain ⟨ds, exp⟩ := digits
  unfold shortest at h
  rcases Nat.eq_zero_or_pos mant with rfl | hmant
  · have he : e = minExp := hlowest.leading.resolve_left (by norm_num)
    obtain ⟨rfl, rfl⟩ : ['0'] = ds ∧ 0 = exp := by simpa using h
    refine ⟨List.cons_ne_nil _ _, by simp, by decide, by norm_num, by norm_num, fun negative => ?_⟩
    simp [digitsValue, nearestTo_zero, he]
  obtain ⟨c, place, hfound, hback, hle, hplace⟩ := shortestFrom_reads_back hlowest hmant
  rw [if_neg (by simpa using hmant.ne')] at h
  dsimp only at h
  rw [hfound] at h
  obtain ⟨kept, k, hsplit, htrim⟩ := trimZeros_eq (Nat.toDigits 10 c) place
  dsimp only at h
  rw [htrim] at h
  cases h
  have hvalue : c = digitsValue ds * 10 ^ k := by
    rw [← digitsValue_toDigits c, hsplit, digitsValue_append, digitsValue_zeros,
      List.length_replicate, Nat.add_zero]
  rw [readsBack_iff] at hback
  have hc : c ≠ 0 := by
    rintro rfl
    rw [Nat.cast_zero, zero_mul, nearestTo_zero] at hback
    cases hback
    exact hmant.ne' rfl
  have hds : 0 < digitsValue ds :=
    Nat.pos_of_ne_zero fun h => hc (by rw [hvalue, h, Nat.zero_mul])
  have hk : k < 18 := by
    refine (Nat.pow_lt_pow_iff_right (by norm_num : 1 < 10)).mp ?_
    calc 10 ^ k ≤ c := by rw [hvalue]; exact Nat.le_mul_of_pos_left _ hds
      _ ≤ 10 ^ 17 + 1 := hle
      _ < 10 ^ 18 := by norm_num
  refine ⟨?_, ?_, ?_, by omega, by omega, fun negative => ?_⟩
  · rintro rfl
    exact hds.ne rfl
  · intro d hd
    refine isDigit_of_mem_toDigits (n := c) ?_
    rw [hsplit]
    exact List.mem_append_left _ hd
  · calc digitsValue ds ≤ c := by rw [hvalue]; exact Nat.le_mul_of_pos_right _ (by positivity)
      _ ≤ 10 ^ 17 + 1 := hle
      _ < 10 ^ Decimal.precision := by decide
  · rw [hvalue, trade_zeros] at hback
    exact nearestTo_sign hback negative

/-- The digits of a number are few enough not to be rounded as a decimal. -/
theorem Faithful.round_exact {ds : List Char} (h : Faithful mant e ds exp) (negative : Bool) :
    ∃ (c : ℕ) (k : ℤ),
      Decimal.round negative (digitsValue ds) exp = .ok (.finite negative c k) ∧
        (c : ℚ) * 10 ^ k = digitsValue ds * 10 ^ exp := by
  have hcount := (digitCount_le_iff (by decide)).mpr h.few
  have hpos := digitCount_pos (digitsValue ds)
  have hleast := h.least_le
  have hgreatest := h.le_greatest
  unfold Decimal.precision at hcount
  refine Decimal.round_exact (Decimal.isShort_of_lt h.few) (fun _ => ?_) (fun _ => ?_) negative
  · unfold Decimal.minLead
    omega
  · unfold Decimal.maxLead
    omega

end Binary64
end Number
end MemberRules
