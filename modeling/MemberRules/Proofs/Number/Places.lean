/-
# Numbers on one line

Numbers of all kinds are compared without being written out: two magnitudes are told apart by the
ranges of their sizes where these do not meet, and only magnitudes of about the same size are
brought to a common scale.  What comes out is the order of the numbers themselves.  Every exact
value but the undefined one has a place on one line, the rational numbers between two infinities,
and two values compare as their places do.  So equality of numbers is an equivalence, and their
order is total.

* `Magnitude.value`, `Magnitude.compare_eq`: the order of magnitudes is that of their values.
* `Exact.place?`, `Exact.compare?_eq`: the order of exact values is that of their places.
-/
import Mathlib.Algebra.Order.Field.Power
import Mathlib.Data.Rat.Cast.Order
import Mathlib.Order.Compare
import Mathlib.Order.WithBot
import Mathlib.Tactic.FieldSimp
import Mathlib.Tactic.Linarith
import Mathlib.Tactic.Positivity
import Mathlib.Tactic.Ring
import MemberRules.Number.Exact

namespace MemberRules
namespace Number

/-! ## 1. Orders and powers -/

theorem compare_map {α β : Type} [LinearOrder α] [LinearOrder β] {f : α → β} (hf : StrictMono f)
    (a b : α) : compare (f a) (f b) = compare a b := by
  rw [← cmp_eq_compare, ← cmp_eq_compare, hf.cmp_map_eq]

theorem compare_map_anti {α β : Type} [LinearOrder α] [LinearOrder β] {f : α → β}
    (hf : StrictAnti f) (a b : α) : compare (f a) (f b) = compare b a := by
  rw [← cmp_eq_compare, ← cmp_eq_compare, hf.cmp_map_eq]

theorem tenTo_eq (n : ℕ) : tenTo n = 10 ^ n := rfl

theorem twoTo_eq (n : ℕ) : twoTo n = 2 ^ n := rfl

/-- A power of ten lies between the powers of eight and sixteen. -/
theorem two_zpow_le_ten_zpow (n : ℤ) :
    (2 : ℚ) ^ (if n ≥ 0 then 3 * n else 4 * n) ≤ 10 ^ n ∧
      (10 : ℚ) ^ n ≤ 2 ^ (if n ≥ 0 then 4 * n else 3 * n) := by
  have h8 : (2 : ℚ) ^ (3 * n) = 8 ^ n := by rw [zpow_mul]; norm_num
  have h16 : (2 : ℚ) ^ (4 * n) = 16 ^ n := by rw [zpow_mul]; norm_num
  split
  · rename_i hn
    rw [h8, h16]
    exact ⟨zpow_le_zpow_left₀ hn (by norm_num) (by norm_num),
      zpow_le_zpow_left₀ hn (by norm_num) (by norm_num)⟩
  · rename_i hn
    obtain ⟨k, rfl⟩ := Int.exists_eq_neg_ofNat (not_le.mp hn).le
    rw [h8, h16]
    simp only [zpow_neg, zpow_natCast]
    exact ⟨by gcongr; norm_num, by gcongr; norm_num⟩

namespace Magnitude

variable {a b m : Magnitude}

/-! ## 2. Magnitudes -/

/-- The number that a magnitude stands for. -/
def value (m : Magnitude) : ℚ := m.num * 2 ^ m.two * 10 ^ m.ten

theorem value_pos (h : m.num ≠ 0) : 0 < m.value := by
  have hnum : (0 : ℚ) < m.num := by exact_mod_cast Nat.pos_of_ne_zero h
  unfold value
  positivity

theorem value_nonneg (m : Magnitude) : 0 ≤ m.value := by
  unfold value
  positivity

theorem value_eq_zero_iff : m.value = 0 ↔ m.num = 0 := by
  constructor
  · intro h
    by_contra hnum
    exact (value_pos hnum).ne' h
  · intro h
    simp [value, h]

theorem value_lowered (m : Magnitude) (two ten : ℤ) :
    m.value = (m.lowered two ten).value * (2 ^ two * 10 ^ ten) := by
  unfold value lowered
  dsimp only
  rw [zpow_sub₀ (by norm_num), zpow_sub₀ (by norm_num)]
  field_simp

/-- A magnitude with exponents that are not negative is the number written out. -/
theorem value_eq_expanded (htwo : 0 ≤ m.two) (hten : 0 ≤ m.ten) : m.value = m.expanded := by
  obtain ⟨num, two, ten⟩ := m
  lift two to ℕ using htwo
  lift ten to ℕ using hten
  simp [value, expanded, tenTo_eq, twoTo_eq]

theorem le_value (h : m.num ≠ 0) : (2 : ℚ) ^ m.leastSize ≤ m.value := by
  have hnum : (2 : ℚ) ^ (m.num.log2 : ℤ) ≤ m.num := by
    exact_mod_cast Nat.log2_self_le h
  unfold leastSize value
  rw [zpow_add₀ (by norm_num), zpow_add₀ (by norm_num)]
  gcongr
  exact (two_zpow_le_ten_zpow m.ten).1

theorem value_lt (m : Magnitude) : m.value < (2 : ℚ) ^ m.sizeBound := by
  have hnum : (m.num : ℚ) < 2 ^ (m.num.log2 + 1 : ℤ) := by
    exact_mod_cast Nat.lt_log2_self
  have hten := (two_zpow_le_ten_zpow m.ten).2
  unfold sizeBound value
  rw [zpow_add₀ (by norm_num), zpow_add₀ (by norm_num)]
  calc (m.num * 2 ^ m.two * 10 ^ m.ten : ℚ)
      < 2 ^ (m.num.log2 + 1 : ℤ) * 2 ^ m.two * 10 ^ m.ten := by gcongr
    _ ≤ _ := by gcongr

/-- **Positive magnitudes are told apart by their values.** -/
theorem comparePositive_eq (ha : a.num ≠ 0) (hb : b.num ≠ 0) :
    comparePositive a b = compare a.value b.value := by
  unfold comparePositive
  dsimp only
  have hunit : (0 : ℚ) < 2 ^ min a.two b.two * 10 ^ min a.ten b.ten := by positivity
  -- both are measured in a unit that leaves no negative exponent
  have hscale : compare a.value b.value =
      compare (a.lowered (min a.two b.two) (min a.ten b.ten)).value
        (b.lowered (min a.two b.two) (min a.ten b.ten)).value := by
    rw [value_lowered a (min a.two b.two) (min a.ten b.ten),
      value_lowered b (min a.two b.two) (min a.ten b.ten)]
    exact compare_map (fun x y h => mul_lt_mul_of_pos_right h hunit) _ _
  rw [hscale]
  generalize ha' : a.lowered (min a.two b.two) (min a.ten b.ten) = x
  generalize hb' : b.lowered (min a.two b.two) (min a.ten b.ten) = y
  split_ifs with hgt hlt
  · refine (compare_gt_iff_gt.mpr ?_).symm
    calc y.value < 2 ^ y.sizeBound := y.value_lt
      _ ≤ 2 ^ x.leastSize := zpow_le_zpow_right₀ (by norm_num) hgt
      _ ≤ x.value := le_value (ha' ▸ ha)
  · refine (compare_lt_iff_lt.mpr ?_).symm
    calc x.value < 2 ^ x.sizeBound := x.value_lt
      _ ≤ 2 ^ y.leastSize := zpow_le_zpow_right₀ (by norm_num) hlt
      _ ≤ y.value := le_value (hb' ▸ hb)
  · rw [value_eq_expanded (m := x), value_eq_expanded (m := y)]
    · exact (compare_map (f := ((↑) : ℕ → ℚ)) Nat.strictMono_cast _ _).symm
    all_goals
      subst ha' hb'
      simp [lowered]

/-- **The order of magnitudes is that of their values.** -/
theorem compare_eq (a b : Magnitude) : a.compare b = compare a.value b.value := by
  unfold Magnitude.compare
  by_cases ha : a.num = 0 <;> by_cases hb : b.num = 0 <;> simp only [ha, hb, beq_self_eq_true,
    beq_eq_false_iff_ne.mpr, ne_eq, not_false_eq_true]
  · rw [value_eq_zero_iff.mpr ha, value_eq_zero_iff.mpr hb, compare_eq_iff_eq.mpr rfl]
  · rw [value_eq_zero_iff.mpr ha, compare_lt_iff_lt.mpr (value_pos hb)]
  · rw [value_eq_zero_iff.mpr hb, compare_gt_iff_gt.mpr (value_pos ha)]
  · exact comparePositive_eq ha hb

end Magnitude

namespace Exact

/-! ## 3. Exact values -/

/-- The rational number with a sign. -/
def signed (negative : Bool) (x : ℚ) : ℚ := if negative then -x else x

/-- The place of a value on the line of rational numbers between two infinities. -/
def place? : Exact → Option (WithBot (WithTop ℚ))
  | finite negative m => some ((signed negative m.value : ℚ) : WithTop ℚ)
  | infinite negative => some (if negative then ⊥ else ⊤)
  | undefined => none

theorem signed_of_neg {s : Bool} {m : Magnitude} (h : (s && m.num != 0) = true) :
    signed s m.value = -m.value ∧ 0 < m.value := by
  rw [Bool.and_eq_true, bne_iff_ne] at h
  exact ⟨by rw [h.1]; rfl, Magnitude.value_pos h.2⟩

theorem signed_of_not_neg {s : Bool} {m : Magnitude} (h : (s && m.num != 0) = false) :
    signed s m.value = m.value := by
  cases s with
  | false => rfl
  | true =>
    rw [Bool.true_and, bne_eq_false_iff_eq] at h
    simp [signed, Magnitude.value_eq_zero_iff.mpr h]

theorem compareFinite_eq (s s' : Bool) (m m' : Magnitude) :
    compareFinite s m s' m' = compare (signed s m.value) (signed s' m'.value) := by
  unfold compareFinite
  cases hs : s && m.num != 0 <;> cases hs' : s' && m'.num != 0 <;> dsimp only
  · rw [signed_of_not_neg hs, signed_of_not_neg hs', Magnitude.compare_eq]
  · obtain ⟨heq, hpos⟩ := signed_of_neg hs'
    rw [signed_of_not_neg hs, heq]
    exact (compare_gt_iff_gt.mpr (by linarith [m.value_nonneg])).symm
  · obtain ⟨heq, hpos⟩ := signed_of_neg hs
    rw [signed_of_not_neg hs', heq]
    exact (compare_lt_iff_lt.mpr (by linarith [m'.value_nonneg])).symm
  · rw [(signed_of_neg hs).1, (signed_of_neg hs').1, Magnitude.compare_eq]
    exact (compare_map_anti (fun x y h => neg_lt_neg h) _ _).symm

/-- The place of a finite value lies between those of the infinities. -/
theorem compare_top (q : ℚ) :
    compare ((q : WithTop ℚ) : WithBot (WithTop ℚ)) ⊤ = .lt ∧
      compare ⊤ ((q : WithTop ℚ) : WithBot (WithTop ℚ)) = .gt :=
  have h : ((q : WithTop ℚ) : WithBot (WithTop ℚ)) < ⊤ :=
    WithBot.coe_lt_coe.mpr (WithTop.coe_lt_top q)
  ⟨compare_lt_iff_lt.mpr h, compare_gt_iff_gt.mpr h⟩

theorem compare_bot (q : ℚ) :
    compare ⊥ ((q : WithTop ℚ) : WithBot (WithTop ℚ)) = .lt ∧
      compare ((q : WithTop ℚ) : WithBot (WithTop ℚ)) ⊥ = .gt :=
  ⟨compare_lt_iff_lt.mpr (WithBot.bot_lt_coe _), compare_gt_iff_gt.mpr (WithBot.bot_lt_coe _)⟩

theorem compare_bot_top :
    compare (⊥ : WithBot (WithTop ℚ)) ⊤ = .lt ∧ compare (⊤ : WithBot (WithTop ℚ)) ⊥ = .gt :=
  ⟨compare_lt_iff_lt.mpr bot_lt_top, compare_gt_iff_gt.mpr bot_lt_top⟩

/-- **Exact values compare as their places do**; the undefined one compares with none. -/
theorem compare?_eq (x y : Exact) :
    x.compare? y = x.place?.bind fun a => y.place?.map fun b => compare a b := by
  cases x with
  | undefined => rfl
  | infinite s =>
    cases y with
    | undefined => rfl
    | infinite s' => cases s <;> cases s' <;> simp [compare?, place?, compare_bot_top]
    | finite s' m' => cases s <;> simp [compare?, place?, compare_top, compare_bot]
  | finite s m =>
    cases y with
    | undefined => rfl
    | infinite s' => cases s' <;> simp [compare?, place?, compare_top, compare_bot]
    | finite s' m' =>
      simp only [compare?, place?, Option.bind_some, Option.map_some, compareFinite_eq]
      rw [compare_map WithBot.coe_strictMono, compare_map WithTop.coe_strictMono]

/-- Comparing the other way round turns the order around. -/
theorem compare?_swap (x y : Exact) : y.compare? x = (x.compare? y).map Ordering.swap := by
  rw [compare?_eq, compare?_eq]
  cases x.place? with
  | none => cases y.place? <;> rfl
  | some a =>
    cases y.place? with
    | none => rfl
    | some b => exact congrArg some (Std.OrientedCmp.eq_swap)

/-- Two values are equal exactly if they have the same place. -/
theorem compare?_eq_iff (x y : Exact) :
    x.compare? y = some .eq ↔ x.place?.isSome = true ∧ x.place? = y.place? := by
  rw [compare?_eq]
  cases x.place? <;> cases y.place? <;> simp

end Exact
end Number
end MemberRules
