/-
# Written numbers are read back

Every number is written in one of a few forms: digits alone, digits with a point at some place, or
either with an exponent after it.  The reader of literals takes them all, and what it finds is the
number that was written: the point only says where the digits stand, and so does the exponent.

* `Literal.Spells`: a text without a sign spells a number; `spells_whole`, `spells_pointed`.
* `Literal.reads_of_spells`: with a sign before it, it is read as the number with that sign.
* `spells_placePoint`: the digits around a point spell their number, wherever the point stands.
* `intText_reads`, `Decimal.text_reads`, `Binary64.text_reads`: the written forms are read back.
-/
import MemberRules.Number.Binary64
import MemberRules.Proofs.Number.Digits

namespace MemberRules
namespace Number

open Decimal (signText placePoint)

namespace Literal

variable {tail : List Char} {x : ℤ}

/-! ## 1. What a literal stands for -/

/-- The number that a literal stands for, without its sign. -/
def magnitude (l : Literal) : ℚ := l.coeff * 10 ^ l.exp

/-- The number that a literal stands for. -/
def value (l : Literal) : ℚ := Exact.signed l.negative l.magnitude

/-- The end of a literal after its digits: nothing, or an exponent. -/
inductive Ends : List Char → ℤ → Prop
  | bare : Ends [] 0
  | lower {r : List Char} {x : ℤ} (h : integer? r = some x) : Ends ('e' :: r) x
  | upper {r : List Char} {x : ℤ} (h : integer? r = some x) : Ends ('E' :: r) x

/-- A text without a sign spells a number. -/
def Spells (cs : List Char) (q : ℚ) : Prop :=
  ∀ negative, ∃ c e, unsigned? negative cs = some ⟨negative, c, e⟩ ∧ (c : ℚ) * 10 ^ e = q

/-- A text is read as a number with a sign. -/
def Reads (cs : List Char) (negative : Bool) (q : ℚ) : Prop :=
  ∃ l, scan? cs = some l ∧ l.negative = negative ∧ l.magnitude = q

/-! ## 2. Reading digits, a point and an exponent -/

/-- Digits are read up to the first other character. -/
theorem span_digits {ds rest : List Char} (hds : ∀ c ∈ ds, c.isDigit = true)
    (hrest : ∀ c r, rest = c :: r → c.isDigit = false) :
    (ds ++ rest).takeWhile Char.isDigit = ds ∧ (ds ++ rest).dropWhile Char.isDigit = rest := by
  rw [List.takeWhile_append_of_pos hds, List.dropWhile_append_of_pos hds]
  cases rest with
  | nil => exact ⟨List.append_nil ds, rfl⟩
  | cons c r =>
    have hc := hrest c r rfl
    rw [List.takeWhile_cons_of_neg (by simp [hc]), List.dropWhile_cons_of_neg (by simp [hc])]
    exact ⟨List.append_nil ds, rfl⟩

theorem Ends.head (h : Ends tail x) : ∀ c r, tail = c :: r → c.isDigit = false := by
  rintro c r rfl
  cases h <;> rfl

/-- An integer with its sign before the digits. -/
theorem integer?_signed {ds : List Char} (e : ℤ) (hne : ds ≠ [])
    (hds : ∀ c ∈ ds, c.isDigit = true) (hvalue : digitsValue ds = e.natAbs) :
    integer? ((if e < 0 then '-' else '+') :: ds) = some e := by
  have hall : ds.all Char.isDigit = true := List.all_eq_true.mpr hds
  split_ifs with hneg
  · simp [integer?, Literal.splitSign, hne, hall, hvalue, abs_of_neg hneg]
  · simp [integer?, Literal.splitSign, hne, hall, hvalue, abs_of_nonneg (not_lt.mp hneg)]

theorem spells_whole (whole : List Char) (hne : whole ≠ [])
    (hwhole : ∀ c ∈ whole, c.isDigit = true) (htail : Ends tail x) :
    Spells (whole ++ tail) (digitsValue whole * 10 ^ x) := by
  intro negative
  obtain ⟨htake, hdrop⟩ := span_digits hwhole htail.head
  refine ⟨digitsValue whole, x, ?_, rfl⟩
  unfold unsigned?
  rw [htake, hdrop]
  cases htail with
  | bare => simp [hne]
  | lower h | upper h => simp [hne, h]

theorem spells_pointed (whole fraction : List Char) (hne : whole ≠ [])
    (hwhole : ∀ c ∈ whole, c.isDigit = true) (hfraction : ∀ c ∈ fraction, c.isDigit = true)
    (htail : Ends tail x) :
    Spells (whole ++ '.' :: (fraction ++ tail))
      (digitsValue (whole ++ fraction) * 10 ^ (x - fraction.length)) := by
  intro negative
  have hpoint : ∀ c r, '.' :: (fraction ++ tail) = c :: r → c.isDigit = false := by
    rintro c r ⟨⟩
    rfl
  obtain ⟨htake, hdrop⟩ := span_digits hwhole hpoint
  obtain ⟨htake', hdrop'⟩ := span_digits hfraction htail.head
  refine ⟨digitsValue (whole ++ fraction), x - fraction.length, ?_, rfl⟩
  unfold unsigned?
  simp only [htake, hdrop, htake', hdrop']
  cases htail with
  | bare => simp [hne]
  | lower h | upper h => simp [hne, h]

/-- A spelled number does not begin with a sign. -/
theorem Spells.splitSign {cs : List Char} {q : ℚ} (h : Spells cs q) :
    splitSign cs = (false, cs) := by
  obtain ⟨c, e, hread, -⟩ := h false
  unfold Literal.splitSign
  split
  · exact absurd hread (by simp [unsigned?])
  · exact absurd hread (by simp [unsigned?])
  · rfl

/-- **A spelled number after a sign is read as the number with that sign.** -/
theorem reads_of_spells {cs : List Char} {q : ℚ} (h : Spells cs q) (negative : Bool) :
    Reads ((signText negative).toList ++ cs) negative q := by
  obtain ⟨c, e, hread, hvalue⟩ := h negative
  refine ⟨⟨negative, c, e⟩, ?_, rfl, hvalue⟩
  cases negative with
  | true => exact hread
  | false =>
    unfold scan?
    rw [show (signText false).toList ++ cs = cs from rfl, h.splitSign]
    exact hread

end Literal

open Literal (Spells Reads Ends digitsValue)

/-! ## 3. The place of the point -/

variable {digits tail : List Char} {x : ℤ}

/-- **The digits around a point spell their number**, wherever the point stands. -/
theorem spells_placePoint (hne : digits ≠ []) (hdigits : ∀ c ∈ digits, c.isDigit = true)
    (point : ℤ) (htail : Ends tail x) :
    Spells ((placePoint digits point).toList ++ tail)
      (digitsValue digits * 10 ^ (point - digits.length + x)) := by
  unfold placePoint
  split_ifs with hleft hright
  · -- zeros fill up between the point and the digits
    have h := Literal.spells_pointed ['0'] (List.replicate (-point).toNat '0' ++ digits)
      (List.cons_ne_nil _ _) (by simp)
      (fun c hc => (List.mem_append.mp hc).elim isDigit_of_mem_zeros (hdigits c)) htail
    have hvalue : digitsValue (['0'] ++ (List.replicate (-point).toNat '0' ++ digits)) =
        digitsValue digits := by
      rw [digitsValue_append, digitsValue_append, digitsValue_zeros]
      simp [digitsValue]
    have hexp : x - ((List.replicate (-point).toNat '0' ++ digits).length : ℤ) =
        point - digits.length + x := by
      rw [List.length_append, List.length_replicate]
      omega
    rw [hvalue, hexp] at h
    simpa using h
  · -- zeros fill up between the digits and the place of the point
    have h := Literal.spells_whole
      (digits ++ List.replicate (point.toNat - digits.length) '0') (by simp [hne])
      (fun c hc => (List.mem_append.mp hc).elim (hdigits c) isDigit_of_mem_zeros) htail
    rw [digitsValue_append, digitsValue_zeros, List.length_replicate, Nat.add_zero,
      trade_zeros] at h
    have hexp : x + ((point.toNat - digits.length : ℕ) : ℤ) = point - digits.length + x := by
      omega
    rw [hexp] at h
    simpa using h
  · -- the point stands among the digits
    have htake : digits.take point.toNat ≠ [] := by
      rw [Ne, List.take_eq_nil_iff, not_or]
      exact ⟨by omega, hne⟩
    have h := Literal.spells_pointed (digits.take point.toNat) (digits.drop point.toNat) htake
      (fun c hc => hdigits c (List.mem_of_mem_take hc))
      (fun c hc => hdigits c (List.mem_of_mem_drop hc)) htail
    have hexp : x - ((digits.drop point.toNat).length : ℤ) = point - digits.length + x := by
      rw [List.length_drop]
      omega
    rw [List.take_append_drop, hexp] at h
    simpa using h

/-- Zeros at the end of a fraction may be left out, and the point with them if nothing is kept. -/
theorem spells_fraction {whole digits : List Char} (hne : whole ≠ [])
    (hwhole : ∀ c ∈ whole, c.isDigit = true) (hdigits : ∀ c ∈ digits, c.isDigit = true) :
    Spells (whole ++ (if (digits.reverse.dropWhile (· == '0')).reverse.isEmpty then []
        else '.' :: (digits.reverse.dropWhile (· == '0')).reverse))
      (digitsValue (whole ++ digits) * 10 ^ (-(digits.length : ℤ))) := by
  have hsplit := exists_trailing_zeros digits
  generalize (digits.reverse.takeWhile (· == '0')).length = k at *
  generalize (digits.reverse.dropWhile (· == '0')).reverse = kept at *
  have hvalue : digitsValue (whole ++ digits) = digitsValue (whole ++ kept) * 10 ^ k := by
    rw [hsplit, ← List.append_assoc, digitsValue_append, digitsValue_zeros, List.length_replicate,
      Nat.add_zero]
  have hexp : -(digits.length : ℤ) + k = 0 - kept.length := by
    rw [hsplit, List.length_append, List.length_replicate]
    push_cast
    ring
  rw [hvalue, trade_zeros, hexp]
  split_ifs with hnone
  · rw [List.isEmpty_iff.mp hnone]
    simpa using Literal.spells_whole whole hne hwhole Ends.bare
  · have hkept : ∀ c ∈ kept, c.isDigit = true := fun c hc =>
      hdigits c (hsplit ▸ List.mem_append_left _ hc)
    simpa using Literal.spells_pointed whole kept hne hwhole hkept Ends.bare

/-! ## 4. Written forms -/

theorem digits_ne_nil (n : ℕ) : Nat.toDigits 10 n ≠ [] := Nat.toDigits_ne_nil

theorem intText_reads (i : ℤ) : Reads (intText i).toList (decide (i < 0)) i.natAbs := by
  have h := Literal.spells_whole _ (digits_ne_nil i.natAbs) (fun _ => isDigit_of_mem_toDigits)
    Ends.bare
  rw [digitsValue_toDigits, zpow_zero, mul_one] at h
  have hreads := Literal.reads_of_spells h (decide (i < 0))
  unfold intText
  split_ifs with hneg
  · rw [decide_eq_true hneg] at hreads ⊢
    simpa [natText, signText] using hreads
  · rw [decide_eq_false hneg] at hreads ⊢
    simpa [natText, signText] using hreads

/-- **The written form of a decimal is read as that decimal.** -/
theorem Decimal.text_reads (negative : Bool) (coeff : ℕ) (exp : ℤ) :
    Reads (Decimal.text (.finite negative coeff exp)).toList negative (coeff * 10 ^ exp) := by
  have hne := digits_ne_nil coeff
  have hdigits : ∀ c ∈ Nat.toDigits 10 coeff, c.isDigit = true := fun _ => isDigit_of_mem_toDigits
  unfold Decimal.text
  dsimp only
  generalize hlen : (Nat.toDigits 10 coeff).length = len
  split
  · have h := spells_placePoint hne hdigits (exp + len) Ends.bare
    rw [digitsValue_toDigits, hlen, show exp + len - len + 0 = exp by omega] at h
    simpa using Literal.reads_of_spells h negative
  · generalize hlead : exp + len - 1 = lead
    have hmark : (if lead < 0 then "E-" else "E+").toList =
        ['E', if lead < 0 then '-' else '+'] := by
      split_ifs <;> rfl
    have htail := Ends.upper (Literal.integer?_signed lead (digits_ne_nil _)
      (fun _ => isDigit_of_mem_toDigits) (digitsValue_toDigits _))
    have h := spells_placePoint hne hdigits 1 htail
    rw [digitsValue_toDigits, hlen, show 1 - (len : ℤ) + lead = exp by omega] at h
    simpa [natText, hmark] using Literal.reads_of_spells h negative

namespace Binary64

/-- One digit before the point, and no point after a single digit. -/
theorem placePoint_one {ds : List Char} (hne : ds ≠ []) :
    (placePoint ds 1).toList =
      ds.take 1 ++ (if (ds.drop 1).isEmpty then [] else '.' :: ds.drop 1) := by
  obtain ⟨d, ds, rfl⟩ := List.exists_cons_of_ne_nil hne
  cases ds <;> simp [placePoint]

theorem ends_exponentText (e : ℤ) : Ends (exponentText e).toList e := by
  have hne : (paddedText 2 e.natAbs).toList ≠ [] := by
    rw [toList_paddedText]
    exact List.append_ne_nil_of_right_ne_nil _ (digits_ne_nil _)
  have h := Literal.integer?_signed e hne (fun _ => isDigit_of_mem_paddedText)
    (digitsValue_paddedText _ _)
  have htail := Ends.lower h
  unfold exponentText
  split_ifs at htail ⊢ <;> simpa using htail

/-- **The written form of a number is read as what its digits say.** -/
theorem text_reads {mant : ℕ} {e : ℤ} (hne : (shortest mant e).1 ≠ [])
    (hds : ∀ c ∈ (shortest mant e).1, c.isDigit = true) (negative : Bool) :
    Reads (Binary64.text (.finite negative mant e)).toList negative
      (digitsValue (shortest mant e).1 * 10 ^ (shortest mant e).2) := by
  generalize hshortest : shortest mant e = digits at *
  obtain ⟨ds, exp⟩ := digits
  dsimp only at *
  have hsign : (if negative = true then "-" else "") = signText negative := rfl
  have hbefore := List.length_pos_iff.mpr hne
  unfold Binary64.text
  simp only [hshortest, hsign]
  generalize hlead : exp + ds.length - 1 = lead
  split
  · rename_i hzero
    obtain ⟨rfl, rfl⟩ : ds = ['0'] ∧ exp = 0 := by
      simpa [shortest, beq_iff_eq.mp hzero, eq_comm] using hshortest
    have h := Literal.spells_pointed ['0'] ['0'] hne hds hds Ends.bare
    simpa [digitsValue] using Literal.reads_of_spells h negative
  split
  · have h := spells_placePoint hne hds 1 (ends_exponentText lead)
    rw [show 1 - (ds.length : ℤ) + lead = exp by omega, placePoint_one hne] at h
    simpa using Literal.reads_of_spells h negative
  split
  · have h := Literal.spells_pointed (ds ++ List.replicate exp.toNat '0') ['0'] (by simp [hne])
      (fun c hc => (List.mem_append.mp hc).elim (hds c) isDigit_of_mem_zeros) (by simp) Ends.bare
    have hvalue : digitsValue (ds ++ List.replicate exp.toNat '0' ++ ['0']) =
        digitsValue ds * 10 ^ (exp.toNat + 1) := by
      rw [List.append_assoc, ← List.replicate_succ', digitsValue_append, digitsValue_zeros,
        List.length_replicate, Nat.add_zero]
    have hexp : (0 : ℤ) - (['0'].length : ℤ) + (exp.toNat + 1 : ℕ) = exp := by
      simp only [List.length_cons, List.length_nil]
      omega
    rw [hvalue, trade_zeros, hexp] at h
    simpa using Literal.reads_of_spells h negative
  have hplace := spells_placePoint hne hds (lead + 1) Ends.bare
  rw [show lead + 1 - (ds.length : ℤ) + 0 = exp by omega] at hplace
  have hreads := Literal.reads_of_spells hplace negative
  unfold placePoint at hreads
  split
  · rw [if_pos (by omega), show -(lead + 1) = -lead - 1 by ring] at hreads
    simpa using hreads
  · rw [if_neg (by omega), if_neg (by omega)] at hreads
    simpa using hreads

end Binary64

end Number
end MemberRules
