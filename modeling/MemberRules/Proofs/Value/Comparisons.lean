/-
# Order of bounds

What the six comparisons say of two bounds has one source: an order, or inclusion in the one and the
other direction for sets, or that the two are not ordered, as what is not a number and any number.
Where a comparison fails instead, all six fail alike: with `wrongType` between kinds without a
common order, and with `invalidOperation` where what is not a number meets a decimal.  With the two
bounds the other way round the verdict is turned around, or the failure is the same.

* `Verdict`, `IsBound.compares`: the verdict of two bounds.
* `IsBound.ordered_self`: a bound is equal to itself in the order, but for nothing and what is not a
  number, which no comparison accepts beside anything.
-/
import MemberRules.Proofs.Value.Sameness

namespace MemberRules

/-! ## 1. Verdicts -/

/-- What the comparisons of two values come from. -/
inductive Verdict
  | order (o : Ordering)
  | inclusion (within contains : Bool)
  | unordered

namespace Verdict

/-- Whether a comparison holds. -/
def accepts (c : Comparator) : Verdict → Bool
  | order o => c.accepts o
  | inclusion within contains => c.acceptsInclusion within contains
  | unordered => false

/-- The verdict of the values the other way round. -/
def swap : Verdict → Verdict
  | order o => order o.swap
  | inclusion within contains => inclusion contains within
  | unordered => unordered

/-- The comparisons the other way round. -/
theorem accepts_swap_greaterOrEqual (v : Verdict) :
    v.swap.accepts .greaterOrEqual = v.accepts .lessOrEqual := by
  cases v with
  | order o => cases o <;> rfl
  | inclusion | unordered => rfl

/-- What is at most another value does not exceed it. -/
theorem not_greater_of_lessOrEqual {v : Verdict} (h : v.accepts .lessOrEqual = true) :
    v.accepts .greater = false := by
  cases v with
  | order o => cases o <;> simp_all [accepts, Comparator.accepts]
  | inclusion w k => cases w <;> simp_all [accepts, Comparator.acceptsInclusion]
  | unordered => rfl

end Verdict

namespace Value

open Number (Exact)

variable {so : ObjectId → ObjectId → Bool} {a b : Value} {xs ys : List Value}

/-- Comparisons of two values in the one and the other direction: one verdict, or one failure. -/
inductive TwoWays (f g : Comparator → Except Fault Bool) : Prop
  | verdict (v : Verdict) (hf : ∀ c, f c = .ok (v.accepts c))
      (hg : ∀ c, g c = .ok (v.swap.accepts c))
  | fault (e : Fault) (he : e = .wrongType ∨ e = .invalidOperation) (hf : ∀ c, f c = .error e)
      (hg : ∀ c, g c = .error e)

/-! ## 2. Points -/

theorem twoWays_order {f g : Comparator → Except Fault Bool} {α : Type} [Ord α]
    [Std.OrientedOrd α] (x y : α) (hf : ∀ c, f c = .ok (c.accepts (compare x y)))
    (hg : ∀ c, g c = .ok (c.accepts (compare y x))) : TwoWays f g :=
  .verdict (.order (compare x y)) hf fun c => by
    rw [hg c, Verdict.swap, Verdict.accepts, ← Std.OrientedCmp.eq_swap]

/-- Values of kinds without a common order. -/
theorem twoWays_wrongType {f g : Comparator → Except Fault Bool} (hf : ∀ c, f c = .error .wrongType)
    (hg : ∀ c, g c = .error .wrongType) : TwoWays f g :=
  .fault .wrongType (.inl rfl) hf hg

theorem orderedAtoms_texts {s t : String} (ha : a.text? = some s) (hb : b.text? = some t)
    (c : Comparator) : orderedAtoms c a b = .ok (c.accepts (compare s t)) := by
  cases a <;> cases ha <;> cases b <;> cases hb <;> rfl

theorem orderedAtoms_numbers {x y : Exact} (ha : a.number? = some x) (hb : b.number? = some y)
    (c : Comparator) : orderedAtoms c a b = orderedNumbers c a b x y := by
  cases a <;> cases ha <;> cases b <;> cases hb <;> rfl

/-- Numbers are in the order of their places; one that has none is not ordered, or the comparison is
invalid. -/
theorem orderedAtoms_twoWays_numbers {x y : Exact} (ha : a.number? = some x)
    (hb : b.number? = some y) :
    TwoWays (fun c => orderedAtoms c a b) fun c => orderedAtoms c b a := by
  simp only [orderedAtoms_numbers ha hb, orderedAtoms_numbers hb ha]
  have hswap := Exact.compare?_swap x y
  cases hxy : x.compare? y with
  | some o =>
    rw [hxy] at hswap
    refine .verdict (.order o) (fun c => ?_) fun c => ?_
    · rw [orderedNumbers, hxy]
      rfl
    · rw [orderedNumbers, hswap]
      rfl
  | none =>
    rw [hxy] at hswap
    cases hdecimal : a.isDecimal || b.isDecimal with
    | true =>
      refine .fault .invalidOperation (.inr rfl) (fun c => ?_) fun c => ?_
      · rw [orderedNumbers, hxy]
        exact if_pos hdecimal
      · rw [orderedNumbers, hswap]
        exact if_pos (by rwa [Bool.or_comm])
    | false =>
      refine .verdict .unordered (fun c => ?_) fun c => ?_
      · rw [orderedNumbers, hxy]
        exact if_neg (by simp [hdecimal])
      · rw [orderedNumbers, hswap]
        exact if_neg (by simp [Bool.or_comm, hdecimal])

/-- **The comparisons of two values without parts.** -/
theorem orderedAtoms_twoWays (a b : Value) :
    TwoWays (fun c => orderedAtoms c a b) fun c => orderedAtoms c b a := by
  cases a with
  | bytes x =>
    cases b with
    | bytes y =>
      exact twoWays_order (x.map UInt8.toNat) (y.map UInt8.toNat) (fun _ => rfl) fun _ => rfl
    | _ => exact twoWays_wrongType (fun _ => rfl) fun _ => rfl
  | date x =>
    cases b with
    | date y => exact twoWays_order x.orderKey y.orderKey (fun _ => rfl) fun _ => rfl
    | _ => exact twoWays_wrongType (fun _ => rfl) fun _ => rfl
  | dateTime x =>
    cases b with
    | dateTime y => exact twoWays_order x.orderKey y.orderKey (fun _ => rfl) fun _ => rfl
    | _ => exact twoWays_wrongType (fun _ => rfl) fun _ => rfl
  | time x =>
    cases b with
    | time y => exact twoWays_order x.orderKey y.orderKey (fun _ => rfl) fun _ => rfl
    | _ => exact twoWays_wrongType (fun _ => rfl) fun _ => rfl
  | text | comparator =>
    cases b with
    | text | comparator =>
      exact twoWays_order _ _ (orderedAtoms_texts rfl rfl) (orderedAtoms_texts rfl rfl)
    | _ => exact twoWays_wrongType (fun _ => rfl) fun _ => rfl
  | bool | int | float | decimal =>
    cases b with
    | bool | int | float | decimal => exact orderedAtoms_twoWays_numbers rfl rfl
    | _ => exact twoWays_wrongType (fun _ => rfl) fun _ => rfl
  | _ => cases b <;> exact twoWays_wrongType (fun _ => rfl) fun _ => rfl

/-! ## 3. Bounds -/

theorem ordered_point {m : Mark} (h : a.mark? = some m) (c : Comparator) (b : Value) :
    ordered so c a b = orderedAtoms c a b := by
  cases a <;> first | rfl | simp [mark?, text?, number?] at h

/-- What the comparisons of two values, in both directions, come from. -/
def Compares (so : ObjectId → ObjectId → Bool) (a b : Value) : Prop :=
  TwoWays (fun c => ordered so c a b) fun c => ordered so c b a

/-- **Sequences compare as the parts do at the first place where they differ.** -/
theorem orderedAll_twoWays (hcomm : ∀ x ∈ xs, ∀ y ∈ ys, samePart so x y = samePart so y x)
    (h : ∀ x ∈ xs, ∀ y ∈ ys, Compares so x y) :
    TwoWays (fun c => orderedAll so c xs ys) fun c => orderedAll so c ys xs := by
  induction xs generalizing ys with
  | nil =>
    cases ys with
    | nil => exact .verdict (.order .eq) (fun _ => rfl) fun _ => rfl
    | cons => exact .verdict (.order .lt) (fun _ => rfl) fun _ => rfl
  | cons x xs ih =>
    cases ys with
    | nil => exact .verdict (.order .gt) (fun _ => rfl) fun _ => rfl
    | cons y ys =>
      have hcommon := hcomm x List.mem_cons_self y List.mem_cons_self
      simp only [orderedAll, ← hcommon]
      cases samePart so x y with
      | true =>
        exact ih (fun x hx y hy => hcomm x (List.mem_cons_of_mem _ hx) y (List.mem_cons_of_mem _ hy))
          fun x hx y hy => h x (List.mem_cons_of_mem _ hx) y (List.mem_cons_of_mem _ hy)
      | false => exact h x List.mem_cons_self y List.mem_cons_self

/-- **The comparisons of two bounds.** -/
theorem IsBound.compares (ha : a.IsBound) (hb : b.IsBound) : Compares so a b := by
  induction ha generalizing b with
  | @point a m h =>
    cases hb with
    | point hb =>
      simp only [Compares, ordered_point h, ordered_point hb]
      exact orderedAtoms_twoWays _ _
    | list | tuple | set =>
      cases a with
      | list | tuple | set => simp [mark?, text?, number?] at h
      | _ => exact twoWays_wrongType (fun _ => rfl) fun _ => rfl
  | @list xs h ih =>
    cases b with
    | list ys =>
      exact orderedAll_twoWays (fun x hx y hy => (h x hx).samePart_comm (hb.of_mem_list hy))
        fun x hx y hy => ih x hx (hb.of_mem_list hy)
    | _ => exact twoWays_wrongType (fun _ => rfl) fun _ => rfl
  | @tuple xs h ih =>
    cases b with
    | tuple ys =>
      exact orderedAll_twoWays (fun x hx y hy => (h x hx).samePart_comm (hb.of_mem_tuple hy))
        fun x hx y hy => ih x hx (hb.of_mem_tuple hy)
    | _ => exact twoWays_wrongType (fun _ => rfl) fun _ => rfl
  | @set xs h _ _ =>
    cases b with
    | set ys => exact .verdict (.inclusion _ _) (fun _ => rfl) fun _ => rfl
    | _ => exact twoWays_wrongType (fun _ => rfl) fun _ => rfl

theorem orderedAll_congr {so' : ObjectId → ObjectId → Bool} {c : Comparator}
    (hsame : ∀ x ∈ xs, ∀ y, samePart so x y = samePart so' x y)
    (h : ∀ x ∈ xs, ∀ y ∈ ys, ordered so c x y = ordered so' c x y) :
    orderedAll so c xs ys = orderedAll so' c xs ys := by
  induction xs generalizing ys with
  | nil => cases ys <;> rfl
  | cons x xs ih =>
    cases ys with
    | nil => rfl
    | cons y ys =>
      have htail := ih (fun x hx => hsame x (List.mem_cons_of_mem _ hx))
        fun x hx y hy => h x (List.mem_cons_of_mem _ hx) y (List.mem_cons_of_mem _ hy)
      rw [orderedAll, orderedAll, hsame x List.mem_cons_self, htail,
        h x List.mem_cons_self y List.mem_cons_self]

theorem within_congr {so' : ObjectId → ObjectId → Bool}
    (h : ∀ x ∈ xs, ∀ y, samePart so x y = samePart so' x y) :
    within so xs ys = within so' xs ys := by
  rw [Bool.eq_iff_iff, within_iff, within_iff]
  exact forall₂_congr fun x hx => exists_congr fun y => and_congr_right fun _ => by rw [h x hx y]

/-- **The comparisons of bounds do not depend on how objects are compared.** -/
theorem IsBound.ordered_congr {so' : ObjectId → ObjectId → Bool} (ha : a.IsBound) (hb : b.IsBound)
    (c : Comparator) : ordered so c a b = ordered so' c a b := by
  induction ha generalizing b with
  | point h => rw [ordered_point h, ordered_point h]
  | @list xs h ih =>
    cases b with
    | list ys =>
      exact orderedAll_congr (fun x hx => (h x hx).samePart_congr)
        fun x hx y hy => ih x hx (hb.of_mem_list hy)
    | _ => rfl
  | @tuple xs h ih =>
    cases b with
    | tuple ys =>
      exact orderedAll_congr (fun x hx => (h x hx).samePart_congr)
        fun x hx y hy => ih x hx (hb.of_mem_tuple hy)
    | _ => rfl
  | @set xs h _ _ =>
    cases b with
    | set ys =>
      have hxs : within so xs ys = within so' xs ys :=
        within_congr fun x hx => (h x hx).samePart_congr
      have hys : within so ys xs = within so' ys xs :=
        within_congr fun y hy => (hb.of_mem_set hy).samePart_congr
      rw [ordered, ordered, hxs, hys]
    | _ => rfl

/-! ## 4. A bound beside itself -/

theorem orderedAll_self (h : ∀ x ∈ xs, samePart so x x = true) (c : Comparator) :
    orderedAll so c xs xs = .ok (c.accepts .eq) := by
  induction xs with
  | nil => rfl
  | cons x xs ih =>
    rw [orderedAll, h x List.mem_cons_self, if_pos rfl]
    exact ih fun x hx => h x (List.mem_cons_of_mem _ hx)

/-- A point with an order is equal to itself in it. -/
theorem orderedAtoms_self {m : Mark} (h : a.mark? = some m) (hnothing : a ≠ .none)
    (hdefined : ∀ n, a ≠ .float (.nan n)) (c : Comparator) :
    orderedAtoms c a a = .ok (c.accepts .eq) := by
  have hnumber {x : Exact} (hx : a.number? = some x) (hplace : x.place?.isSome = true) :
      orderedAtoms c a a = .ok (c.accepts .eq) := by
    rw [orderedAtoms_numbers hx hx, orderedNumbers, (Exact.compare?_eq_iff x x).mpr ⟨hplace, rfl⟩]
  cases a with
  | bool | int => exact hnumber rfl rfl
  | float x =>
    cases x with
    | nan n => exact absurd rfl (hdefined n)
    | finite | infinite => exact hnumber rfl rfl
  | decimal x =>
    cases x with
    | nan => cases h
    | finite | infinite => exact hnumber rfl rfl
  | text | comparator => rw [orderedAtoms_texts rfl rfl, Std.ReflOrd.compare_self]
  | bytes | date | dateTime | time => simp only [orderedAtoms, Std.ReflOrd.compare_self]
  | none => exact absurd rfl hnothing
  | _ => cases h

theorem IsBound.ordered_self (ha : a.IsBound) (hnothing : a ≠ .none)
    (hdefined : ∀ n, a ≠ .float (.nan n)) (c : Comparator) :
    ordered so c a a = .ok (c.accepts .eq) := by
  cases ha with
  | point h => rw [ordered_point h, orderedAtoms_self h hnothing hdefined]
  | list h => exact orderedAll_self (fun x hx => (h x hx).samePart_refl) c
  | tuple h => exact orderedAll_self (fun x hx => (h x hx).samePart_refl) c
  | @set xs h _ =>
    have hwithin : within so xs xs = true :=
      within_iff.mpr fun x hx => ⟨x, hx, (h x hx).samePart_refl⟩
    rw [ordered, hwithin]
    cases c <;> rfl

/-- A bound compares with itself, but for nothing. -/
theorem IsBound.exists_ordered_self (ha : a.IsBound) (hnothing : a ≠ .none) (c : Comparator) :
    ∃ r, ordered so c a a = .ok r := by
  by_cases h : ∃ n, a = .float (.nan n)
  · obtain ⟨n, rfl⟩ := h
    exact ⟨false, rfl⟩
  · exact ⟨_, ha.ordered_self hnothing (not_exists.mp h) c⟩

/-- Nothing stands in no order. -/
theorem ordered_nothing (c : Comparator) (b : Value) :
    ordered so c .none b = .error .wrongType := by
  cases b <;> rfl

/-- No comparison with what is not a number holds. -/
theorem ordered_undefined (c : Comparator) (n : Nat) (b : Value) :
    ordered so c (.float (.nan n)) b ≠ .ok true := by
  cases b with
  | bool | int | float | decimal =>
    rw [ordered_point rfl, orderedAtoms_numbers rfl rfl, orderedNumbers]
    split
    · rename_i h
      cases h
    · split <;> simp
  | _ => simp [ordered, orderedAtoms, text?, number?]

/-- **A bound of which a comparison holds** is equal to itself in the order. -/
theorem IsBound.ordered_self_of_ok (ha : a.IsBound) {c : Comparator}
    (h : ordered so c a b = .ok true) (c' : Comparator) : ordered so c' a a = .ok (c'.accepts .eq) := by
  refine ha.ordered_self ?_ ?_ c'
  · rintro rfl
    rw [ordered_nothing] at h
    cases h
  · rintro n rfl
    exact ordered_undefined c n b h

end Value
end MemberRules
