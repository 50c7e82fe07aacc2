/-
# Ranges and the order of their bounds

A range is refused when its first bound exceeds the second one, and when the two do not compare.  It
is asked for values by the other two comparisons: a value that is at least the first bound and at
most the second one passes.  For two bounds in an order this comes to the same, and then both of
them pass.  But bounds need not be in an order: what is not a number is in none with any number, and
sets of which neither includes the other are in none.  Such bounds are accepted, and neither of them
passes the range that they make.  And what is not a number beside a decimal makes the comparison
itself invalid, which is no error of a configuration.

* `KeepsToOrder`: a range exactly for a first bound that is at most the second one, else a
  configuration error.
* `range_keeps_to_order_iff`: when the bounds of a range are taken so, and which values pass.
-/
import MemberRules.Attribute.Build
import MemberRules.Proofs.Computation
import MemberRules.Proofs.Value.Comparisons

namespace MemberRules
namespace Check

open Value (IsBound)
open MemberRules.Computation

variable {min max v : Value} {w : World}

/-! ## 1. Bounds in no order -/

/-- Neither is the first value at most the second one, nor does it exceed it. -/
def Unordered (min max : Value) : Prop :=
  compareValues .lessOrEqual min max = .ok false ∧ compareValues .greater min max = .ok false

/-- Numbers are in no order if one of them is not a number and none is a decimal. -/
theorem unordered_numbers_iff {x y : Number.Exact} (hx : min.number? = some x)
    (hy : max.number? = some y) :
    Unordered min max ↔
      x.compare? y = none ∧ min.isDecimal = false ∧ max.isDecimal = false := by
  have hordered (c : Comparator) :
      Value.ordered (· == ·) c min max = Value.orderedNumbers c min max x y := by
    rw [← Value.orderedAtoms_numbers hx hy]
    cases min <;> first | rfl | cases hx
  unfold Unordered compareValues Value.compareBy
  dsimp only
  rw [hordered, hordered, Value.orderedNumbers, Value.orderedNumbers]
  cases x.compare? y with
  | some o => cases o <;> simp [Comparator.accepts]
  | none => cases min.isDecimal <;> cases max.isDecimal <;> simp

/-- Sets are in no order if neither includes the other. -/
theorem unordered_sets_iff {xs ys : List Value} :
    Unordered (.set xs) (.set ys) ↔
      Value.within (· == ·) xs ys = false ∧ Value.within (· == ·) ys xs = false := by
  unfold Unordered compareValues Value.compareBy
  dsimp only
  rw [Value.ordered, Value.ordered]
  cases Value.within (· == ·) xs ys <;> cases Value.within (· == ·) ys xs <;>
    simp [Comparator.acceptsInclusion]

/-! ## 2. What the constructor makes of the bounds -/

/-- A range if the first bound is at most the second one, and a configuration error otherwise. -/
def KeepsToOrder (min max : Value) : Prop :=
  (compareValues .lessOrEqual min max = .ok true → between min max = .ok (range min max)) ∧
    (compareValues .lessOrEqual min max ≠ .ok true → ∃ e, between min max = .error (.configuration e))

/-! ## 3. The bounds as values -/

theorem holds_of_ok {c : Comparator} {a b : Value} {r : Bool}
    (h : Value.compareBy w.sameObject c a b = .ok r) : holds c a b w = (.ok r, w) := by
  unfold holds
  rw [bind_ok (get_apply w), h]
  rfl

/-- A value that is not missing, between bounds that are not. -/
theorem inBounds_of_ok {low high : Bool} (hv : v ≠ .none) (hmin : min ≠ .none) (hmax : max ≠ .none)
    (hlow : Value.compareBy w.sameObject .greaterOrEqual v min = .ok low)
    (hhigh : Value.compareBy w.sameObject .lessOrEqual v max = .ok high) :
    inBounds min max v w = (.ok (low && high), w) := by
  have hunfold : inBounds min max v = (do
      if !(← holds .greaterOrEqual v min) then return false
      holds .lessOrEqual v max) := by
    unfold inBounds
    split
    · exact absurd rfl hv
    · split
      · exact absurd rfl hmax
      · rfl
  rw [hunfold, bind_ok (holds_of_ok hlow)]
  cases low with
  | false => rfl
  | true => exact holds_of_ok hhigh

/-- **The bounds of an accepted range as values**: each of them passes exactly if the first one is
at most the second one. -/
theorem runWith_bounds (hmin : min.IsBound) (hmax : max.IsBound) {passed : Bool}
    (h : compareValues .lessOrEqual min max = .ok passed) (d : Drive) (owner : Value) (w : World) :
    (range min max).runWith d min owner w = (.ok ⟨passed, none⟩, w) ∧
      (range min max).runWith d max owner w = (.ok ⟨passed, none⟩, w) := by
  have hle : Value.ordered w.sameObject .lessOrEqual min max = .ok passed := by
    rw [hmin.ordered_congr hmax]
    exact h
  have hge : Value.ordered w.sameObject .greaterOrEqual max min = .ok passed := by
    have hboth : Value.Compares w.sameObject min max := hmin.compares hmax
    rcases hboth with ⟨v, hf, hg⟩ | ⟨e, -, hf, -⟩
    · have hv := (hf .lessOrEqual).symm.trans hle
      rw [hg .greaterOrEqual, v.accepts_swap_greaterOrEqual]
      exact hv
    · have hv := (hf .lessOrEqual).symm.trans hle
      cases hv
  have hminNothing : min ≠ .none := by
    rintro rfl
    rw [Value.ordered_nothing] at hle
    cases hle
  have hmaxNothing : max ≠ .none := by
    rintro rfl
    rw [Value.ordered_nothing] at hge
    cases hge
  obtain ⟨low, hlow⟩ : ∃ r, Value.ordered w.sameObject .greaterOrEqual min min = .ok r :=
    hmin.exists_ordered_self hminNothing _
  obtain ⟨high, hhigh⟩ : ∃ r, Value.ordered w.sameObject .lessOrEqual max max = .ok r :=
    hmax.exists_ordered_self hmaxNothing _
  have hrange (v : Value) (hv : inBounds min max v w = (.ok passed, w)) :
      (range min max).runWith d v owner w = (.ok ⟨passed, none⟩, w) := bind_ok hv
  constructor
  · refine hrange min ((inBounds_of_ok hminNothing hminNothing hmaxNothing hlow hle).trans ?_)
    cases passed with
    | false => rw [Bool.and_false]
    | true =>
      cases hlow.symm.trans (hmin.ordered_self_of_ok hle .greaterOrEqual)
      rfl
  · refine hrange max ((inBounds_of_ok hmaxNothing hminNothing hmaxNothing hge hhigh).trans ?_)
    cases passed with
    | false => rw [Bool.false_and]
    | true =>
      cases hhigh.symm.trans (hmax.ordered_self_of_ok hge .lessOrEqual)
      rfl

/-- What the constructor makes of two bounds that compare. -/
theorem between_of_ok {exceeds : Bool} (h : compareValues .greater min max = .ok exceeds) :
    if exceeds then ∃ e, between min max = .error (.configuration e)
    else between min max = .ok (range min max) := by
  unfold between
  rw [h]
  cases exceeds with
  | true => exact ⟨_, rfl⟩
  | false => rfl

/-- **When the bounds of a range are taken by their order**: always, but for bounds in no order,
which are accepted, and bounds whose comparison is invalid.  Of an accepted range each bound passes
exactly if the first is at most the second. -/
theorem range_keeps_to_order_iff (hmin : min.IsBound) (hmax : max.IsBound) :
    (KeepsToOrder min max ↔ ¬ Unordered min max ∧
      compareValues .lessOrEqual min max ≠ .error .invalidOperation) ∧
    (Unordered min max → between min max = .ok (range min max)) ∧
    (compareValues .lessOrEqual min max = .error .invalidOperation →
      between min max = .error .invalidOperation) ∧
    (between min max = .ok (range min max) → ∀ d owner w, ∃ passed,
      (range min max).runWith d min owner w = (.ok ⟨passed, none⟩, w) ∧
      (range min max).runWith d max owner w = (.ok ⟨passed, none⟩, w) ∧
      (passed = true ↔ compareValues .lessOrEqual min max = .ok true)) := by
  have hboth : Value.Compares (· == ·) min max := hmin.compares hmax
  rcases hboth with ⟨v, hf, -⟩ | ⟨e, he, hf, -⟩
  · have hle : compareValues .lessOrEqual min max = .ok (v.accepts .lessOrEqual) := hf .lessOrEqual
    have hgt : compareValues .greater min max = .ok (v.accepts .greater) := hf .greater
    have hmade := between_of_ok hgt
    have hbounds (d : Drive) (owner : Value) (w : World) := runWith_bounds hmin hmax hle d owner w
    cases hexceeds : v.accepts .greater with
    | true =>
      have hnotLe : v.accepts .lessOrEqual = false := by
        rw [Bool.eq_false_iff]
        intro h
        rw [Verdict.not_greater_of_lessOrEqual h] at hexceeds
        cases hexceeds
      rw [hexceeds, if_pos rfl] at hmade
      obtain ⟨e, hmade⟩ := hmade
      simp [KeepsToOrder, Unordered, hle, hgt, hnotLe, hexceeds, hmade]
    | false =>
      rw [hexceeds, if_neg Bool.false_ne_true] at hmade
      refine ⟨?_, fun _ => hmade, fun h => ?_, fun _ d owner w => ⟨_, (hbounds d owner w).1,
        (hbounds d owner w).2, ?_⟩⟩
      · cases hnotLe : v.accepts .lessOrEqual <;>
          simp [KeepsToOrder, Unordered, hle, hgt, hnotLe, hexceeds, hmade]
      · rw [hle] at h
        cases h
      · rw [hle, Except.ok.injEq]
  · have hle : compareValues .lessOrEqual min max = .error e := hf .lessOrEqual
    have hgt : compareValues .greater min max = .error e := hf .greater
    rcases he with rfl | rfl
    · obtain ⟨e, hmade⟩ : ∃ e, between min max = .error (.configuration e) := by
        unfold between
        rw [hgt]
        exact ⟨_, rfl⟩
      simp [KeepsToOrder, Unordered, hle, hmade]
    · have hmade : between min max = .error .invalidOperation := by
        unfold between
        rw [hgt]
      simp [KeepsToOrder, Unordered, hle, hmade]

/-- One of two sets that meet and of which neither includes the other. -/
def leftPair : Value := .set [.text "a", .text "b"]

/-- The other one of the two sets. -/
def rightPair : Value := .set [.text "b", .text "c"]

theorem isBound_pair {s t : String} (h : s ≠ t) : (Value.set [.text s, .text t]).IsBound := by
  refine .set (fun x hx => ?_) (List.pairwise_pair.mpr ?_)
  · simp only [List.mem_cons, List.not_mem_nil, or_false] at hx
    rcases hx with rfl | rfl <;> exact .point rfl
  · rw [Bool.eq_false_iff, ne_eq, Value.samePart_text rfl]
    exact fun hst => h (Option.some.inj hst).symm

/-- Two sets in no order as the bounds of a range: it is accepted, and neither of them passes it. -/
theorem range_keeps_to_order_iff_pairs :
    leftPair.IsBound ∧ rightPair.IsBound ∧ ¬ KeepsToOrder leftPair rightPair ∧
      ∀ d owner w, ((range leftPair rightPair).runWith d leftPair owner w).1 = .ok ⟨false, none⟩ := by
  have hleft : leftPair.IsBound := isBound_pair (by decide)
  have hright : rightPair.IsBound := isBound_pair (by decide)
  have hunordered : Unordered leftPair rightPair := ⟨rfl, rfl⟩
  obtain ⟨hkeeps, haccepted, -, hpasses⟩ := range_keeps_to_order_iff hleft hright
  refine ⟨hleft, hright, fun h => (hkeeps.mp h).1 hunordered, fun d owner w => ?_⟩
  obtain ⟨passed, hpassed, -, hiff⟩ := hpasses (haccepted hunordered) d owner w
  cases passed with
  | false => exact congrArg Prod.fst hpassed
  | true => cases hunordered.1.symm.trans (hiff.mp rfl)

/-- **Not every pair of bounds is taken by its order**: what is not a number is accepted as a
bound. -/
theorem not_range_keeps_to_order :
    ¬ ∀ min max : Value, min.IsBound → max.IsBound → KeepsToOrder min max := by
  intro h
  have hfails : compareValues .lessOrEqual (.int 1) (.float (.nan 0)) = .ok false := rfl
  obtain ⟨e, he⟩ := (h (.int 1) (.float (.nan 0)) (.point rfl) (.point rfl)).2 (by simp [hfails])
  cases he

end Check
end MemberRules
