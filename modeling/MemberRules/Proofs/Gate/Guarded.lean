/-
# Gates made of guards

A gate holds a condition and a condition that may wait, and the one that may wait replaces the other.
Putting a guard in front of a gate composes them in four ways, as the guard and the gate may wait or
not.  This file shows that the four are one: the gate with a guard in front of it asks the guard
first, and the gate only if the guard holds.

Hence a gate that was built by putting guards in front of one another, from the inside out, asks them
from the outside in and stops at the first one that does not answer as wanted.

* `Gate.isOpen_guarded`: a guard in front of a gate.
* `Guards.gate`, `Guards.hold`: the gate of several guards, and what asking them in turn says.
* `Guards.isOpen_gate`: the gate is open exactly if the guards say so.
* `Guards.hold_iff`: the guards say so exactly if each one answers as wanted.
* `Guards.hold_opposite`: with the opposite of the last guard they say the opposite.
-/
import MemberRules.Proofs.Computation
import MemberRules.Rule.Basic

namespace MemberRules

open MemberRules.Computation

variable {d : Drive} {o : Value}

/-! ## 1. Guards -/

/-- Whether a guard holds of an object. -/
def Guard.holds (d : Drive) (o : Value) : Guard → Eval Bool
  | .plain c => c.holds o
  | .async c => c.holds d o

/-- The opposite of a guard is asked as the guard is, and says the opposite. -/
theorem Guard.holds_negate (g : Guard) :
    g.negate.holds d o = (do return !(← g.holds d o)) := by
  cases g <;>
    simp [Guard.negate, Guard.holds, Condition.holds, Condition.eval, AsyncCondition.holds,
      AsyncCondition.eval, Value.truthy]

namespace Gate

/-- What a gate that waits says, if it holds no condition that may wait. -/
theorem holds_ofCondition? (c : Option Condition) :
    (AsyncCondition.ofCondition? c).holds d o = Gate.isOpen d ⟨c, none⟩ o := by
  cases c <;>
    simp [AsyncCondition.ofCondition?, AsyncCondition.holds, AsyncCondition.eval, Gate.isOpen,
      Condition.holds, Value.truthy]

/-- A condition in front of another one. -/
theorem holds_both (outer inner : AsyncCondition) :
    (AsyncCondition.both outer inner).holds d o = (do
      if ← outer.holds d o then inner.holds d o else return false) := by
  simp only [AsyncCondition.holds, AsyncCondition.eval, bind_assoc, pure_bind]
  refine bind_congr fun v => ?_
  cases v.truthy <;> simp [Value.truthy]

theorem holds_allOf_pair (outer inner : Condition) :
    (Condition.both outer inner).holds o = (do
      if ← outer.holds o then inner.holds o else return false) := by
  simp only [Condition.holds, Condition.eval, bind_assoc, pure_bind]
  refine bind_congr fun v => ?_
  cases v.truthy <;> simp [Value.truthy]

/-- **A guard in front of a gate is asked first**, and the gate only if the guard holds: whether the
guard and the gate may wait makes no difference. -/
theorem isOpen_guarded (g : Gate) (k : Guard) :
    (g.guarded k).isOpen d o = (do if ← k.holds d o then g.isOpen d o else return false) := by
  obtain ⟨condition, asyncCondition⟩ := g
  cases k with
  | async c =>
    cases asyncCondition with
    | some inner => exact holds_both c inner
    | none =>
      have h := holds_both (d := d) (o := o) c (.ofCondition? condition)
      rw [holds_ofCondition?] at h
      exact h
  | plain c =>
    cases asyncCondition with
    | some inner =>
      have h := holds_both (d := d) (o := o) (.plain c) inner
      exact h
    | none =>
      cases condition with
      | some inner => exact holds_allOf_pair c inner
      | none =>
        show c.holds o = (do if ← c.holds o then return true else return false)
        exact (bind_pure (c.holds o)).symm.trans (bind_congr fun b => by cases b <;> rfl)

end Gate

/-! ## 2. Several guards -/

/-- The guards around a rule, the outermost first, with the answer that is wanted of each. -/
abbrev Guards := List (Guard × Bool)

namespace Guards

/-- The guard that holds where a guard gives the wanted answer. -/
def wanted (k : Guard × Bool) : Guard := if k.2 then k.1 else k.1.negate

/-- The gate with all guards in front of it, put there from the inside out. -/
def gate (ks : Guards) : Gate := ks.foldr (fun k g => g.guarded (wanted k)) {}

/-- Whether the guards answer as wanted, asked in turn; after the first one that does not, none is
asked. -/
def hold (d : Drive) (o : Value) : Guards → Eval Bool
  | [] => return true
  | k :: ks => do
    if (← k.1.holds d o) == k.2 then hold d o ks else return false

theorem holds_wanted (k : Guard × Bool) :
    (wanted k).holds d o = (do return (← k.1.holds d o) == k.2) := by
  obtain ⟨k, answer⟩ := k
  cases answer with
  | true => simp [wanted]
  | false => simp [wanted, Guard.holds_negate]

/-- **The gate of several guards asks them in turn**, from the outside in. -/
theorem isOpen_gate (ks : Guards) : ks.gate.isOpen d o = ks.hold d o := by
  induction ks with
  | nil => rfl
  | cons k ks ih =>
    have hgate : gate (k :: ks) = (gate ks).guarded (wanted k) := rfl
    rw [hgate, Gate.isOpen_guarded, ih, holds_wanted, bind_assoc]
    exact bind_congr fun answer => by rw [pure_bind]

/-- The guards answer as wanted, one after the other, from one world to another. -/
inductive Answer (d : Drive) (o : Value) : Guards → World → World → Prop
  | nil {w : World} : Answer d o [] w w
  | cons {k : Guard × Bool} {ks : Guards} {w w₁ w' : World} :
      k.1.holds d o w = (.ok k.2, w₁) → Answer d o ks w₁ w' → Answer d o (k :: ks) w w'

/-- **The guards hold exactly if each one answers as wanted.** -/
theorem hold_iff {ks : Guards} {w w' : World} :
    ks.hold d o w = (.ok true, w') ↔ Answer d o ks w w' := by
  induction ks generalizing w with
  | nil =>
    constructor
    · intro h
      cases h
      exact .nil
    · rintro ⟨⟩
      rfl
  | cons k ks ih =>
    constructor
    · intro h
      obtain ⟨answer, w₁, hfirst, hrest⟩ := bind_eq_ok.mp h
      by_cases hanswer : (answer == k.2) = true
      · rw [if_pos hanswer] at hrest
        rw [beq_iff_eq.mp hanswer] at hfirst
        exact .cons hfirst (ih.mp hrest)
      · rw [if_neg hanswer] at hrest
        cases hrest
    · intro h
      cases h with
      | cons hfirst hrest =>
        show (k.1.holds d o >>= fun answer => _) w = _
        rw [bind_ok hfirst, if_pos (beq_self_eq_true k.2)]
        exact ih.mpr hrest

/-- After the first guard that does not answer as wanted, none is asked. -/
theorem hold_of_not_wanted {k : Guard × Bool} {w w₁ : World} {answer : Bool}
    (h : k.1.holds d o w = (.ok answer, w₁)) (hne : answer ≠ k.2) (ks : Guards) :
    hold d o (k :: ks) w = (.ok false, w₁) := by
  show (k.1.holds d o >>= fun answer => _) w = _
  rw [bind_ok h, if_neg (by simpa using hne)]
  rfl

theorem hold_append (outer inner : Guards) :
    hold d o (outer ++ inner) = (do
      if ← hold d o outer then hold d o inner else return false) := by
  induction outer with
  | nil =>
    simp only [hold, pure_bind]
    rfl
  | cons k outer ih =>
    show (do if (← k.1.holds d o) == k.2 then hold d o (outer ++ inner) else return false) = _
    simp only [hold, ih, bind_assoc]
    refine bind_congr fun answer => ?_
    cases answer == k.2 <;> simp

/-- **A guard and its opposite exclude each other**: where the outer guards hold and the guard gives
an answer, the guards hold with the one and not with the other. -/
theorem hold_opposite {outer : Guards} {k : Guard} {w w₁ w₂ : World} {answer : Bool}
    (houter : outer.hold d o w = (.ok true, w₁)) (hk : k.holds d o w₁ = (.ok answer, w₂)) :
    hold d o (outer ++ [(k, true)]) w = (.ok answer, w₂) ∧
      hold d o (outer ++ [(k, false)]) w = (.ok !answer, w₂) := by
  have hlast : ∀ b, hold d o (outer ++ [(k, b)]) w = (.ok (answer == b), w₂) := by
    intro b
    rw [hold_append, bind_ok houter, if_pos rfl]
    show (k.holds d o >>= fun answer => _) w₁ = _
    rw [bind_ok hk]
    cases answer <;> cases b <;> rfl
  constructor
  · rw [hlast]
    cases answer <;> rfl
  · rw [hlast]
    cases answer <;> rfl

end Guards

/-! ## 3. Rules that apply -/

/-- Whether a rule applies to an object, asked for without waiting: a condition that may wait is run
to its end. -/
def Rule.appliesAtOnce (r : Rule) (o : Value) : Eval Bool :=
  match r.gate.asyncCondition with
  | some c => c.holds .patient o
  | none => match r.gate.condition with
    | some c => c.holds o
    | none => return true

/-- Whether a rule applies to an object, asked for by a validation. -/
def Rule.applies (d : Drive) (r : Rule) (o : Value) : Eval Bool := r.gate.isOpen d o

theorem Rule.appliesAtOnce_eq (r : Rule) : r.appliesAtOnce o = r.applies .patient o := by
  unfold appliesAtOnce applies Gate.isOpen
  cases r.gate.asyncCondition with
  | some c => rfl
  | none => cases r.gate.condition <;> rfl

end MemberRules
