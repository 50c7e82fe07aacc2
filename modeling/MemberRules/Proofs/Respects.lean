/-
# Steps that respect a relation of engines

Whether something an engine holds makes a difference is a question about two engines that differ in it.
A step respects a relation of engines if it gives the same from related ones, and leaves such.  This
file carries the relation through the ways in which steps are put together.

* `Agree`: two ends of a step with the same result and related engines.
* `Action.Respects`: a step that ends so from related engines, with one rule for each way to build one.
* `Matched`, `Action.Matches`: the same for two steps, whose results are related as well.
-/
import MemberRules.Proofs.Computation

namespace MemberRules

open MemberRules.Computation

variable {α β : Type} {R : Engine → Engine → Prop}

/-- Two ends of a step: the same result, and related engines. -/
def Agree (R : Engine → Engine → Prop) (p q : Except Fault α × Engine) : Prop :=
  p.1 = q.1 ∧ R p.2 q.2

/-- A step that gives the same from related engines, and leaves such. -/
def Action.Respects (R : Engine → Engine → Prop) (x : Action α) : Prop :=
  ∀ e e', R e e' → Agree R (x e) (x e')

theorem Agree.bind {x y : Action α} {f g : α → Action β} {e e' : Engine}
    (h : Agree R (x e) (y e')) (hf : ∀ a e₁ e₁', R e₁ e₁' → Agree R (f a e₁) (g a e₁')) :
    Agree R ((x >>= f) e) ((y >>= g) e') := by
  obtain ⟨hresult, hleft⟩ := h
  rw [bind_apply, bind_apply]
  rcases hx : x e with ⟨r | a, e₁⟩ <;> rcases hy : y e' with ⟨r' | a', e₁'⟩ <;>
    rw [hx, hy] at hresult hleft <;> cases hresult
  · exact ⟨rfl, hleft⟩
  · exact hf a e₁ e₁' hleft

namespace Action.Respects

theorem pure (a : α) : Action.Respects R (pure a) := fun _ _ h => ⟨rfl, h⟩

theorem throw (f : Fault) : Action.Respects R (throw f : Action α) := fun _ _ h => ⟨rfl, h⟩

theorem lift (r : Except Fault α) : Action.Respects R (Action.lift r) := fun _ _ h => ⟨rfl, h⟩

theorem bind {x : Action α} {f : α → Action β} (hx : Action.Respects R x)
    (hf : ∀ a, Action.Respects R (f a)) : Action.Respects R (x >>= f) := fun e e' he =>
  Agree.bind (hx e e' he) hf

/-- A step that looks at the engine respects what it looks at. -/
theorem get_bind {f : Engine → Action α} (h : ∀ e e', R e e' → Agree R (f e e) (f e' e')) :
    Action.Respects R (get >>= f) := fun e e' he => by
  rw [bind_ok (get_apply e), bind_ok (get_apply e')]
  exact h e e' he

/-- A step with something that may be missing. -/
theorem ofOption {f : Option β → Action α} (hnone : Action.Respects R (f none))
    (hsome : ∀ b, Action.Respects R (f (some b))) (o : Option β) : Action.Respects R (f o) := by
  cases o with
  | none => exact hnone
  | some b => exact hsome b

theorem change {f : Engine → Engine} (h : ∀ e e', R e e' → R (f e) (f e')) :
    Action.Respects R (modify f) := fun e e' he => ⟨rfl, h e e' he⟩

theorem forM {f : α → Action PUnit} {as : List α} (h : ∀ a, Action.Respects R (f a)) :
    Action.Respects R (as.forM f) := by
  induction as with
  | nil => exact .pure _
  | cons a as ih => exact .bind (h a) fun _ => ih

theorem mapM {f : α → Action β} {as : List α} (h : ∀ a, Action.Respects R (f a)) :
    Action.Respects R (as.mapM f) := by
  induction as with
  | nil =>
    rw [List.mapM_nil]
    exact .pure _
  | cons a as ih =>
    rw [List.mapM_cons]
    exact .bind (h a) fun _ => .bind ih fun _ => .pure _

end Action.Respects

/-! ## Two steps -/

variable {S : Engine → Engine → Prop} {P : α → β → Prop} {α' β' : Type} {Q : α' → β' → Prop}

/-- Two ends of two steps: related results or the same fault, and related engines. -/
inductive Matched (R : Engine → Engine → Prop) (P : α → β → Prop) :
    Except Fault α × Engine → Except Fault β × Engine → Prop
  | ok {a : α} {b : β} {e e' : Engine} (hab : P a b) (h : R e e') : Matched R P (.ok a, e) (.ok b, e')
  | error (f : Fault) {e e' : Engine} (h : R e e') : Matched R P (.error f, e) (.error f, e')

/-- Two steps that give related results from related engines, and leave such. -/
def Action.Matches (R : Engine → Engine → Prop) (P : α → β → Prop) (x : Action α) (y : Action β) :
    Prop := ∀ e e', R e e' → Matched R P (x e) (y e')

/-- What follows two steps may relate the engines in another way. -/
theorem Matched.bind {x : Action α} {y : Action β} {f : α → Action α'} {g : β → Action β'}
    {e e' : Engine} (h : Matched R P (x e) (y e')) (hRS : ∀ e e', R e e' → S e e')
    (hf : ∀ a b, P a b → ∀ e e', R e e' → Matched S Q (f a e) (g b e')) :
    Matched S Q ((x >>= f) e) ((y >>= g) e') := by
  rw [bind_apply, bind_apply]
  generalize x e = p at h ⊢
  generalize y e' = q at h ⊢
  cases h with
  | ok hab h => exact hf _ _ hab _ _ h
  | error f h => exact .error f (hRS _ _ h)

namespace Action.Matches

theorem pure {a : α} {b : β} (h : P a b) : Action.Matches R P (pure a) (pure b) :=
  fun _ _ he => .ok h he

theorem of_respects {x : Action α} (h : Action.Respects R x) : Action.Matches R Eq x x := by
  intro e e' he
  obtain ⟨hresult, hleft⟩ := h e e' he
  rcases hx : x e with ⟨f | a, e₁⟩ <;> rcases hy : x e' with ⟨f' | a', e₁'⟩ <;>
    rw [hx, hy] at hresult hleft <;> cases hresult
  · exact .error _ hleft
  · exact .ok rfl hleft

theorem bind {x : Action α} {y : Action β} {f : α → Action α'} {g : β → Action β'}
    (h : Action.Matches R P x y) (hf : ∀ a b, P a b → Action.Matches R Q (f a) (g b)) :
    Action.Matches R Q (x >>= f) (y >>= g) := fun e e' he =>
  (h e e' he).bind (fun _ _ h => h) hf

/-- Two loops over related lists. -/
theorem mapM {f : α → Action α'} {g : β → Action β'}
    (h : ∀ a b, P a b → Action.Matches R Q (f a) (g b)) {as : List α} {bs : List β}
    (hab : List.Forall₂ P as bs) :
    Action.Matches R (List.Forall₂ Q) (as.mapM f) (bs.mapM g) := by
  induction hab with
  | nil =>
    rw [List.mapM_nil, List.mapM_nil]
    exact .pure .nil
  | cons hfirst _ ih =>
    rw [List.mapM_cons, List.mapM_cons]
    exact .bind (h _ _ hfirst) fun _ _ hq => .bind ih fun _ _ hqs => .pure (.cons hq hqs)

end Action.Matches
end MemberRules
