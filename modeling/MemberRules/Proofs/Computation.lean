/-
# Computations that may fail and keep a state

Evaluations, look-ups, reflections and engine steps are all computations of one shape: from a state
they lead to a result or a fault, and to the state that is left.  This file says what the parts of
such a computation do to a state, so that a `do` block is read off part by part, and how a run that
ended well is taken apart again.
-/
import Mathlib.Data.List.Forall2
import MemberRules.Validation.Run

namespace MemberRules
namespace Computation

variable {ε σ α β : Type}

/-! ## 1. One part after the other -/

/-- The rest of a computation runs only if its first part ends well. -/
theorem bind_apply (x : ExceptT ε (StateM σ) α) (f : α → ExceptT ε (StateM σ) β) (s : σ) :
    (x >>= f) s = match x s with
      | (.ok a, s') => f a s'
      | (.error e, s') => (.error e, s') := by
  show (match (x s) with | (r, s') => (ExceptT.bindCont f r) s') = _
  rcases x s with ⟨r | r, s'⟩ <;> rfl

theorem get_apply (s : σ) : (get : ExceptT ε (StateM σ) σ) s = (.ok s, s) := rfl

theorem modify_apply (f : σ → σ) (s : σ) :
    (modify f : ExceptT ε (StateM σ) PUnit) s = (.ok ⟨⟩, f s) := rfl

/-- A first part that ended well. -/
theorem bind_ok {x : ExceptT ε (StateM σ) α} {f : α → ExceptT ε (StateM σ) β} {s s' : σ} {a : α}
    (h : x s = (.ok a, s')) : (x >>= f) s = f a s' := by
  rw [bind_apply, h]

/-- A first part that failed. -/
theorem bind_error {x : ExceptT ε (StateM σ) α} {f : α → ExceptT ε (StateM σ) β} {s s' : σ} {e : ε}
    (h : x s = (.error e, s')) : (x >>= f) s = (.error e, s') := by
  rw [bind_apply, h]

/-- **A run that ended well, taken apart**: both of its parts did. -/
theorem bind_eq_ok {x : ExceptT ε (StateM σ) α} {f : α → ExceptT ε (StateM σ) β} {s s' : σ}
    {b : β} :
    (x >>= f) s = (.ok b, s') ↔ ∃ a s₁, x s = (.ok a, s₁) ∧ f a s₁ = (.ok b, s') := by
  rw [bind_apply]
  constructor
  · intro h
    rcases hx : x s with ⟨r | a, s₁⟩ <;> rw [hx] at h
    · cases h
    · exact ⟨a, s₁, rfl, h⟩
  · rintro ⟨a, s₁, hx, hf⟩
    rw [hx]
    exact hf

/-- What gave a value ended well. -/
theorem ok_of_toOption {r : Except ε α} {a : α} (h : r.toOption = some a) : r = .ok a := by
  cases r with
  | error x => cases h
  | ok b =>
    cases h
    rfl

theorem eq_ok_of_toOption {r : Except ε α × σ} {a : α} (h : r.1.toOption = some a) :
    r = (.ok a, r.2) := Prod.ext (ok_of_toOption h) rfl

/-! ### Computations without a state -/

theorem except_bind_eq_ok {x : Except ε α} {f : α → Except ε β} {b : β} :
    x >>= f = .ok b ↔ ∃ a, x = .ok a ∧ f a = .ok b := by
  constructor
  · intro h
    cases x with
    | error r => cases h
    | ok a => exact ⟨a, rfl, h⟩
  · rintro ⟨a, rfl, h⟩
    exact h

theorem except_map_eq_ok {x : Except ε α} {f : α → β} {b : β} :
    x.map f = .ok b ↔ ∃ a, x = .ok a ∧ f a = b := by
  cases x <;> simp [Except.map]

/-- Where a computation failed: in its first part, or after it. -/
theorem except_bind_eq_error {x : Except ε α} {f : α → Except ε β} {e : ε} (h : x >>= f = .error e) :
    x = .error e ∨ ∃ a, x = .ok a ∧ f a = .error e := by
  cases x with
  | error r =>
    cases h
    exact .inl rfl
  | ok a => exact .inr ⟨a, rfl, h⟩

/-- A loop over a list that failed did so at one of its elements. -/
theorem except_mapM_eq_error {f : α → Except ε β} {as : List α} {e : ε}
    (h : as.mapM f = .error e) : ∃ a ∈ as, f a = .error e := by
  induction as with
  | nil => cases h
  | cons a as ih =>
    rw [List.mapM_cons] at h
    rcases except_bind_eq_error h with h | ⟨b, -, h⟩
    · exact ⟨a, List.mem_cons_self, h⟩
    · rcases except_bind_eq_error h with h | ⟨bs, -, h⟩
      · obtain ⟨a', ha', hf⟩ := ih h
        exact ⟨a', List.mem_cons_of_mem a ha', hf⟩
      · cases h

/-- **A loop over a list that ended well** gave a result for each element. -/
theorem mapM_eq_ok_iff {f : α → Except ε β} {as : List α} {bs : List β} :
    as.mapM f = .ok bs ↔ List.Forall₂ (fun a b => f a = .ok b) as bs := by
  induction as generalizing bs with
  | nil =>
    rw [List.mapM_nil, List.forall₂_nil_left_iff]
    exact ⟨fun h => by cases h; rfl, fun h => by rw [h]; rfl⟩
  | cons a as ih =>
    rw [List.mapM_cons, except_bind_eq_ok, List.forall₂_cons_left_iff]
    constructor
    · rintro ⟨b, hb, h⟩
      obtain ⟨bs', hbs, h⟩ := except_bind_eq_ok.mp h
      cases h
      exact ⟨b, bs', hb, ih.mp hbs, rfl⟩
    · rintro ⟨b, bs', hb, hbs, rfl⟩
      exact ⟨b, hb, except_bind_eq_ok.mpr ⟨bs', ih.mpr hbs, rfl⟩⟩

/-- In lists that are related element by element, each element has one that is related to it. -/
theorem exists_of_mem_forall₂ {Q : α → β → Prop} {as : List α} {bs : List β}
    (h : List.Forall₂ Q as bs) {b : β} (hb : b ∈ bs) : ∃ a ∈ as, Q a b := by
  induction h with
  | nil => cases hb
  | cons hQ _ ih =>
    rcases List.mem_cons.mp hb with rfl | hb
    · exact ⟨_, List.mem_cons_self, hQ⟩
    · obtain ⟨a, ha, hQ⟩ := ih hb
      exact ⟨a, List.mem_cons_of_mem _ ha, hQ⟩

theorem exists_of_mem_left {Q : α → β → Prop} {as : List α} {bs : List β}
    (h : List.Forall₂ Q as bs) {a : α} (ha : a ∈ as) : ∃ b ∈ bs, Q a b :=
  exists_of_mem_forall₂ h.flip ha

/-- A result of a loop that ended well is that of an element. -/
theorem exists_of_mem_mapM {f : α → Except ε β} {as : List α} {bs : List β} {b : β}
    (h : as.mapM f = .ok bs) (hb : b ∈ bs) : ∃ a ∈ as, f a = .ok b :=
  exists_of_mem_forall₂ (mapM_eq_ok_iff.mp h) hb

/-- An element of a loop that ended well has a result. -/
theorem mapM_ok_of_mem {f : α → Except ε β} {as : List α} {bs : List β} {a : α}
    (h : as.mapM f = .ok bs) (ha : a ∈ as) : ∃ b ∈ bs, f a = .ok b :=
  exists_of_mem_left (mapM_eq_ok_iff.mp h) ha

/-- A loop ends well exactly if each of its steps does. -/
theorem exists_mapM_eq_ok_iff {f : α → Except ε β} {as : List α} :
    (∃ bs, as.mapM f = .ok bs) ↔ ∀ a ∈ as, ∃ b, f a = .ok b := by
  constructor
  · rintro ⟨bs, h⟩ a ha
    obtain ⟨b, -, hb⟩ := mapM_ok_of_mem h ha
    exact ⟨b, hb⟩
  · intro h
    cases hrun : as.mapM f with
    | ok bs => exact ⟨bs, rfl⟩
    | error e =>
      obtain ⟨a, ha, hfails⟩ := except_mapM_eq_error hrun
      obtain ⟨b, hb⟩ := h a ha
      rw [hfails] at hb
      cases hb

/-- A loop that ended well leaves what both the elements and the results show of them. -/
theorem map_of_mapM_eq_ok {γ : Type} {f : α → Except ε β} {g : β → γ} {k : α → γ} {as : List α}
    {bs : List β} (h : as.mapM f = .ok bs) (hf : ∀ a b, f a = .ok b → g b = k a) :
    bs.map g = as.map k := by
  induction mapM_eq_ok_iff.mp h with
  | nil => rfl
  | cons hb _ ih => rw [List.map_cons, List.map_cons, hf _ _ hb, ih (mapM_eq_ok_iff.mpr ‹_›)]

/-- What is looked up stands in the list. -/
theorem mem_of_lookup [BEq α] [LawfulBEq α] {es : List (α × β)} {a : α} {b : β}
    (h : es.lookup a = some b) : (a, b) ∈ es := by
  induction es with
  | nil => cases h
  | cons e es ih =>
    rw [List.lookup_cons] at h
    split at h
    · rename_i heq
      obtain rfl := LawfulBEq.eq_of_beq heq
      cases h
      exact List.mem_cons_self
    · exact List.mem_cons_of_mem e (ih h)

/-- What is looked up after all values of a list have been changed. -/
theorem lookup_map_entry {γ : Type} [BEq α] [LawfulBEq α] (f : α × β → γ) (es : List (α × β))
    (a : α) : (es.map fun e => (e.1, f e)).lookup a = (es.lookup a).map fun b => f (a, b) := by
  induction es with
  | nil => rfl
  | cons e es ih =>
    rw [List.map_cons, List.lookup_cons, List.lookup_cons, ih]
    cases h : a == e.1 with
    | true => rw [LawfulBEq.eq_of_beq h]; rfl
    | false => rfl

end Computation

/-! ## 2. Steps of an engine -/

namespace Action

variable {α : Type}

theorem lift_apply (r : Except Fault α) (e : Engine) : lift r e = (r, e) := rfl

theorem eval_apply (x : Eval α) (e : Engine) :
    eval x e = ((x e.world).1, { e with world := (x e.world).2 }) := rfl

theorem lookup_apply (x : Lookup α) (e : Engine) :
    lookup x e = ((x e.lookups).1, { e with lookups := (x e.lookups).2 }) := rfl

theorem reflecting_apply (x : Reflecting α) (e : Engine) :
    reflecting x e = ((x e.reflected).1, { e with reflected := (x e.reflected).2 }) := rfl

/-! ### Registering declared rules -/

variable {e : Engine} {t : TypeId} {depth : Nat}

/-- A type that is known is passed over. -/
theorem ensureWithin_of_knows (h : e.registry.knows t = true) :
    ensureWithin (depth + 1) t e = (.ok (), e) := by
  unfold ensureWithin
  rw [Computation.bind_ok (Computation.get_apply e), if_pos h]
  rfl

/-- A type that is not known is registered, and then the types nested in it are. -/
theorem ensureWithin_of_unknown (h : e.registry.knows t = false) :
    ensureWithin (depth + 1) t e = (do
      let rs ← declaredRules t
      addRules t rs
      (nestedModels rs).forM (ensureWithin depth) : Action Unit) e := by
  unfold ensureWithin
  rw [Computation.bind_ok (Computation.get_apply e), h]
  rfl

theorem schema_apply (e : Engine) : schema e = (.ok e.world.schema, e) := rfl

theorem ensure_apply (t : TypeId) (e : Engine) :
    ensure t e = ensureWithin (e.world.schema.types.length + 2) t e := by
  unfold ensure
  rw [Computation.bind_ok (schema_apply e)]

theorem ensure_of_knows (h : e.registry.knows t = true) : ensure t e = (.ok (), e) := by
  rw [ensure_apply, ensureWithin_of_knows h]

theorem ensure_of_unknown (h : e.registry.knows t = false) : ensure t e = (do
    let rs ← declaredRules t
    addRules t rs
    (nestedModels rs).forM (ensureWithin (e.world.schema.types.length + 1)) : Action Unit) e := by
  rw [ensure_apply, ensureWithin_of_unknown h]

end Action

/-! ## 3. Steps that keep a property of the engine -/

section Keeps

open Computation

variable {α β : Type} {I : Engine → Prop} {P : α → Prop} {Q : β → Prop}

/-- A step that keeps a property from one engine on, with a fact about its result. -/
def Action.KeepsFrom (I : Engine → Prop) (x : Action α) (P : α → Prop) (e : Engine) : Prop :=
  I (x e).2 ∧ ∀ a, (x e).1 = .ok a → P a

/-- A step that keeps a property, with a fact about its result. -/
def Action.Keeps (I : Engine → Prop) (x : Action α) (P : α → Prop := fun _ => True) : Prop :=
  ∀ e, I e → Action.KeepsFrom I x P e

theorem Action.KeepsFrom.bind {x : Action α} {f : α → Action β} {e : Engine}
    (h : Action.KeepsFrom I x P e) (hf : ∀ a, P a → Action.Keeps I (f a) Q) :
    Action.KeepsFrom I (x >>= f) Q e := by
  obtain ⟨hkept, hresult⟩ := h
  unfold Action.KeepsFrom
  rw [bind_apply]
  rcases hx : x e with ⟨r | a, e'⟩ <;> rw [hx] at hkept hresult
  · exact ⟨hkept, fun b hb => by cases hb⟩
  · exact hf a (hresult a rfl) e' hkept

namespace Action.Keeps

theorem pure {a : α} (h : P a) : Action.Keeps I (pure a) P := fun _ he =>
  ⟨he, fun b hb => by cases hb; exact h⟩

theorem throw (f : Fault) : Action.Keeps I (throw f : Action α) P := fun _ he =>
  ⟨he, fun b hb => by cases hb⟩

theorem lift (r : Except Fault α) : Action.Keeps I (Action.lift r) fun a => r = .ok a := fun _ he =>
  ⟨he, fun _ h => h⟩

theorem bind {x : Action α} {f : α → Action β} (h : Action.Keeps I x P)
    (hf : ∀ a, P a → Action.Keeps I (f a) Q) : Action.Keeps I (x >>= f) Q :=
  fun e he => (h e he).bind hf

/-- A step that follows one of whose result nothing need be known. -/
theorem andThen {x : Action α} {f : α → Action β} (h : Action.Keeps I x P)
    (hf : ∀ a, Action.Keeps I (f a) Q) : Action.Keeps I (x >>= f) Q :=
  h.bind fun a _ => hf a

theorem get_bind {f : Engine → Action α} (h : ∀ e, I e → Action.KeepsFrom I (f e) P e) :
    Action.Keeps I (get >>= f) P := by
  intro e he
  unfold Action.KeepsFrom
  rw [bind_ok (get_apply e)]
  exact h e he

theorem change {f : Engine → Engine} (h : ∀ e, I e → I (f e)) :
    Action.Keeps I (modify f : Action PUnit) := fun e he =>
  ⟨h e he, fun _ _ => trivial⟩

/-- A step with something that may be missing. -/
theorem ofOption {f : Option β → Action α} (hnone : Action.Keeps I (f none) P)
    (hsome : ∀ b, Action.Keeps I (f (some b)) P) (o : Option β) : Action.Keeps I (f o) P := by
  cases o with
  | none => exact hnone
  | some b => exact hsome b

theorem mono {P' : α → Prop} {x : Action α} (h : Action.Keeps I x P) (hp : ∀ a, P a → P' a) :
    Action.Keeps I x P' := fun e he =>
  ⟨(h e he).1, fun a ha => hp a ((h e he).2 a ha)⟩

theorem weaken {x : Action α} (h : Action.Keeps I x P) : Action.Keeps I x :=
  h.mono fun _ _ => trivial

theorem forM {f : α → Action PUnit} {as : List α} (h : ∀ a ∈ as, Action.Keeps I (f a)) :
    Action.Keeps I (as.forM f) := by
  induction as with
  | nil => exact pure trivial
  | cons a as ih =>
    exact andThen (h a List.mem_cons_self) fun _ => ih fun b hb => h b (List.mem_cons_of_mem a hb)

theorem mapM {f : α → Action β} {as : List α} (h : ∀ a ∈ as, Action.Keeps I (f a) Q) :
    Action.Keeps I (as.mapM f) fun bs => ∀ b ∈ bs, Q b := by
  induction as with
  | nil =>
    rw [List.mapM_nil]
    exact pure fun b hb => absurd hb List.not_mem_nil
  | cons a as ih =>
    rw [List.mapM_cons]
    refine bind (h a List.mem_cons_self) fun b hb => ?_
    have hrest := ih fun a' ha' => h a' (List.mem_cons_of_mem a ha')
    exact bind hrest fun bs hbs => pure (List.forall_mem_cons.mpr ⟨hb, hbs⟩)

end Action.Keeps

end Keeps

/-! ## 4. One finding for each of several things -/

namespace Validation

theorem collect_map {α β : Type} (f : β → Finding) (g : α → β) (as : List α) :
    collect f (as.map g) = collect (fun a => f (g a)) as := by
  induction as with
  | nil => rfl
  | cons a as ih =>
    show (do return (← f (g a)) ++ (← collect f (as.map g)) : Finding) = _
    rw [ih]
    rfl

theorem collect_singleton {α : Type} (f : α → Finding) (a : α) : collect f [a] = f a := by
  simp [collect]

end Validation
end MemberRules
