/-
# Equality of bounds

A bound is a point (nothing, a truth value, a number, a text, bytes or a moment of the calendar) or
a list, tuple or set of bounds; what is not a number is a bound as a float, not as a decimal, and
the elements of a set are distinct.  As parts of collections points are equal exactly if they have
the same mark: their place on the line for numbers of all kinds, the text, the bytes or the moment
for the others, and for what is not a number the time it was made.  So equality of parts is an
equivalence on bounds.  For sets it is less plain than it looks: two sets are equal if they have as
many elements and each element of the first occurs in the second, which is symmetric only because
the elements are distinct.

* `samePart_point`: points are equal exactly if they have the same mark.
* `IsBound.samePart_refl`, `IsBound.samePart_comm`, `IsBound.samePart_trans`: an equivalence.
* `IsBound.samePart_congr`: it does not depend on how objects are compared.
-/
import Mathlib.Data.List.Forall2
import MemberRules.Proofs.Number.Places
import MemberRules.Value.Order

namespace MemberRules
namespace Value

open Number (Exact)

variable {so : ObjectId → ObjectId → Bool} {a b c : Value} {xs ys zs : List Value}

/-! ## 1. Equality of collections -/

/-- Sequences are equal element by element. -/
theorem sameAll_iff :
    sameAll so xs ys = true ↔ List.Forall₂ (fun x y => samePart so x y = true) xs ys := by
  induction xs generalizing ys with
  | nil => cases ys <;> simp [sameAll]
  | cons x xs ih =>
    cases ys with
    | nil => simp [sameAll]
    | cons y ys => simp [sameAll, samePart, ih]

/-- A list is within another one if each element has an equal one there. -/
theorem within_iff :
    within so xs ys = true ↔ ∀ x ∈ xs, ∃ y ∈ ys, samePart so x y = true := by
  induction xs with
  | nil => simp [within]
  | cons x xs ih => simp [within, samePart, ih]

theorem samePart_list : samePart so (.list xs) b = true ↔
    ∃ ys, b = .list ys ∧ List.Forall₂ (fun x y => samePart so x y = true) xs ys := by
  cases b <;> simp [samePart, sameUndefined, same, sameAll_iff]

theorem samePart_tuple : samePart so (.tuple xs) b = true ↔
    ∃ ys, b = .tuple ys ∧ List.Forall₂ (fun x y => samePart so x y = true) xs ys := by
  cases b <;> simp [samePart, sameUndefined, same, sameAll_iff]

theorem samePart_set : samePart so (.set xs) b = true ↔
    ∃ ys, b = .set ys ∧ xs.length = ys.length ∧ ∀ x ∈ xs, ∃ y ∈ ys, samePart so x y = true := by
  cases b <;> simp [samePart, sameUndefined, same, within_iff]

/-! ## 2. Points -/

/-- What a point is told from others by. -/
inductive Mark
  | nothing
  | text (s : String)
  | number (place : WithBot (WithTop ℚ))
  | undefined (mark : Nat)
  | bytes (bs : List UInt8)
  | date (d : Date)
  | dateTime (t : DateTime)
  | time (t : TimeOfDay)

/-- The mark of a value, if it is a point. -/
def mark? (a : Value) : Option Mark :=
  match a with
  | none => some .nothing
  | float (.nan m) => some (.undefined m)
  | bytes bs => some (.bytes bs)
  | date d => some (.date d)
  | dateTime t => some (.dateTime t)
  | time t => some (.time t)
  | a =>
    match a.text? with
    | some s => some (.text s)
    | Option.none => a.number?.bind fun x => x.place?.map .number

theorem mark?_eq_text {s : String} : b.mark? = some (.text s) ↔ b.text? = some s := by
  cases b with
  | float y => cases y <;> simp [mark?, text?, number?]
  | _ => simp [mark?, text?, number?]

theorem mark?_eq_number {p : WithBot (WithTop ℚ)} :
    b.mark? = some (.number p) ↔ ∃ y, b.number? = some y ∧ y.place? = some p := by
  cases b with
  | float y => cases y <;> simp [mark?, text?, number?, Exact.ofBinary64, Exact.place?]
  | _ => simp [mark?, text?, number?]

/-- The only point with a mark that is no text and no place. -/
def Mark.owner? : Mark → Option Value
  | nothing => some .none
  | undefined m => some (.float (.nan m))
  | bytes bs => some (.bytes bs)
  | date d => some (.date d)
  | dateTime t => some (.dateTime t)
  | time t => some (.time t)
  | text _ | number _ => Option.none

theorem mark?_eq_owner {m : Mark} (h : m.owner? = some a) : b.mark? = some m ↔ b = a := by
  cases m <;> simp only [Mark.owner?, Option.some.injEq, reduceCtorEq] at h <;> subst h <;>
    cases b with
    | float y => cases y <;> simp [mark?, text?, number?]
    | _ => simp [mark?, text?, number?]

theorem samePart_owner {m : Mark} (h : m.owner? = some a) : samePart so a b = true ↔ a = b := by
  cases m <;> simp only [Mark.owner?, Option.some.injEq, reduceCtorEq] at h <;> subst h <;>
    cases b with
    | float y =>
      cases y <;>
        simp [samePart, sameUndefined, same, sameAtom, text?, number?, Exact.ofBinary64,
          Exact.compare?]
    | _ =>
      simp [samePart, sameUndefined, same, sameAtom, text?, number?, Exact.ofBinary64,
        Exact.compare?]

/-- A text is equal to the texts of the same characters. -/
theorem samePart_text {s : String} (ha : a.text? = some s) :
    samePart so a b = true ↔ b.text? = some s := by
  have heq (t : String) : (s == t) = true ↔ t = s := by rw [beq_iff_eq, eq_comm]
  cases a <;> simp only [text?, Option.some.injEq, reduceCtorEq] at ha <;> subst ha <;>
    cases b <;> simp [samePart, sameUndefined, same, sameAtom, text?, number?, heq]

/-- A number that has a place is equal to the numbers at the same place. -/
theorem samePart_number {x : Exact} {p : WithBot (WithTop ℚ)} (ha : a.number? = some x)
    (hp : x.place? = some p) :
    samePart so a b = true ↔ ∃ y, b.number? = some y ∧ y.place? = some p := by
  have heq (y : Exact) : (x.compare? y == some .eq) = true ↔ y.place? = some p := by
    rw [beq_iff_eq, Exact.compare?_eq_iff, hp]
    simp [eq_comm]
  have hdefined : sameUndefined a b = false := by
    cases a <;> simp only [number?, Option.some.injEq, reduceCtorEq] at ha <;> subst ha
    · rfl
    · rfl
    · rename_i f
      cases f <;> simp_all [Exact.ofBinary64, Exact.place?, sameUndefined]
    · rename_i d
      cases d <;> simp_all [Exact.ofDecimal, Exact.place?, sameUndefined]
  rw [samePart, hdefined, Bool.false_or]
  cases a <;> simp only [number?, Option.some.injEq, reduceCtorEq] at ha <;> subst ha <;>
    cases b <;> simp [same, sameAtom, text?, number?, heq]

/-- **Points are equal as parts of collections exactly if they have the same mark.** -/
theorem samePart_point {m : Mark} (ha : a.mark? = some m) :
    samePart so a b = true ↔ b.mark? = some m := by
  cases hm : m.owner? with
  | some v =>
    rw [(mark?_eq_owner hm).mp ha, samePart_owner hm, mark?_eq_owner hm, eq_comm]
  | none =>
    cases m with
    | text s => rw [samePart_text (mark?_eq_text.mp ha), mark?_eq_text]
    | number p =>
      obtain ⟨x, hx, hp⟩ := mark?_eq_number.mp ha
      rw [samePart_number hx hp, mark?_eq_number]
    | _ => cases hm

/-! ## 3. Bounds -/

/-- A point, or a collection of bounds; the elements of a set are distinct. -/
inductive IsBound : Value → Prop
  | point {a : Value} {m : Mark} (h : a.mark? = some m) : IsBound a
  | list {xs : List Value} (h : ∀ x ∈ xs, IsBound x) : IsBound (.list xs)
  | tuple {xs : List Value} (h : ∀ x ∈ xs, IsBound x) : IsBound (.tuple xs)
  | set {xs : List Value} (h : ∀ x ∈ xs, IsBound x)
      (distinct : xs.Pairwise fun x y => samePart (· == ·) x y = false) : IsBound (.set xs)

theorem IsBound.of_mem_list {x : Value} (h : (Value.list xs).IsBound) (hx : x ∈ xs) :
    x.IsBound := by
  cases h with
  | point h => simp [mark?, text?, number?] at h
  | list h => exact h x hx

theorem IsBound.of_mem_tuple {x : Value} (h : (Value.tuple xs).IsBound) (hx : x ∈ xs) :
    x.IsBound := by
  cases h with
  | point h => simp [mark?, text?, number?] at h
  | tuple h => exact h x hx

theorem IsBound.of_mem_set {x : Value} (h : (Value.set xs).IsBound) (hx : x ∈ xs) : x.IsBound := by
  cases h with
  | point h => simp [mark?, text?, number?] at h
  | set h _ => exact h x hx

theorem forall₂_congr_left {α β : Type} {R S : α → β → Prop} {xs : List α} {ys : List β}
    (h : ∀ x ∈ xs, ∀ y, R x y ↔ S x y) : List.Forall₂ R xs ys ↔ List.Forall₂ S xs ys := by
  induction xs generalizing ys with
  | nil => simp
  | cons x xs ih =>
    cases ys with
    | nil => simp
    | cons y ys =>
      rw [List.forall₂_cons, List.forall₂_cons, h x List.mem_cons_self y,
        ih fun x hx => h x (List.mem_cons_of_mem _ hx)]

/-- **Equality with a bound does not depend on how objects are compared.** -/
theorem IsBound.samePart_congr {so' : ObjectId → ObjectId → Bool} (ha : a.IsBound) (b : Value) :
    samePart so a b = samePart so' a b := by
  rw [Bool.eq_iff_iff]
  induction ha generalizing b with
  | point h => rw [samePart_point h, samePart_point h]
  | list h ih =>
    rw [samePart_list, samePart_list]
    exact exists_congr fun ys => and_congr_right fun _ => forall₂_congr_left ih
  | tuple h ih =>
    rw [samePart_tuple, samePart_tuple]
    exact exists_congr fun ys => and_congr_right fun _ => forall₂_congr_left ih
  | set h _ ih =>
    rw [samePart_set, samePart_set]
    exact exists_congr fun ys => and_congr_right fun _ => and_congr_right fun _ =>
      forall₂_congr fun x hx => exists_congr fun y => and_congr_right fun _ => ih x hx y

/-- If distinct things have their counterparts among as many things, or fewer, each of these is a
counterpart. -/
theorem exists_of_length_le {α β : Type} {R : α → β → Prop} {xs : List α} {ys : List β}
    (hdistinct : xs.Pairwise fun x x' => ∀ y ∈ ys, R x y → ¬ R x' y)
    (hfind : ∀ x ∈ xs, ∃ y ∈ ys, R x y) (hle : ys.length ≤ xs.length) :
    ∀ y ∈ ys, ∃ x ∈ xs, R x y := by
  induction xs generalizing ys with
  | nil =>
    rw [List.eq_nil_of_length_eq_zero (Nat.le_zero.mp hle)]
    simp
  | cons x xs ih =>
    obtain ⟨y, hy, hxy⟩ := hfind x List.mem_cons_self
    obtain ⟨zs, hperm⟩ : ∃ zs, ys.Perm (y :: zs) := by
      obtain ⟨before, behind, rfl⟩ := List.append_of_mem hy
      exact ⟨before ++ behind, List.perm_middle⟩
    obtain ⟨hhead, htail⟩ := List.pairwise_cons.mp hdistinct
    have hrest : ∀ z ∈ zs, z ∈ ys := fun z hz => hperm.mem_iff.mpr (List.mem_cons_of_mem _ hz)
    have hlength := hperm.length_eq
    -- the counterparts of the others stand beside `y`
    have hbeside : ∀ x' ∈ xs, ∃ z ∈ zs, R x' z := by
      intro x' hx'
      obtain ⟨z, hz, hxz⟩ := hfind x' (List.mem_cons_of_mem _ hx')
      rcases List.mem_cons.mp (hperm.mem_iff.mp hz) with rfl | hz
      · exact absurd hxz (hhead x' hx' z hy hxy)
      · exact ⟨z, hz, hxz⟩
    have hothers := ih (htail.imp fun h z hz => h z (hrest z hz)) hbeside (by
      simp only [List.length_cons] at hlength hle
      omega)
    intro z hz
    rcases List.mem_cons.mp (hperm.mem_iff.mp hz) with rfl | hz
    · exact ⟨x, List.mem_cons_self, hxy⟩
    · obtain ⟨x', hx', h⟩ := hothers z hz
      exact ⟨x', List.mem_cons_of_mem _ hx', h⟩

/-- Sequences that are equal element by element are equal to the same sequences. -/
theorem forall₂_iff_of_forall₂ {α : Type} {R : α → α → Prop} {xs ys zs : List α}
    (h : List.Forall₂ R xs ys)
    (hcongr : ∀ x ∈ xs, ∀ y ∈ ys, ∀ z ∈ zs, R x y → (R x z ↔ R y z)) :
    List.Forall₂ R xs zs ↔ List.Forall₂ R ys zs := by
  induction h generalizing zs with
  | nil => rfl
  | @cons x y xs ys hxy _ ih =>
    cases zs with
    | nil => simp
    | cons z zs =>
      have htail := ih fun x hx y hy z hz => hcongr x (List.mem_cons_of_mem _ hx) y
        (List.mem_cons_of_mem _ hy) z (List.mem_cons_of_mem _ hz)
      have hhead := hcongr x List.mem_cons_self y List.mem_cons_self z List.mem_cons_self hxy
      rw [List.forall₂_cons, List.forall₂_cons, hhead, htail]

/-- A value that is equal to itself and takes part in the equality of bounds as they do. -/
def IsLevel (so : ObjectId → ObjectId → Bool) (a : Value) : Prop :=
  samePart so a a = true ∧ ∀ b c, b.IsBound → c.IsBound → samePart so a b = true →
    (samePart so a c = true ↔ samePart so b c = true)

theorem IsLevel.symm (ha : a.IsLevel so) (hbound : a.IsBound) (hb : b.IsBound)
    (h : samePart so a b = true) : samePart so b a = true :=
  (ha.2 b a hb hbound h).mp ha.1

theorem IsBound.isLevel (ha : a.IsBound) : a.IsLevel so := by
  induction ha with
  | point h =>
    refine ⟨(samePart_point h).mpr h, fun b c _ _ hab => ?_⟩
    rw [samePart_point h, samePart_point ((samePart_point h).mp hab)]
  | @list xs h ih =>
    refine ⟨samePart_list.mpr ⟨xs, rfl, List.forall₂_same.mpr fun x hx => (ih x hx).1⟩, ?_⟩
    intro b c hb hc hab
    obtain ⟨ys, rfl, hxy⟩ := samePart_list.mp hab
    rw [samePart_list, samePart_list]
    refine exists_congr fun zs => and_congr_right ?_
    rintro rfl
    exact forall₂_iff_of_forall₂ hxy fun x hx y hy z hz =>
      (ih x hx).2 y z (hb.of_mem_list hy) (hc.of_mem_list hz)
  | @tuple xs h ih =>
    refine ⟨samePart_tuple.mpr ⟨xs, rfl, List.forall₂_same.mpr fun x hx => (ih x hx).1⟩, ?_⟩
    intro b c hb hc hab
    obtain ⟨ys, rfl, hxy⟩ := samePart_tuple.mp hab
    rw [samePart_tuple, samePart_tuple]
    refine exists_congr fun zs => and_congr_right ?_
    rintro rfl
    exact forall₂_iff_of_forall₂ hxy fun x hx y hy z hz =>
      (ih x hx).2 y z (hb.of_mem_tuple hy) (hc.of_mem_tuple hz)
  | @set xs h hdistinct ih =>
    refine ⟨samePart_set.mpr ⟨xs, rfl, rfl, fun x hx => ⟨x, hx, (ih x hx).1⟩⟩, ?_⟩
    intro b c hb hc hab
    obtain ⟨ys, rfl, hlength, hxy⟩ := samePart_set.mp hab
    -- two elements of `xs` that are equal to one of `ys` are equal to each other
    have hone : xs.Pairwise fun x x' => ∀ y ∈ ys, samePart so x y = true →
        ¬ samePart so x' y = true := by
      refine hdistinct.imp_of_mem ?_
      intro x x' hx hx' hne y hy hxy hxy'
      have hyx' := (ih x' hx').symm (h x' hx') (hb.of_mem_set hy) hxy'
      have hsame := ((ih x hx).2 y x' (hb.of_mem_set hy) (h x' hx') hxy).mpr hyx'
      have hcongr : samePart so x x' = samePart (· == ·) x x' := (h x hx).samePart_congr x'
      rw [hcongr, hne] at hsame
      cases hsame
    have hyx := exists_of_length_le hone hxy hlength.ge
    rw [samePart_set, samePart_set]
    refine exists_congr fun zs => and_congr_right ?_
    rintro rfl
    rw [hlength]
    refine and_congr_right fun _ => ⟨fun hxz y hy => ?_, fun hyz x hx => ?_⟩
    · obtain ⟨x, hx, hsame⟩ := hyx y hy
      obtain ⟨z, hz, hxz⟩ := hxz x hx
      exact ⟨z, hz, ((ih x hx).2 y z (hb.of_mem_set hy) (hc.of_mem_set hz) hsame).mp hxz⟩
    · obtain ⟨y, hy, hsame⟩ := hxy x hx
      obtain ⟨z, hz, hyz⟩ := hyz y hy
      exact ⟨z, hz, ((ih x hx).2 y z (hb.of_mem_set hy) (hc.of_mem_set hz) hsame).mpr hyz⟩

namespace IsBound

variable (ha : a.IsBound) (hb : b.IsBound) (hc : c.IsBound)

include ha

/-- **A bound is equal to itself as a part of a collection**, even what is not a number. -/
theorem samePart_refl : samePart so a a = true := ha.isLevel.1

include hb

theorem samePart_comm : samePart so a b = samePart so b a := by
  rw [Bool.eq_iff_iff]
  exact ⟨ha.isLevel.symm ha hb, hb.isLevel.symm hb ha⟩

include hc

theorem samePart_trans (hab : samePart so a b = true) (hbc : samePart so b c = true) :
    samePart so a c = true :=
  (ha.isLevel.2 b c hb hc hab).mpr hbc

end IsBound

end Value
end MemberRules
