/-
# What evaluations leave alone

An evaluation may make objects, store values in them and leave marks, but it declares no types: the
schema of the world is after it what it was before.  This is shown step by step, for every way in
which an evaluation is put together, so that a new kind of expression or check needs one line here.

* `Eval.KeepsTypes`: an evaluation that leaves the schema alone.
* `Expr.eval_keepsTypes`, `MemberRef.read_keepsTypes`, `MemberRef.write_keepsTypes`: expressions and
  members.
* `Gate.isOpen_keepsTypes`, `Check.runWith_keepsTypes`: what a rule asks for.
-/
import MemberRules.Proofs.Computation

namespace MemberRules

open MemberRules.Computation

variable {α β : Type}

/-! ## 1. Evaluations -/

/-- An evaluation that leaves the schema of a world alone. -/
def Eval.KeepsTypesFrom (x : Eval α) (w : World) : Prop := (x w).2.schema = w.schema

/-- An evaluation that leaves the schema of every world alone. -/
def Eval.KeepsTypes (x : Eval α) : Prop := ∀ w, x.KeepsTypesFrom w

namespace Eval.KeepsTypes

theorem pure (a : α) : Eval.KeepsTypes (pure a) := fun _ => rfl

theorem fail (f : Fault) : Eval.KeepsTypes (Eval.fail f : Eval α) := fun _ => rfl

theorem lift (r : Except Fault α) : Eval.KeepsTypes (Eval.lift r) := by
  cases r with
  | ok a => exact pure a
  | error f => exact fail f

theorem bindFrom {x : Eval α} {f : α → Eval β} {w : World} (hx : x.KeepsTypesFrom w)
    (hf : ∀ a, (f a).KeepsTypes) : (x >>= f).KeepsTypesFrom w := by
  unfold Eval.KeepsTypesFrom at hx ⊢
  rw [bind_apply]
  rcases hrun : x w with ⟨r | a, w'⟩ <;> rw [hrun] at hx
  · exact hx
  · exact (hf a w').trans hx

theorem bind {x : Eval α} {f : α → Eval β} (hx : x.KeepsTypes) (hf : ∀ a, (f a).KeepsTypes) :
    (x >>= f).KeepsTypes := fun w => bindFrom (hx w) hf

/-- What comes after looking at the world may depend on it. -/
theorem get_bind {f : World → Eval α} (hf : ∀ w, (f w).KeepsTypesFrom w) :
    (get >>= f).KeepsTypes := by
  intro w
  unfold Eval.KeepsTypesFrom
  rw [bind_ok (get_apply w)]
  exact hf w

theorem change {f : World → World} (hf : ∀ w, (f w).schema = w.schema) :
    (modify f : Eval PUnit).KeepsTypes := fun w => hf w

theorem set {w w' : World} (h : w'.schema = w.schema) :
    (set w' : Eval PUnit).KeepsTypesFrom w := h

theorem ite {p : Prop} [Decidable p] {x y : Eval α} (hx : x.KeepsTypes) (hy : y.KeepsTypes) :
    (if p then x else y).KeepsTypes := by
  split
  · exact hx
  · exact hy

theorem forM {f : α → Eval PUnit} (hf : ∀ a, (f a).KeepsTypes) (as : List α) :
    (as.forM f).KeepsTypes := by
  induction as with
  | nil => exact pure _
  | cons a as ih => exact bind (hf a) fun _ => ih

/-- Looking at the world leaves it as it is. -/
theorem compareValues (c : Comparator) (a b : Value) : (Eval.compareValues c a b).KeepsTypes :=
  get_bind fun _ => lift _ _

end Eval.KeepsTypes

/-! ## 2. Making and changing objects -/

namespace World

open Eval (KeepsTypes)

theorem storing_keepsTypes (id : ObjectId) (name : String) (v : Value) :
    KeepsTypes (modify fun w => w.store id name v) := .change fun _ => rfl

theorem storeInRecord_keepsTypes (o : Object) (id : ObjectId) (name : String) (v : Value) :
    (storeInRecord o id name v).KeepsTypes := by
  have hkeep := storing_keepsTypes id name v
  refine .get_bind fun w => ?_
  dsimp only
  split
  · exact hkeep w
  · exact KeepsTypes.ite (.fail _) (.ite hkeep (.fail _)) w
  · exact KeepsTypes.ite hkeep (.fail _) w

theorem writeWithin_keepsTypes (depth : Nat) (target : Value) (name : String) (v : Value) :
    (writeWithin depth target name v).KeepsTypes := by
  induction depth generalizing target name with
  | zero => exact .fail _
  | succ depth ih =>
    unfold writeWithin
    split
    · refine .get_bind fun w => ?_
      split
      · exact KeepsTypes.fail _ w
      · split
        · exact ih _ _ w
        · exact KeepsTypes.fail _ w
        · exact KeepsTypes.ite (storeInRecord_keepsTypes _ _ _ _) (storing_keepsTypes _ _ _) w
    · exact .fail _

theorem write_keepsTypes (target : Value) (name : String) (v : Value) :
    (write target name v).KeepsTypes := writeWithin_keepsTypes _ _ _ _

/-! ### Copies -/

/-- A copy under way that leaves the schema of the world alone. -/
def CopiesTypes (x : Copying α) : Prop := ∀ st, (x st).2.1.schema = st.1.schema

theorem CopiesTypes.bind {x : Copying α} {f : α → Copying β} (hx : CopiesTypes x)
    (hf : ∀ a, CopiesTypes (f a)) : CopiesTypes (x >>= f) := fun st => (hf _ _).trans (hx st)

theorem CopiesTypes.pure (a : α) : CopiesTypes (pure a) := fun _ => rfl

theorem CopiesTypes.get_bind {f : World × List (ObjectId × ObjectId) → Copying β}
    (hf : ∀ st, (f st st).2.1.schema = st.1.schema) : CopiesTypes (get >>= f) := hf

theorem CopiesTypes.mapM {f : α → Copying β} (hf : ∀ a, CopiesTypes (f a)) (as : List α) :
    CopiesTypes (as.mapM f) := by
  induction as with
  | nil =>
    rw [List.mapM_nil]
    exact .pure _
  | cons a as ih =>
    rw [List.mapM_cons]
    exact .bind (hf a) fun _ => .bind ih fun _ => .pure _

theorem CopiesTypes.forM {f : α → Copying PUnit} (hf : ∀ a, CopiesTypes (f a)) (as : List α) :
    CopiesTypes (as.forM f) := by
  induction as with
  | nil => exact .pure _
  | cons a as ih => exact .bind (hf a) fun _ => ih

theorem copyWithin_copiesTypes (depth : Nat) (v : Value) : CopiesTypes (copyWithin depth v) := by
  induction depth generalizing v with
  | zero => exact .pure _
  | succ depth ih =>
    unfold copyWithin
    split
    · exact .bind (.mapM ih _) fun _ => .pure _
    · exact .bind (.mapM ih _) fun _ => .pure _
    · exact .bind (.mapM ih _) fun _ => .pure _
    · exact .bind (.mapM (fun e => .bind (ih _) fun _ => .bind (ih _) fun _ => .pure _) _)
        fun _ => .pure _
    · rename_i id
      refine .get_bind fun st => ?_
      obtain ⟨w, copied⟩ := st
      dsimp only
      cases copied.lookup id with
      | some twin => rfl
      | none =>
        cases w.object? id with
        | none => rfl
        | some o =>
          have hfields : CopiesTypes (do
              o.fields.forM fun (e : String × Value) => do
                let y ← copyWithin depth e.2
                modify fun st => (st.1.store w.objects.length e.1 y, st.2)
              return Value.object w.objects.length : Copying Value) :=
            .bind (.forM (fun (e : String × Value) => .bind (ih e.2) fun _ _ => rfl) _) fun _ => .pure _
          exact hfields _
    · exact .pure _

theorem copy_keepsTypes (v : Value) : (copy v).KeepsTypes := by
  refine .get_bind fun w => ?_
  have hcopied := copyWithin_copiesTypes nestingLimit v (w, [])
  exact KeepsTypes.bindFrom (KeepsTypes.set hcopied) fun _ => .pure _

/-! ### New objects -/

theorem giveDefault_keepsTypes (t : TypeId) (id : ObjectId) (name : String) :
    (giveDefault t id name).KeepsTypes := by
  refine .get_bind fun w => ?_
  split
  · exact KeepsTypes.bind (copy_keepsTypes _) (fun _ => storing_keepsTypes _ _ _) w
  · exact KeepsTypes.pure _ w

theorem create_keepsTypes (t : TypeId) : (create t).KeepsTypes := by
  refine .get_bind fun w => ?_
  refine KeepsTypes.bindFrom (KeepsTypes.set rfl) fun _ => ?_
  exact .ite (.bind (.forM (giveDefault_keepsTypes t _) _) fun _ => .pure _) (.pure _)

theorem marked_keepsTypes (v : Value) : (marked v).KeepsTypes := by
  unfold marked
  split
  · exact .bind (.change fun _ => rfl) fun _ => .get_bind fun w => KeepsTypes.pure _ w
  · exact .bind (.change fun _ => rfl) fun _ => .get_bind fun w => KeepsTypes.pure _ w
  · exact .pure _

theorem typeNamed_keepsTypes (name : String) : (typeNamed name).KeepsTypes := by
  refine .get_bind fun w => ?_
  split
  · exact KeepsTypes.pure _ w
  · exact KeepsTypes.fail _ w

theorem requireHashable_keepsTypes (vs : List Value) : (requireHashable vs).KeepsTypes :=
  .get_bind fun w => KeepsTypes.ite (.fail _) (.pure _) w

end World

/-! ## 3. Documents and expressions -/

namespace Document

open Eval (KeepsTypes)

mutual

theorem value_keepsTypes (d : Document) : d.value.KeepsTypes := by
  cases d with
  | plain v => exact World.marked_keepsTypes v
  | list xs => exact .bind (values_keepsTypes xs) fun _ => .pure _
  | tuple xs => exact .bind (values_keepsTypes xs) fun _ => .pure _
  | set xs =>
    exact .bind (values_keepsTypes xs) fun _ => .bind (World.requireHashable_keepsTypes _) fun _ =>
      .get_bind fun w => KeepsTypes.pure _ w
  | dict es =>
    exact .bind (entries_keepsTypes es) fun _ => .bind (World.requireHashable_keepsTypes _) fun _ =>
      .get_bind fun w => KeepsTypes.pure _ w
  | record es => exact .bind (namedValues_keepsTypes es) fun _ => .pure _
  | enumMember t n d => exact .bind (value_keepsTypes d) fun _ => .pure _
  | type n => exact .bind (World.typeNamed_keepsTypes n) fun _ => .pure _
  | object t fields =>
    exact .bind (World.typeNamed_keepsTypes t) fun _ => .bind (World.create_keepsTypes _) fun _ =>
      .bind (setFields_keepsTypes _ fields) fun _ => .pure _
  | kept n =>
    refine .get_bind fun w => ?_
    split
    · exact KeepsTypes.pure _ w
    · exact KeepsTypes.fail _ w
  | malformed f => exact .fail f

theorem values_keepsTypes (ds : List Document) : (values ds).KeepsTypes := by
  cases ds with
  | nil => exact .pure _
  | cons d ds =>
    exact .bind (value_keepsTypes d) fun _ => .bind (values_keepsTypes ds) fun _ => .pure _

theorem entries_keepsTypes (es : List (Document × Document)) : (entries es).KeepsTypes := by
  cases es with
  | nil => exact .pure _
  | cons e es =>
    exact .bind (value_keepsTypes e.1) fun _ => .bind (value_keepsTypes e.2) fun _ =>
      .bind (entries_keepsTypes es) fun _ => .pure _

theorem namedValues_keepsTypes (es : List (String × Document)) : (namedValues es).KeepsTypes := by
  cases es with
  | nil => exact .pure _
  | cons e es =>
    exact .bind (value_keepsTypes e.2) fun _ => .bind (namedValues_keepsTypes es) fun _ => .pure _

theorem setFields_keepsTypes (target : Value) (es : List (String × Document)) :
    (setFields target es).KeepsTypes := by
  cases es with
  | nil => exact .pure _
  | cons e es =>
    exact .bind (value_keepsTypes e.2) fun _ => .bind (World.write_keepsTypes _ _ _) fun _ =>
      setFields_keepsTypes target es

end

end Document

namespace Expr

open Eval (KeepsTypes)

theorem convert_keepsTypes (onText : String → String) (onBytes : List UInt8 → List UInt8)
    (v : Value) : (Eval.convert onText onBytes v).KeepsTypes := by
  unfold Eval.convert
  split
  · exact .pure _
  · split
    · exact .pure _
    · exact .fail _

/-- An expression leaves the types alone if reading members does. -/
theorem evalWith_keepsTypes {read : Value → String → Eval Value}
    (hread : ∀ v name, (read v name).KeepsTypes) (s : Scope) (e : Expr) :
    (e.evalWith read s).KeepsTypes := by
  induction e with
  | subject | owner | memberName => exact .pure _
  | const d => exact d.value_keepsTypes
  | get e name ih => exact .bind ih fun _ => hread _ _
  | compare c a b iha ihb =>
    exact .bind iha fun _ => .bind ihb fun _ => .bind (.compareValues _ _ _) fun _ => .pure _
  | both a b iha ihb =>
    exact .bind iha fun _ => .ite (.bind ihb fun _ => .pure _) (.pure _)
  | oneOf a b iha ihb =>
    exact .bind iha fun _ => .ite (.pure _) (.bind ihb fun _ => .pure _)
  | negate e ih => exact .bind ih fun _ => .pure _
  | isNone e ih =>
    refine .bind ih fun v => ?_
    split <;> exact .pure _
  | size e ih =>
    refine .bind ih fun v => ?_
    split
    · exact .pure _
    · exact .fail _
  | add a b iha ihb => exact .bind iha fun _ => .bind ihb fun _ => .lift _
  | mul a b iha ihb => exact .bind iha fun _ => .bind ihb fun _ => .lift _
  | strip e ih => exact .bind ih fun _ => convert_keepsTypes _ _ _
  | upper e ih => exact .bind ih fun _ => convert_keepsTypes _ _ _
  | choose test yes no iht ihy ihn => exact .bind iht fun _ => .ite ihy ihn
  | trace label e ih => exact .bind (.change fun _ => rfl) fun _ => ih
  | raise t => exact .fail _

end Expr

namespace World

open Eval (KeepsTypes)

theorem readStored_keepsTypes {computed : Scope → Expr → Eval Value}
    (hcomputed : ∀ s e, (computed s e).KeepsTypes) (id : ObjectId) (name : String) :
    (readStored computed id name).KeepsTypes := by
  refine .get_bind fun w => ?_
  split
  · exact KeepsTypes.fail _ w
  · split
    · exact hcomputed _ _ w
    · exact KeepsTypes.pure _ w
    · exact KeepsTypes.bind (hcomputed _ _) (fun _ => .bind (storing_keepsTypes _ _ _) fun _ =>
        .pure _) w
    · exact KeepsTypes.pure _ w
    · exact KeepsTypes.pure _ w
    · exact KeepsTypes.pure _ w
    · exact KeepsTypes.pure _ w
    · split
      · exact KeepsTypes.pure _ w
      · exact KeepsTypes.fail _ w

theorem readWithin_keepsTypes (depth : Nat) (v : Value) (name : String) :
    (readWithin depth v name).KeepsTypes := by
  induction depth generalizing v name with
  | zero => exact .fail _
  | succ depth ih =>
    unfold readWithin
    split
    · exact readStored_keepsTypes (fun s e => e.evalWith_keepsTypes ih s) _ _
    · refine .get_bind fun w => ?_
      split
      · exact KeepsTypes.pure _ w
      · exact KeepsTypes.fail _ w

theorem read_keepsTypes (v : Value) (name : String) : (read v name).KeepsTypes :=
  readWithin_keepsTypes _ _ _

end World

theorem Expr.eval_keepsTypes (s : Scope) (e : Expr) : (e.eval s).KeepsTypes :=
  e.evalWith_keepsTypes World.read_keepsTypes s

open Eval (KeepsTypes)

theorem World.call_keepsTypes (v : Value) : (World.call v).KeepsTypes := by
  unfold World.call
  split
  · refine .get_bind fun w => ?_
    split
    · exact Expr.eval_keepsTypes _ _ w
    · exact Expr.eval_keepsTypes _ _ w
    · exact KeepsTypes.fail _ w
  · exact .fail _

theorem MemberRef.read_keepsTypes (m : MemberRef) (object : Value) : (m.read object).KeepsTypes := by
  refine .bind (World.read_keepsTypes _ _) fun v => ?_
  split
  · exact World.call_keepsTypes v
  · exact .pure v

theorem MemberRef.write_keepsTypes (m : MemberRef) (object v : Value) :
    (m.write object v).KeepsTypes :=
  .get_bind fun w => KeepsTypes.ite (.bind (.fail _) fun _ => World.write_keepsTypes _ _ _)
    (World.write_keepsTypes _ _ _) w

/-! ## 4. Gates and checks -/

theorem AsyncPredicate.eval_keepsTypes (d : Drive) (s : Scope) (p : AsyncPredicate) :
    (p.eval d s).KeepsTypes := .bind (.lift _) fun _ => Expr.eval_keepsTypes _ _

theorem Condition.eval_keepsTypes (object : Value) (c : Condition) :
    (c.eval object).KeepsTypes := by
  induction c with
  | test e => exact e.eval_keepsTypes _
  | never => exact .pure _
  | both a b iha ihb => exact .bind iha fun _ => .ite (.bind ihb fun _ => .pure _) (.pure _)
  | negate c ih => exact .bind ih fun _ => .pure _

theorem AsyncCondition.eval_keepsTypes (d : Drive) (object : Value) (c : AsyncCondition) :
    (c.eval d object).KeepsTypes := by
  induction c with
  | test p => exact p.eval_keepsTypes d _
  | plain c => exact c.eval_keepsTypes object
  | always => exact .pure _
  | both outer inner iho ihi => exact .bind iho fun _ => .ite (.bind ihi fun _ => .pure _) (.pure _)
  | negate c ih => exact .bind ih fun _ => .pure _

/-- **Asking whether a gate is open** declares no types. -/
theorem Gate.isOpen_keepsTypes (d : Drive) (g : Gate) (object : Value) :
    (g.isOpen d object).KeepsTypes := by
  unfold Gate.isOpen
  split
  · exact .bind (AsyncCondition.eval_keepsTypes _ _ _) fun _ => .pure _
  · exact .bind (Condition.eval_keepsTypes _ _) fun _ => .pure _
  · exact .pure _

namespace Check

theorem holds_keepsTypes (c : Comparator) (a b : Value) : (holds c a b).KeepsTypes := by
  refine .get_bind fun w => ?_
  split
  · exact KeepsTypes.pure _ w
  · exact KeepsTypes.pure _ w
  · exact KeepsTypes.fail _ w

theorem sizeBetween_keepsTypes (min max : Option Value) (n : Nat) :
    (sizeBetween min max n).KeepsTypes := by
  unfold sizeBetween
  rcases min with _ | m <;> rcases max with _ | m'
  · exact .bind (.pure _) fun _ => .ite (.pure _) (.pure _)
  · exact .bind (.pure _) fun _ => .ite (.pure _) (.compareValues _ _ _)
  · exact .bind (.compareValues _ _ _) fun _ => .ite (.pure _) (.pure _)
  · exact .bind (.compareValues _ _ _) fun _ => .ite (.pure _) (.compareValues _ _ _)

theorem hasSize_keepsTypes (min max : Option Value) (v : Value) :
    (hasSize min max v).KeepsTypes := by
  unfold hasSize
  split
  · exact .pure _
  · split
    · exact sizeBetween_keepsTypes _ _ _
    · exact .pure _

theorem inBounds_keepsTypes (min max v : Value) : (inBounds min max v).KeepsTypes := by
  unfold inBounds
  split
  · exact .pure _
  · split
    · split
      · exact .bind (.pure _) fun _ => .ite (.pure _) (.pure _)
      · exact .bind (holds_keepsTypes _ _ _) fun _ => .ite (.pure _) (.pure _)
    · split
      · exact .bind (.pure _) fun _ => .ite (.pure _) (holds_keepsTypes _ _ _)
      · exact .bind (holds_keepsTypes _ _ _) fun _ => .ite (.pure _) (holds_keepsTypes _ _ _)

/-- **A check** declares no types, if answering the predicates that may wait does not. -/
theorem accepts_keepsTypes {await : AsyncPredicate → Eval Value}
    (hawait : ∀ p, (await p).KeepsTypes) (v : Value) (c : Check) :
    (c.accepts await v).KeepsTypes := by
  cases c with
  | required | notEmpty | empty | pattern | email | url | phone | childRules | validateWith
  | validateEach => exact .pure _
  | stringLength max min =>
    simp only [accepts]
    split
    · exact .pure _
    · split
      · exact sizeBetween_keepsTypes _ _ _
      · exact .pure _
  | minLength n => exact hasSize_keepsTypes _ _ _
  | maxLength n => exact hasSize_keepsTypes _ _ _
  | length min max => exact hasSize_keepsTypes _ _ _
  | exactLength n =>
    simp only [accepts]
    split
    · exact .pure _
    · split <;> exact .compareValues _ _ _
  | range min max => exact inBounds_keepsTypes _ _ _
  | minimum m => exact inBounds_keepsTypes _ _ _
  | maximum m => exact inBounds_keepsTypes _ _ _
  | compare other c => exact .fail _
  | equal e => exact .compareValues _ _ _
  | notEqual e => exact .compareValues _ _ _
  | must e => exact .bind (e.eval_keepsTypes _) fun _ => .pure _
  | mustAsync p => exact .bind (hawait p) fun _ => .pure _
  | custom kind template code isAsync e => exact .bind (e.eval_keepsTypes _) fun _ => .pure _

theorem compareMembers_keepsTypes (other : String) (c : Comparator) (v owner : Value) :
    (compareMembers other c v owner).KeepsTypes :=
  .get_bind fun w => KeepsTypes.ite (.pure _) (.bind (World.read_keepsTypes _ _) fun _ =>
    .bind (holds_keepsTypes _ _ _) fun _ => .pure _) w

theorem runWith_keepsTypes (d : Drive) (v owner : Value) (c : Check) :
    (c.runWith d v owner).KeepsTypes := by
  unfold runWith
  split
  · exact compareMembers_keepsTypes _ _ _ _
  · exact .bind (accepts_keepsTypes (fun p => p.eval_keepsTypes d _) v _) fun _ => .pure _

end Check
end MemberRules
