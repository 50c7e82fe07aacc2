/-
# What evaluations change of objects

An evaluation may make new objects, and what it does to the objects that are there is either nothing
or comes from a write or a member that is computed once. Writing a member that ends well is one
write: a value is stored in one object, under the name of the member or the one that its setters
pass the value to.

* `World.Kept`: a world in which the objects of another one are as they were.
* `Eval.Quiet`: an evaluation that changes no object; `World.read_quiet`: reading a stored member is
  one.
* `World.after`: the world after several writes.
* `MemberRef.write_eq_ok`: writing a member is one write.
-/
import MemberRules.Proofs.Computation

namespace MemberRules

open MemberRules.Computation

variable {α : Type}

/-! ## 1. Evaluations without effects -/

/-- A world in which the objects of another one are as they were; there may be new ones. -/
structure World.Kept (w w' : World) : Prop where
  schema : w'.schema = w.schema
  objects : ∀ id o, w.object? id = some o → w'.object? id = some o

namespace World

variable {w w₁ w' : World} {id : ObjectId} {name : String} {v : Value}

theorem Kept.refl (w : World) : w.Kept w := ⟨rfl, fun _ _ h => h⟩

theorem Kept.trans (h : w.Kept w₁) (h' : w₁.Kept w') : w.Kept w' :=
  ⟨h'.schema.trans h.schema, fun id o ho => h'.objects id o (h.objects id o ho)⟩

/-- The same write keeps what was kept. -/
theorem Kept.store (h : w.Kept w') (id : ObjectId) (name : String) (v : Value) :
    (w.store id name v).Kept (w'.store id name v) := by
  refine ⟨h.schema, fun i o ho => ?_⟩
  unfold object? World.store at ho ⊢
  rw [List.getElem?_modify] at ho ⊢
  obtain ⟨o₀, ho₀, rfl⟩ := Option.map_eq_some_iff.mp ho
  exact Option.map_eq_some_iff.mpr ⟨o₀, h.objects i o₀ ho₀, rfl⟩

end World

/-- An evaluation that changes no object of a world. -/
def Eval.QuietFrom (x : Eval α) (w : World) : Prop := w.Kept (x w).2

/-- An evaluation that changes no object, in all worlds of a schema. -/
def Eval.Quiet (s : Schema) (x : Eval α) : Prop := ∀ w : World, w.schema = s → x.QuietFrom w

/-- An evaluation that has ended has changed no object. -/
theorem Eval.Quiet.kept {s : Schema} {x : Eval α} {a : α} {w w' : World} (hx : Eval.Quiet s x)
    (hw : w.schema = s) (h : x w = (.ok a, w')) : w.Kept w' := by
  have hkept := hx w hw
  unfold Eval.QuietFrom at hkept
  rwa [h] at hkept

/-- A member that no type computes is read without changing an object. -/
theorem World.read_quiet {s : Schema} {name : String}
    (hproperty : ∀ t getter h setter, s.defined? t name ≠ some (.property getter h setter))
    (hcached : ∀ t getter, s.defined? t name ≠ some (.cached getter)) (v : Value) :
    Eval.Quiet s (World.read v name) := by
  obtain ⟨depth, hdepth⟩ : ∃ depth, nestingLimit = depth + 1 := ⟨_, rfl⟩
  have hpure : ∀ (x : Value) w, (pure x : Eval Value).QuietFrom w := fun x w => .refl w
  have hfail : ∀ f w, (Eval.fail f : Eval Value).QuietFrom w := fun f w => .refl w
  have hget : ∀ (f : World → Eval Value) w, (f w).QuietFrom w → (get >>= f).QuietFrom w := by
    intro f w h
    unfold Eval.QuietFrom
    rwa [bind_ok (get_apply w)]
  rintro w rfl
  unfold World.read
  rw [hdepth]
  unfold readWithin
  split
  · refine hget _ w ?_
    split
    · exact hfail _ w
    · split
      · exact absurd ‹_› (hproperty _ _ _ _)
      · exact hpure _ w
      · exact absurd ‹_› (hcached _ _)
      · exact hpure _ w
      · exact hpure _ w
      · exact hpure _ w
      · exact hpure _ w
      · split
        · exact hpure _ w
        · exact hfail _ w
  · refine hget _ w ?_
    split
    · exact hpure _ w
    · exact hfail _ w

/-- So is a field. -/
theorem MemberRef.read_quiet {s : Schema} {m : MemberRef} (hkind : m.kind = .field) {owner : Value}
    (h : Eval.Quiet s (World.read owner m.name)) : Eval.Quiet s (m.read owner) := by
  intro w hw
  unfold MemberRef.read Eval.QuietFrom
  rw [hkind, bind_apply]
  have hkept : w.Kept (World.read owner m.name w).2 := h w hw
  rcases hread : World.read owner m.name w with ⟨f | v, w₁⟩ <;> rw [hread] at hkept <;> exact hkept

/-! ## 2. Writing a member -/

/-- A value stored under a name of an object. -/
structure Write where
  id : ObjectId
  name : String
  value : Value

/-- The world after several writes. -/
def World.after (w : World) (ws : List Write) : World :=
  ws.foldl (fun w x => w.store x.id x.name x.value) w

/-- A member of a type, and the one under which a value written to it is stored: setters pass it
on. -/
inductive Schema.PassesTo (s : Schema) (t : TypeId) : String → String → Prop
  | self (name : String) : PassesTo s t name name
  | setter {name other last : String} {getter : Expr} {h : Option Hint} :
      s.defined? t name = some (.property getter h (some other)) → PassesTo s t other last →
      PassesTo s t name last

namespace World

variable {w w₁ w' : World} {v target : Value} {name : String} {s : Schema} {ws : List Write}

theorem schema_after (w : World) (ws : List Write) : (w.after ws).schema = w.schema := by
  induction ws generalizing w with
  | nil => rfl
  | cons x ws ih => exact ih (w.store x.id x.name x.value)

theorem Kept.after (h : w.Kept w') (ws : List Write) : (w.after ws).Kept (w'.after ws) := by
  induction ws generalizing w w' with
  | nil => exact h
  | cons x ws ih => exact ih (h.store x.id x.name x.value)

/-- An evaluation that leaves a world with a property, if it ends well. -/
def LeavesFrom (w : World) (x : Eval Unit) (P : World → Prop) : Prop :=
  ∀ w', x w = (.ok (), w') → P w'

theorem LeavesFrom.get_bind {f : World → Eval Unit} {P : World → Prop}
    (h : w.LeavesFrom (f w) P) : w.LeavesFrom (get >>= f) P := fun w' hend => by
  rw [bind_ok (get_apply w)] at hend
  exact h w' hend

theorem LeavesFrom.fail {P : World → Prop} (f : Fault) : w.LeavesFrom (Eval.fail f) P := by
  rintro w' ⟨⟩

theorem LeavesFrom.store {P : World → Prop} {id : ObjectId} (h : P (w.store id name v)) :
    w.LeavesFrom (modify fun w => w.store id name v) P := by
  rintro w' ⟨⟩
  exact h

theorem leavesFrom_storeInRecord {o : Object} {id : ObjectId} {P : World → Prop}
    (h : P (w.store id name v)) : w.LeavesFrom (storeInRecord o id name v) P := by
  refine .get_bind ?_
  dsimp only
  split
  · exact .store h
  · split
    · exact .fail _
    · split
      · exact .store h
      · exact .fail _
  · split
    · exact .store h
    · exact .fail _

/-- A write that ends well stores one value under one name of the object. -/
theorem leavesFrom_writeWithin (depth : Nat) (target : Value) (name : String) (v : Value) :
    w.LeavesFrom (writeWithin depth target name v) fun w' =>
      ∃ id o last, target = .object id ∧ w.object? id = some o ∧
        w.schema.PassesTo o.type name last ∧ w' = w.store id last v := by
  induction depth generalizing name with
  | zero => exact .fail _
  | succ depth ih =>
    unfold writeWithin
    split
    · rename_i id
      refine .get_bind ?_
      split
      · exact .fail _
      · rename_i o ho
        split
        · rename_i other hother
          intro w' h
          obtain ⟨_, o', last, ⟨⟩, ho', hpasses, hstore⟩ := ih other w' h
          obtain rfl := Option.some.inj (ho.symm.trans ho')
          exact ⟨id, o, last, rfl, ho, .setter hother hpasses, hstore⟩
        · exact .fail _
        · have hself : ∃ i o' last, Value.object id = .object i ∧ w.object? i = some o' ∧
              w.schema.PassesTo o'.type name last ∧ w.store id name v = w.store i last v :=
            ⟨id, o, name, rfl, ho, .self name, rfl⟩
          split
          · exact leavesFrom_storeInRecord hself
          · exact .store hself
    · exact .fail _

end World

/-- Writing a member that ends well is one write. -/
theorem MemberRef.write_eq_ok {m : MemberRef} {owner v : Value} {w w' : World}
    (h : m.write owner v w = (.ok (), w')) :
    ∃ id o last, owner = .object id ∧ w.object? id = some o ∧
      w.schema.PassesTo o.type m.name last ∧ w' = w.after [⟨id, last, v⟩] := by
  have hleaves : w.LeavesFrom (m.write owner v) fun w' => ∃ id o last, owner = .object id ∧
      w.object? id = some o ∧ w.schema.PassesTo o.type m.name last ∧
        w' = w.after [⟨id, last, v⟩] := by
    refine .get_bind ?_
    split
    · rintro w' ⟨⟩
    · exact World.leavesFrom_writeWithin _ owner m.name v
  exact hleaves w' h

end MemberRules
