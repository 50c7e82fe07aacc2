/-
# Comparisons with another member

The comparison of a value with another member of its object looks for the member along the line of
the object's type, reads it from the object, and compares.  Three things may be wrong: there is no
such member, the two values have no common order, or the object has no value for the member.  The
first two are failures of the check.  The third is not: a field that is announced without a value,
and not set, is a member, and reading it is a fault.  So is comparing what is not a number with a
decimal by order.

* `World.read_field`: what is read under the name of a plain field.
* `Value.ordered_invalid`: where a comparison by order can be invalid.
* `comparison_decided_iff`: when the comparison comes to an outcome, and to which.
-/
import Mathlib.Data.Fintype.EquivFin
import MemberRules.Proofs.Computation

namespace MemberRules

open MemberRules.Computation

/-! ## 1. Plain fields -/

namespace Schema

/-- All members of a type and of its bases are fields. -/
def HasPlainFields (s : Schema) (t : TypeId) : Prop :=
  ∀ d ∈ s.lineOf t, ∀ m ∈ d.members, ∃ h default title other, m.body = .field h default title other

/-- The value that a type gives to a field of objects that do not set it. -/
def fieldValue? (s : Schema) (t : TypeId) (name : String) : Option Value :=
  match s.defined? t name with
  | some (.field _ default _ _) => default
  | _ => none

/-- With fields only, what a type defines under a name is a field with a value. -/
theorem HasPlainFields.defined? {s : Schema} {t : TypeId} {name : String} {b : MemberBody}
    (h : s.HasPlainFields t) (hb : s.defined? t name = some b) :
    ∃ hint v title other, b = .field hint (some v) title other := by
  obtain ⟨before, d, after, hline, hd, -⟩ := List.findSome?_eq_some_iff.mp hb
  obtain ⟨m, hm, rfl⟩ := Option.map_eq_some_iff.mp hd
  have hmem : m ∈ d.members := List.mem_reverse.mp (List.mem_of_find?_eq_some hm)
  have hdefines := List.find?_some hm
  obtain ⟨hint, default, title, other, hbody⟩ :=
    h d (by rw [hline]; exact List.mem_append_right _ List.mem_cons_self) m hmem
  rw [hbody] at hdefines ⊢
  cases default with
  | none => simp [TypeDecl.isDefinition] at hdefines
  | some v => exact ⟨hint, v, title, other, rfl⟩

end Schema

namespace World

variable {w : World} {id : ObjectId} {o : Object} {name : String}

/-- The value of a field: the stored one, or the one that the type gives, or what stands under the
name for every object of the type. -/
def fieldOf? (s : Schema) (o : Object) (id : ObjectId) (name : String) : Option Value :=
  (o.fields.lookup name).or ((s.fieldValue? o.type name).or (standing? s o id name))

/-- **Reading a field** gives its value and has no effect; without a value it is a fault. -/
theorem read_field (ho : w.object? id = some o) (hplain : w.schema.HasPlainFields o.type) :
    World.read (.object id) name w =
      (match fieldOf? w.schema o id name with
        | some v => .ok v
        | none => .error .noAttribute, w) := by
  obtain ⟨depth, hdepth⟩ : ∃ depth, nestingLimit = depth + 1 := ⟨_, rfl⟩
  unfold World.read
  rw [hdepth]
  unfold readWithin readStored fieldOf? Schema.fieldValue?
  dsimp only
  rw [bind_ok (get_apply w), ho]
  dsimp only
  cases hdefined : w.schema.defined? o.type name with
  | some b =>
    obtain ⟨hint, v, title, other, rfl⟩ := hplain.defined? hdefined
    cases o.fields.lookup name <;> rfl
  | none =>
    cases o.fields.lookup name with
    | some v => rfl
    | none =>
      dsimp only
      cases standing? w.schema o id name <;> rfl

end World

/-! ## 2. Comparisons that are invalid -/

namespace Value

variable {so : ObjectId → ObjectId → Bool} {c : Comparator} {a b : Value} {xs ys : List Value}
  {f : Fault}

/-- A value, and what lists and tuples in it hold. -/
inductive Part : Value → Value → Prop
  | self (a : Value) : Part a a
  | list {x y : Value} {xs : List Value} (hx : x ∈ xs) (h : Part y x) : Part y (.list xs)
  | tuple {x y : Value} {xs : List Value} (hx : x ∈ xs) (h : Part y x) : Part y (.tuple xs)

/-- Two numbers without an order of which one is a decimal. -/
def Clashes (a b : Value) : Prop :=
  ∃ x y, a.number? = some x ∧ b.number? = some y ∧ x.compare? y = Option.none ∧
    (a.isDecimal || b.isDecimal) = true

/-- Why a comparison by order fails: the kinds have no common order, or numbers in the values
clash. -/
inductive Fails (a b : Value) : Fault → Prop
  | kinds : Fails a b .wrongType
  | numbers {x y : Value} (hx : Part x a) (hy : Part y b) (h : Clashes x y) :
      Fails a b .invalidOperation

/-- Induction over the parts of a value. -/
theorem parts_induction {P : Value → Prop} (h : ∀ a, (∀ x ∈ a.elements, P x) → P a) (a : Value) :
    P a := by
  refine h a fun x hx => ?_
  have : sizeOf x < sizeOf a := by
    cases a with
    | list xs | tuple xs | set xs =>
      have := List.sizeOf_lt_of_mem (show x ∈ xs from hx)
      simp only [list.sizeOf_spec, tuple.sizeOf_spec, set.sizeOf_spec]
      omega
    | dict es =>
      obtain ⟨e, he, rfl⟩ := List.mem_map.mp hx
      have := List.sizeOf_lt_of_mem he
      obtain ⟨k, v⟩ := e
      simp only [dict.sizeOf_spec, Prod.mk.sizeOf_spec] at this ⊢
      omega
    | _ => cases hx
  exact parts_induction h x
termination_by sizeOf a

theorem orderedAtoms_fails (h : orderedAtoms c a b = .error f) : Fails a b f := by
  unfold orderedAtoms at h
  split at h
  · cases h
  · cases h
  · cases h
  · cases h
  · split at h
    · cases h
    · split at h
      · rename_i x y hx hy
        unfold orderedNumbers at h
        split at h
        · cases h
        · rename_i hxy
          split at h
          · rename_i hdecimal
            cases h
            exact .numbers (.self a) (.self b) ⟨x, y, hx, hy, hxy, hdecimal⟩
          · cases h
      · cases h
        exact .kinds

/-- Sequences fail to compare as the parts do at the first place where they differ. -/
theorem orderedAll_fails (ih : ∀ x ∈ xs, ∀ y f, ordered so c x y = .error f → Fails x y f)
    (h : orderedAll so c xs ys = .error f) : ∃ x ∈ xs, ∃ y ∈ ys, Fails x y f := by
  induction xs generalizing ys with
  | nil => cases h
  | cons x xs ihxs =>
    cases ys with
    | nil => cases h
    | cons y ys =>
      rw [orderedAll] at h
      split at h
      · obtain ⟨x', hx', y', hy', hfails⟩ := ihxs (fun x hx => ih x (List.mem_cons_of_mem _ hx)) h
        exact ⟨x', List.mem_cons_of_mem _ hx', y', List.mem_cons_of_mem _ hy', hfails⟩
      · exact ⟨x, List.mem_cons_self, y, List.mem_cons_self, ih x List.mem_cons_self y f h⟩

/-- **Why a comparison by order fails.** -/
theorem ordered_fails (a b : Value) (f : Fault) (h : ordered so c a b = .error f) :
    Fails a b f := by
  induction a using parts_induction generalizing b f with
  | h a ih =>
    cases a with
    | list xs =>
      cases b with
      | list ys =>
        obtain ⟨x, hx, y, hy, hfails⟩ := orderedAll_fails ih h
        cases hfails with
        | kinds => exact .kinds
        | numbers hx' hy' hclash => exact .numbers (.list hx hx') (.list hy hy') hclash
      | _ =>
        cases h
        exact .kinds
    | tuple xs =>
      cases b with
      | tuple ys =>
        obtain ⟨x, hx, y, hy, hfails⟩ := orderedAll_fails ih h
        cases hfails with
        | kinds => exact .kinds
        | numbers hx' hy' hclash => exact .numbers (.tuple hx hx') (.tuple hy hy') hclash
      | _ =>
        cases h
        exact .kinds
    | set xs =>
      cases b with
      | set ys => cases h
      | _ =>
        cases h
        exact .kinds
    | _ => exact orderedAtoms_fails (c := c) h

theorem compareBy_fails (h : compareBy so c a b = .error f) : Fails a b f := by
  cases c with
  | equal | notEqual => cases h
  | _ => exact ordered_fails a b f h

end Value

/-! ## 3. The check -/

namespace Check

variable {w : World} {id : ObjectId} {o : Object} {other : String}

/-- A comparison of two values in the world. -/
theorem holds_apply (c : Comparator) (v x : Value) (w : World) :
    holds c v x w = (match Value.compareBy w.sameObject c v x with
      | .ok passed => .ok passed
      | .error .wrongType => .ok false
      | .error f => .error f, w) := by
  unfold holds
  rw [bind_ok (get_apply w)]
  split <;> simp_all <;> rfl

theorem typeOf_object (ho : w.object? id = some o) : w.typeOf (.object id) = o.type := by
  unfold World.typeOf
  dsimp only
  rw [ho]

/-- The check of an object without the other member. -/
theorem compareMembers_unknown (ho : w.object? id = some o)
    (h : w.schema.hasMember o.type other = false) (c : Comparator) (v : Value) :
    ∃ message, compareMembers other c v (.object id) w = (.ok ⟨false, some message⟩, w) := by
  unfold compareMembers
  rw [bind_ok (get_apply w), typeOf_object ho, h]
  exact ⟨_, rfl⟩

/-- The check of an object with the other member. -/
theorem compareMembers_known (ho : w.object? id = some o)
    (h : w.schema.hasMember o.type other = true) (c : Comparator) (v : Value) :
    compareMembers other c v (.object id) w =
      (do return ⟨← holds c v (← World.read (.object id) other), none⟩ : Eval Outcome) w := by
  unfold compareMembers
  rw [bind_ok (get_apply w), typeOf_object ho, h]
  rfl

end Check

/-- **When a comparison with another member comes to an outcome, and to which.**  For an object with
plain fields it has no effect.  There is an outcome if the object has no such member, or has a value
for it which can be compared; the value passes if there is one and the comparison holds. -/
theorem comparison_decided_iff {w : World} {id : ObjectId} {o : Object} (ho : w.object? id = some o)
    (hplain : w.schema.HasPlainFields o.type) (other : String) (c : Comparator) (d : Drive) (v : Value) :
    ∃ r, (Check.compare other c).runWith d v (.object id) w = (r, w) ∧
      ((∃ outcome, r = .ok outcome) ↔ (w.schema.hasMember o.type other = true →
        ∃ x, World.fieldOf? w.schema o id other = some x ∧
          Value.compareBy w.sameObject c v x ≠ .error .invalidOperation)) ∧
      (∀ outcome, r = .ok outcome →
        (outcome.passed = true ↔ w.schema.hasMember o.type other = true ∧
          ∃ x, World.fieldOf? w.schema o id other = some x ∧
            Value.compareBy w.sameObject c v x = .ok true)) := by
  show ∃ r, Check.compareMembers other c v (.object id) w = (r, w) ∧ _
  cases hmember : w.schema.hasMember o.type other with
  | false =>
    obtain ⟨message, heq⟩ := Check.compareMembers_unknown ho hmember c v
    refine ⟨_, heq, by simp, ?_⟩
    rintro outcome ⟨⟩
    simp
  | true =>
    rw [Check.compareMembers_known ho hmember]
    cases hvalue : World.fieldOf? w.schema o id other with
    | none =>
      have hread : World.read (.object id) other w = (.error .noAttribute, w) := by
        rw [World.read_field ho hplain, hvalue]
      rw [bind_error hread]
      exact ⟨_, rfl, by simp, by simp⟩
    | some x =>
      have hread : World.read (.object id) other w = (.ok x, w) := by
        rw [World.read_field ho hplain, hvalue]
      rw [bind_ok hread]
      have hholds := Check.holds_apply c v x w
      cases hcompare : Value.compareBy w.sameObject c v x with
      | ok passed =>
        rw [hcompare] at hholds
        rw [bind_ok hholds]
        refine ⟨_, rfl, by simp [hcompare], ?_⟩
        rintro outcome ⟨⟩
        simp [hcompare]
      | error f =>
        have hfails := Value.compareBy_fails hcompare
        rw [hcompare] at hholds
        cases hfails with
        | kinds =>
          rw [bind_ok hholds]
          refine ⟨_, rfl, by simp [hcompare], ?_⟩
          rintro outcome ⟨⟩
          simp [hcompare]
        | numbers =>
          rw [bind_error hholds]
          exact ⟨_, rfl, by simp [hcompare], by simp⟩

/-- A type with one field, to which it gives no value. -/
def account (field : String) : TypeDecl where
  name := "Account"
  members := [⟨field, .field (.type (.builtin .text)) none none none⟩]
  line := [.declared "Account"]

/-- An object of the type with the given fields set. -/
def accountWith (field : String) (fields : List (String × Value)) : World where
  schema := ⟨[account field]⟩
  objects := [⟨.declared "Account", fields⟩]

theorem account_plain (field : String) (fields : List (String × Value)) :
    (accountWith field fields).schema.HasPlainFields (.declared "Account") := by
  have hline : (accountWith field fields).schema.lineOf (.declared "Account") = [account field] :=
    rfl
  intro d hd m hm
  rw [hline, List.mem_singleton] at hd
  subst hd
  simp only [account, List.mem_singleton] at hm
  subst hm
  exact ⟨_, _, _, _, rfl⟩

theorem account_declares (field : String) : (account field).declares field = true := by
  simp [account, TypeDecl.declares, TypeDecl.announced?]

theorem account_hasMember (field : String) (fields : List (String × Value)) :
    (accountWith field fields).schema.hasMember (.declared "Account") field = true := by
  have hholds : (accountWith field fields).schema.holds (.declared "Account") field =
      (account field).holds field := rfl
  have hline : (accountWith field fields).schema.lineIds (.declared "Account") =
      [.declared "Account"] := rfl
  simp [Schema.hasMember, Schema.declaring?, hline, hholds, TypeDecl.holds, account_declares]

/-- A comparison with a password that is set. -/
theorem comparison_decided_iff_account :
    (accountWith "password" [("password", .text "x")]).object? 0 =
        some ⟨.declared "Account", [("password", .text "x")]⟩ ∧
      (accountWith "password" [("password", .text "x")]).schema.HasPlainFields
        (.declared "Account") ∧
      ∃ outcome, ((Check.compare "password" .equal).runWith .immediate (.text "x") (.object 0)
        (accountWith "password" [("password", .text "x")])).1 = .ok outcome ∧
          outcome.passed = true := by
  have hplain := account_plain "password" [("password", .text "x")]
  obtain ⟨r, hrun, hdecided, hpassed⟩ :=
    @comparison_decided_iff (accountWith "password" [("password", .text "x")]) 0 _ rfl hplain
      "password" .equal .immediate (.text "x")
  have hvalue : World.fieldOf? (accountWith "password" [("password", .text "x")]).schema
      ⟨.declared "Account", [("password", .text "x")]⟩ 0 "password" = some (.text "x") := rfl
  have hequal : Value.compareBy (accountWith "password" [("password", .text "x")]).sameObject .equal
      (.text "x") (.text "x") = .ok true := rfl
  obtain ⟨outcome, rfl⟩ := hdecided.mpr fun _ => ⟨_, hvalue, by simp [hequal]⟩
  exact ⟨rfl, hplain, outcome, by rw [hrun],
    (hpassed outcome rfl).mpr ⟨account_hasMember _ _, _, hvalue, hequal⟩⟩

theorem account_comesWith {field : String} (h : field ∉ BuiltinType.object.ownNames)
    (fields : List (String × Value)) :
    (accountWith field fields).schema.comesWith (.declared "Account") field = false := by
  have hline : (accountWith field fields).schema.lineIds (.declared "Account") =
      [.declared "Account"] := rfl
  have hfind : (accountWith field fields).schema.find? "Account" = some (account field) := rfl
  simp [Schema.comesWith, hline, hfind, account_declares, BuiltinType.holds, h]

/-- There is a name that not every object holds. -/
theorem exists_own_name : ∃ name, name ∉ BuiltinType.object.ownNames := by
  obtain ⟨name, hname⟩ := Infinite.exists_notMem_finset BuiltinType.object.ownNames.toFinset
  exact ⟨name, by simpa using hname⟩

/-- **Not every comparison comes to an outcome**: the other member may be a field that is not
set. -/
theorem not_comparison_decided :
    ¬ ∀ (w : World) (id : ObjectId) (o : Object) (other : String) (c : Comparator) (d : Drive)
        (v : Value), w.object? id = some o → w.schema.HasPlainFields o.type →
        ∃ outcome, ((Check.compare other c).runWith d v (.object id) w).1 = .ok outcome := by
  intro h
  obtain ⟨field, hfield⟩ := exists_own_name
  have hplain := account_plain field []
  obtain ⟨outcome, houtcome⟩ :=
    h (accountWith field []) 0 _ field .equal .immediate (.text "x") rfl hplain
  have hdefined : (accountWith field []).schema.defined? (.declared "Account") field = none := by
    have hline : (accountWith field []).schema.lineOf (.declared "Account") = [account field] := rfl
    simp [Schema.defined?, hline, TypeDecl.defined?, account, TypeDecl.isDefinition]
  have hvalue : World.fieldOf? (accountWith field []).schema ⟨.declared "Account", []⟩ 0 field =
      none := by
    simp [World.fieldOf?, Schema.fieldValue?, hdefined, World.standing?, account_comesWith hfield]
  have hread : World.read (.object 0) field (accountWith field []) =
      (.error .noAttribute, accountWith field []) := by
    rw [World.read_field (o := ⟨.declared "Account", []⟩) rfl hplain, hvalue]
  have hrun : (Check.compare field .equal).runWith .immediate (.text "x") (.object 0)
      (accountWith field []) = (.error .noAttribute, accountWith field []) :=
    (Check.compareMembers_known rfl (account_hasMember _ _) .equal (.text "x")).trans
      (bind_error hread)
  rw [hrun] at houtcome
  cases houtcome

end MemberRules
