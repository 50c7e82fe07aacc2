/-
# What a validation writes

A validation reads the members of an object, asks the gates of their rules and runs their checks. If
none of this has effects of its own, the only thing that it writes are the values that value
providers give: on each visit of an object, one for each member with a provider and a check, and it
is this value that all rules of the member are applied to. Everything else stays as it was, also
where the same object is visited several times, and where later members and nested values read what
has been written before.

* `RuleGroup.IsQuiet`: a member and rules without effects, apart from what their providers may do.
* `VisitsObject`: how a validation goes through an object, with the members that it visits.
* `VisitsObject.leaves`: what is left of the objects afterwards.
* `validation_writes_provided`: a validation that ends goes through its object in this way.
-/
import MemberRules.Proofs.Model.Writes
import MemberRules.Proofs.Validation.Order
import MemberRules.Proofs.Validation.Task

namespace MemberRules

open MemberRules.Computation

variable {α : Type}

/-! ## 1. How a validation goes through an object -/

/-- The value provider of a member: that of the first rule with one. -/
def RuleGroup.provider? (g : RuleGroup) : Option Expr := g.rules.findSome? Rule.provider

/-- A member of an object as a validation visits it: its rules, the value that is read, and the one
that the rules are applied to. -/
structure MemberVisit where
  owner : Value
  group : RuleGroup
  found : Value
  used : Value

/-- What a validation works on. -/
structure Stage where
  world : World
  registry : Registry

/-- The world and the registry of an engine. -/
def Engine.stage (e : Engine) : Stage := ⟨e.world, e.registry⟩

/-- A stage on which the objects of another one are as they were, with the same rules. -/
structure Stage.Kept (st st' : Stage) : Prop where
  world : st.world.Kept st'.world
  registry : st'.registry = st.registry

namespace Validation

/-- What a part of a validation does between two stages, with the members that it visits. -/
abbrev Going := Stage → List MemberVisit → Stage → Prop

/-- What is done for several things, one after the other. -/
inductive InTurn (R : α → Going) : List α → Going
  | nil {st : Stage} : InTurn R [] st [] st
  | cons {a : α} {as : List α} {st st₁ st' : Stage} {ms ms' : List MemberVisit} :
      R a st ms st₁ → InTurn R as st₁ ms' st' → InTurn R (a :: as) st (ms ++ ms') st'

/-- A visit of a member takes one world to another: without a provider its value is read and nothing
is written; with one the value is read, the provider evaluated for it, and what it gives is written,
once. -/
inductive Settles (m : MemberVisit) (w w' : World) : Prop
  | read : m.group.provider? = none → (m.group.member.read m.owner w).1 = .ok m.found →
      m.used = m.found → w.Kept w' → Settles m w w'
  | written {p : Expr} {w₁ w₂ : World} : m.group.provider? = some p →
      m.group.member.read m.owner w = (.ok m.found, w₁) → w.Kept w₁ →
      p.eval ⟨m.found, m.owner, .text m.group.member.name⟩ w₁ = (.ok m.used, w₂) →
      m.group.member.write m.owner m.used w₂ = (.ok (), w') → Settles m w w'

variable {nested : Value → TypeId → Going} {d : Drive} {t u : TypeId} {owner v : Value} {r : Rule}
  {a : Attribute} {g : RuleGroup} {st st₁ st' : Stage} {ms ms' : List MemberVisit}

/-- A rule is applied to a value: its check runs on the value, or the value is validated by the
rules of a type, whose declared rules may have been registered for this. -/
inductive Applies (nested : Value → TypeId → Going) (d : Drive) (t : TypeId) (owner : Value)
    (a : Attribute) (v : Value) : Going
  | check {outcome : Outcome} {st st' : Stage} : a.check.nestedType? = none →
      (a.check.runWith d v owner st.world).1 = .ok outcome → st.Kept st' →
      Applies nested d t owner a v st [] st'
  /-- There is nothing to say of a missing value. -/
  | missing {u : TypeId} {st : Stage} : a.check.nestedType? = some u → v = .none →
      Applies nested d t owner a v st [] st
  | nested {u : TypeId} {st st₁ st' : Stage} {ms : List MemberVisit} :
      a.check.nestedType? = some u → v ≠ .none → st₁.world = st.world →
      st.registry.Grows st.world.schema t st₁.registry → nested v u st₁ ms st' →
      Applies nested d t owner a v st ms st'

/-- The values that a rule is applied to for the value of its member. -/
def targets (r : Rule) (w : World) (v : Value) : List Value :=
  if r.forEach then w.elements v else [v]

/-- A rule is applied to the value of its member, or to each element of it, if its gate is open. -/
inductive VisitsRule (nested : Value → TypeId → Going) (d : Drive) (t : TypeId) (owner v : Value)
    (r : Rule) : Going
  | carrier {st : Stage} : r.validator = none → VisitsRule nested d t owner v r st [] st
  | closed {a : Attribute} {st st' : Stage} : r.validator = some a →
      (r.gate.isOpen d owner st.world).1 = .ok false → st.Kept st' →
      VisitsRule nested d t owner v r st [] st'
  | opened {a : Attribute} {st st₁ st' : Stage} {ms : List MemberVisit} : r.validator = some a →
      (r.gate.isOpen d owner st.world).1 = .ok true → st.Kept st₁ →
      InTurn (Applies nested d t owner a) (targets r st₁.world v) st₁ ms st' →
      VisitsRule nested d t owner v r st ms st'

/-- A member with a check is visited once, and then all its rules are applied to the value that is
used for it. A member without checks is not visited. -/
inductive VisitsMember (nested : Value → TypeId → Going) (d : Drive) (t : TypeId) (owner : Value)
    (g : RuleGroup) : Going
  | unchecked {st : Stage} : g.rules.any Rule.hasCheck = false →
      VisitsMember nested d t owner g st [] st
  | checked {m : MemberVisit} {st st₁ st' : Stage} {ms : List MemberVisit} :
      g.rules.any Rule.hasCheck = true → m.owner = owner → m.group = g →
      Settles m st.world st₁.world → st₁.registry = st.registry →
      InTurn (VisitsRule nested d t owner m.used) g.rules st₁ ms st' →
      VisitsMember nested d t owner g st (m :: ms) st'

/-- An object is visited by the rules of a type, member by member; `depth` bounds the nesting. -/
def VisitsObject (d : Drive) : Nat → Value → TypeId → Going
  | 0, _, _ => fun _ _ _ => False
  | depth + 1, owner, t => fun st =>
    InTurn (VisitsMember (VisitsObject d depth) d t owner) (st.registry.groupsOf t) st

/-! ## 2. What is left of the objects -/

/-- A write of a visit: what is used is stored in the owner, under the name of the member or the one
that its setters pass it to. -/
structure WrittenBy (s : Schema) (m : MemberVisit) (x : Write) : Prop where
  owner : m.owner = .object x.id
  name : ∃ t, s.PassesTo t m.group.member.name x.name
  value : x.value = m.used

/-- Every provider changes no object itself. -/
def QuietlyProvided (s : Schema) (ms : List MemberVisit) : Prop :=
  ∀ m ∈ ms, ∀ p, m.group.provider? = some p → ∀ env, Eval.Quiet s (p.eval env)

/-- The objects are those of before with one write for each visit of a member with a provider, in
the order of the visits, if the providers change nothing themselves. -/
def Leaves (s : Schema) (w : World) (ms : List MemberVisit) (w' : World) : Prop :=
  w.schema = s → QuietlyProvided s ms →
    ∃ ws, List.Forall₂ (WrittenBy s) (ms.filter fun m => m.group.provider?.isSome) ws ∧
      (w.after ws).Kept w'

variable {s : Schema} {w w₁ w' : World} {m : MemberVisit}

theorem leaves_of_kept (h : w.Kept w') : Leaves s w [] w' := fun _ _ => ⟨[], .nil, h⟩

theorem Leaves.append (h : Leaves s w ms w₁) (h' : Leaves s w₁ ms' w') :
    Leaves s w (ms ++ ms') w' := by
  intro hw hquiet
  obtain ⟨hquiet, hquiet'⟩ := List.forall_mem_append.mp hquiet
  obtain ⟨ws, hws, hkept⟩ := h hw hquiet
  have hw₁ : w₁.schema = s := by rw [hkept.schema, w.schema_after, hw]
  obtain ⟨ws', hws', hkept'⟩ := h' hw₁ hquiet'
  refine ⟨ws ++ ws', ?_, ?_⟩
  · rw [List.filter_append]
    exact List.rel_append hws hws'
  · unfold World.after
    rw [List.foldl_append]
    exact (hkept.after ws').trans hkept'

theorem Leaves.kept_left (h : w.Kept w₁) (h' : Leaves s w₁ ms w') : Leaves s w ms w' :=
  (leaves_of_kept h).append h'

theorem Settles.leaves (h : Settles m w w') : Leaves s w [m] w' := by
  intro hw hquiet
  cases h with
  | read hnone _ _ hkept =>
    refine ⟨[], ?_, hkept⟩
    simp [hnone]
  | @written p w₁ w₂ hp hread hkept heval hwrite =>
    have hw₁ : w₁.schema = s := hkept.schema.trans hw
    have hevaluated : w₁.Kept w₂ := (hquiet m List.mem_cons_self p hp _).kept hw₁ heval
    have hw₂ : w₂.schema = s := hevaluated.schema.trans hw₁
    obtain ⟨id, o, last, howner, -, hpasses, rfl⟩ := MemberRef.write_eq_ok hwrite
    rw [hw₂] at hpasses
    refine ⟨[⟨id, last, m.used⟩], ?_, (hkept.trans hevaluated).after _⟩
    simp only [hp, Option.isSome_some, List.filter_cons_of_pos, List.filter_nil]
    exact .cons ⟨howner, ⟨o.type, hpasses⟩, rfl⟩ .nil

theorem InTurn.leaves {R : α → Going} {as : List α}
    (hR : ∀ a st ms st', R a st ms st' → Leaves s st.world ms st'.world)
    (h : InTurn R as st ms st') : Leaves s st.world ms st'.world := by
  induction h with
  | nil => exact leaves_of_kept (.refl _)
  | cons ha _ ih => exact (hR _ _ _ _ ha).append ih

/-- **What a visit of an object leaves.** The induction is on the depth. -/
theorem VisitsObject.leaves {depth : Nat} (h : VisitsObject d depth owner t st ms st') :
    Leaves s st.world ms st'.world := by
  induction depth generalizing owner t st ms st' with
  | zero => exact h.elim
  | succ depth ih =>
    have happlies : ∀ {owner a} v st ms st',
        Applies (VisitsObject d depth) d t owner a v st ms st' →
          Leaves s st.world ms st'.world := by
      intro owner a v st ms st' h
      cases h with
      | check _ _ hkept => exact leaves_of_kept hkept.world
      | missing => exact leaves_of_kept (.refl _)
      | nested _ _ hworld _ hvisit =>
        rw [← hworld]
        exact ih hvisit
    refine InTurn.leaves (fun g st ms st' hmember => ?_) h
    cases hmember with
    | unchecked => exact leaves_of_kept (.refl _)
    | checked _ _ _ hsettles _ hrules =>
      refine hsettles.leaves.append (InTurn.leaves (fun r st ms st' hrule => ?_) hrules)
      cases hrule with
      | carrier => exact leaves_of_kept (.refl _)
      | closed _ _ hkept => exact leaves_of_kept hkept.world
      | opened _ _ hkept hturn => exact .kept_left hkept.world (hturn.leaves happlies)

/-- If no visited member has a provider, all objects are as they were. -/
theorem VisitsObject.kept {depth : Nat} (h : VisitsObject d depth owner t st ms st')
    (hnone : ∀ m ∈ ms, m.group.provider? = none) : st.world.Kept st'.world := by
  have hquiet : QuietlyProvided st.world.schema ms := fun m hm p hp => by
    rw [hnone m hm] at hp
    cases hp
  obtain ⟨ws, hws, hkept⟩ := h.leaves rfl hquiet
  have hfilter : ms.filter (fun m => m.group.provider?.isSome) = [] :=
    List.filter_eq_nil_iff.mpr fun m hm => by simp [hnone m hm]
  rw [hfilter] at hws
  cases hws
  exact hkept

end Validation

/-! ## 3. Members without effects -/

/-- A rule whose gate, check and message change no object. Its provider may do what it likes. -/
structure Rule.IsQuiet (s : Schema) (r : Rule) : Prop where
  gate : ∀ d owner, Eval.Quiet s (r.gate.isOpen d owner)
  check : ∀ a, r.validator = some a → ∀ d v owner, Eval.Quiet s (a.check.runWith d v owner)
  message : ∀ x, r.message = some (.computed x) → ∀ env, Eval.Quiet s (x.eval env)

/-- A member whose value is read without changing an object, with such rules. -/
structure RuleGroup.IsQuiet (s : Schema) (g : RuleGroup) : Prop where
  read : ∀ owner, Eval.Quiet s (g.member.read owner)
  rules : ∀ r ∈ g.rules, r.IsQuiet s

/-- A member that a validation by the rules of a type can come to: one of a type that is reached, in
the registry as it is, or with the declared rules that the validation registers on its way. -/
def Registry.MayVisit (s : Schema) (reg : Registry) (t : TypeId) (g : RuleGroup) : Prop :=
  ∃ reg₁ u, reg.Grows s t reg₁ ∧ reg₁.Reaches t u ∧ g ∈ reg₁.groupsOf u

section

open Action (Keeps)
open Engine (Grown)

variable {s : Schema} {t u : TypeId} {reg reg₁ : Registry} {g : RuleGroup} {r : Rule}
  {a : Attribute} {d : Drive} {e e' : Engine} {st : Stage} {P : RuleGroup → Prop} {owner v : Value}
  {fs : List Failure}

theorem Registry.MayVisit.of_reaches (h : reg₁.MayVisit s u g) (hgrows : reg.Grows s t reg₁)
    (hu : reg₁.Reaches t u) : reg.MayVisit s t g := by
  obtain ⟨reg₂, v, hgrows', hv, hg⟩ := h
  have hreach : reg₂.Reaches t v := (hu.kept hgrows'.keepsKnown).trans hv
  exact ⟨reg₂, v, hgrows.trans (hgrows'.of_reaches hu), hreach, hg⟩

/-- An engine on which the objects of a stage are as they were, with the same rules. -/
abbrev Stage.KeptIn (st : Stage) (e : Engine) : Prop := st.Kept e.stage

theorem Stage.kept_self (e : Engine) : e.stage.Kept e.stage := ⟨.refl _, rfl⟩

namespace Action

theorem eval_kept {x : Eval α} (hx : Eval.Quiet st.world.schema x) :
    Keeps st.KeptIn (eval x) := fun e he =>
  ⟨⟨he.world.trans (hx e.world he.world.schema), he.registry⟩, fun _ _ => trivial⟩

theorem message_kept {w : Message.Wanted} (hw : w.rule = some r) (hr : r.IsQuiet st.world.schema)
    (object : Value) : Keeps st.KeptIn (message w object) := by
  have hcomputed : Keeps st.KeptIn (computedText w.rule object) := by
    unfold computedText
    rw [hw]
    split
    · rename_i x hx
      refine .andThen (eval_kept (hr.message x hx _)) fun v => .get_bind fun e he => ?_
      exact Keeps.andThen (Keeps.lift _).weaken (fun _ => .pure trivial) e he
    · exact .pure trivial
  exact hcomputed.andThen fun computed => .get_bind fun e he => ⟨he, fun _ _ => trivial⟩

/-- Registering declared rules leaves all objects alone. -/
theorem ensureWithin_world (w : World) (depth : Nat) (t : TypeId) :
    Keeps (fun e => e.world = w) (ensureWithin depth t) := by
  induction depth generalizing t with
  | zero => exact .throw _
  | succ depth ih =>
    refine .get_bind fun e he => ?_
    split
    · exact Keeps.pure trivial e he
    · have hderived : Keeps (fun e => e.world = w) (declaredRules t) := by
        intro e he
        rw [← he]
        refine ⟨?_, fun _ _ => trivial⟩
        rw [declaredRules_apply]
        rcases e.world.schema.reflect t e.reflected with ⟨f | ms, known⟩
        · rfl
        · dsimp only
          rw [bind_apply, lift_apply]
          rcases e.world.schema.declaredRules t ms with f | rs <;> rfl
      have hadded : ∀ rs, Keeps (fun e => e.world = w) (addRules t rs) := fun rs e he =>
        ⟨he, fun _ _ => trivial⟩
      exact hderived.andThen (fun rs => (hadded rs).andThen fun _ => .forM fun u _ => ih u) e he

theorem ensure_world (w : World) (t : TypeId) : Keeps (fun e => e.world = w) (ensure t) :=
  .get_bind fun e he => ensureWithin_world w (e.world.schema.types.length + 2) t e he

end Action

namespace Validation

variable {nested : Value → TypeId → String → Finding} {going : Value → TypeId → Going}

/-! ## 4. Every validation goes this way -/

theorem applyCheck_kept (hr : r.IsQuiet st.world.schema) (ha : r.validator = some a)
    (pos : Position) (v : Value) : Keeps st.KeptIn (applyCheck d r a pos v) := by
  refine .andThen (Action.eval_kept (hr.check a ha _ _ _)) fun outcome => ?_
  split
  · exact .pure trivial
  · have hmessage : Keeps st.KeptIn (messageOf r a pos outcome.message) := by
      unfold messageOf
      split
      · exact .pure trivial
      · exact Action.message_kept rfl hr _
    exact hmessage.andThen fun _ => .andThen (Keeps.lift _).weaken fun _ => .pure trivial

/-- A step that goes a certain way if it ends well, by way of members with a property. -/
def Goes (P : RuleGroup → Prop) (I : Engine → Prop) (x : Finding) (R : Going) : Prop :=
  ∀ e, I e → ∀ fs e', x e = (.ok fs, e') → ∃ ms, R e.stage ms e'.stage ∧ ∀ m ∈ ms, P m.group

theorem collect_goes {I : Engine → Prop} {f : α → Finding} {R : α → Going} {as : List α}
    (hkeeps : ∀ a ∈ as, Keeps I (f a)) (h : ∀ a ∈ as, Goes P I (f a) (R a)) :
    Goes P I (collect f as) (InTurn R as) := by
  induction as with
  | nil =>
    rintro e he fs e' ⟨⟩
    exact ⟨[], .nil, by simp⟩
  | cons a as ih =>
    intro e he fs e' hrun
    obtain ⟨first, e₁, hfirst, hrun⟩ := bind_eq_ok.mp hrun
    obtain ⟨others, e₂, hothers, hrun⟩ := bind_eq_ok.mp hrun
    cases hrun
    have he₁ : I e₁ := by
      have hkept := (hkeeps a List.mem_cons_self e he).1
      rwa [hfirst] at hkept
    obtain ⟨ms, hms, hall⟩ := h a List.mem_cons_self e he first e₁ hfirst
    obtain ⟨ms', hms', hall'⟩ := ih (fun b hb => hkeeps b (List.mem_cons_of_mem a hb))
      (fun b hb => h b (List.mem_cons_of_mem a hb)) e₁ he₁ others e' hothers
    exact ⟨ms ++ ms', .cons hms hms', List.forall_mem_append.mpr ⟨hall, hall'⟩⟩

theorem InTurn.map {β : Type} {R : β → Going} {k : α → β} {as : List α} {st st' : Stage}
    {ms : List MemberVisit} (h : InTurn (fun a => R (k a)) as st ms st') :
    InTurn R (as.map k) st ms st' := by
  induction h with
  | nil => exact .nil
  | cons ha _ ih => exact .cons ha ih

/-- A step that has ended leaves what it keeps. -/
theorem kept_of_run {β : Type} {I : Engine → Prop} {x : Action β} {b : β} (hx : Keeps I x)
    (he : I e) (h : x e = (.ok b, e')) : I e' := by
  have hkept := (hx e he).1
  rwa [h] at hkept

theorem applyCheck_goes (hr : r.IsQuiet s) (ha : r.validator = some a)
    (hleaf : a.check.nestedType? = none) (pos : Position) (v : Value) :
    Goes P (Grown s t reg) (applyCheck d r a pos v) (Applies going d t pos.owner a v) := by
  intro e he fs e' hrun
  rw [show s = e.stage.world.schema from he.schema.symm] at hr
  have hkept : e.stage.Kept e'.stage :=
    kept_of_run (applyCheck_kept hr ha pos v) (Stage.kept_self e) hrun
  obtain ⟨outcome, e₁, hcheck, -⟩ := bind_eq_ok.mp hrun
  exact ⟨[], .check hleaf (eval_eq_ok hcheck) hkept, by simp⟩

/-- Nested values are gone through, by way of the members that the rules of their type can come
to. -/
abbrev NestedGoes (s : Schema) (P : RuleGroup → Prop)
    (nested : Value → TypeId → String → Finding) (going : Value → TypeId → Going) : Prop :=
  ∀ u reg v path, (∀ g, reg.MayVisit s u g → P g) →
    Goes P (Grown s u reg) (nested v u path) (going v u)

theorem applyRule_goes (hn : NestedGoes s P nested going)
    (hall : ∀ g, reg.MayVisit s t g → P g) (hr : r ∈ reg.rulesOf t) (hquiet : r.IsQuiet s)
    (ha : r.validator = some a) (pos : Position) (v : Value) :
    Goes P (Grown s t reg) (applyRule nested d r a pos v) (Applies going d t pos.owner a v) := by
  have hc : r.check? = some a.check := by simp [Rule.check?, ha]
  cases hu : a.check.nestedType? with
  | none =>
    rw [applyRule_of_leaf hu]
    exact applyCheck_goes hquiet ha hu pos v
  | some u =>
    by_cases hv : v = .none
    · rw [hv, applyRule_missing hu]
      rintro e he fs e' ⟨⟩
      exact ⟨[], .missing hu rfl, by simp⟩
    · rw [applyRule_of_nested hu hv]
      have htype : r.nestedType? = some u := by simp [Rule.nestedType?, hc, hu]
      have hreach : reg.Reaches t u := .step .refl hr htype
      have hinside : ∀ e e₁ : Engine, e₁.Grown s t reg → e₁.world = e.world →
          e.registry.Grows s t e₁.registry → ∀ fs e', nested v u pos.path e₁ = (.ok fs, e') →
            ∃ ms, Applies going d t pos.owner a v e.stage ms e'.stage ∧ ∀ m ∈ ms, P m.group := by
        intro e e₁ he₁ hworld hgrows fs e' hrun
        have hreach₁ := hreach.kept he₁.grows.keepsKnown
        have hstart : e₁.Grown s u e₁.registry := ⟨he₁.schema, he₁.faithful, .refl⟩
        obtain ⟨ms, hms, hP⟩ := hn u e₁.registry v pos.path
          (fun g hg => hall g (hg.of_reaches he₁.grows hreach₁)) e₁ hstart fs e' hrun
        have hgrows : e.stage.registry.Grows e.stage.world.schema t e₁.stage.registry := by
          have hschema : e.stage.world.schema = s := by
            rw [← he₁.schema, hworld]
            rfl
          rw [hschema]
          exact hgrows
        exact ⟨ms, .nested hu hv hworld hgrows hms, hP⟩
      split
      · rename_i hmodel
        obtain ⟨w, hw⟩ := Option.isSome_iff_exists.mp hmodel
        have hmodel : r.nestedModel? = some w := by simp [Rule.nestedModel?, hc, hw]
        have hsame := htype.symm.trans (Rule.nestedType?_of_nestedModel? hmodel)
        obtain rfl : u = w := Option.some.inj hsame
        have hwants : reg.Wants t u := ⟨t, .refl, r, hr, hmodel⟩
        intro e he fs e' hrun
        obtain ⟨_, e₁, hensure, hrun⟩ := bind_eq_ok.mp hrun
        have hwants' := hwants.kept he.grows.keepsKnown
        have hgrown : e₁.Grown s t e.registry :=
          kept_of_run (Action.ensure_grown hwants') he.start hensure
        have hworld : e₁.world = e.world :=
          kept_of_run (Action.ensure_world e.world u) rfl hensure
        exact hinside e e₁ (he.trans hgrown) hworld hgrown.grows fs e' hrun
      · intro e he fs e' hrun
        exact hinside e e he rfl .refl fs e' hrun

theorem visitRule_goes (hn : NestedGoes s P nested going)
    (hkeeps : ∀ u reg v path, Keeps (Grown s u reg) (nested v u path))
    (hall : ∀ g, reg.MayVisit s t g → P g) (hr : r ∈ reg.rulesOf t) (hquiet : r.IsQuiet s)
    (pos : Position) (v : Value) :
    Goes P (Grown s t reg) (visitRule nested d pos v r) (VisitsRule going d t pos.owner v r) := by
  intro e he fs e' hrun
  unfold visitRule at hrun
  cases ha : r.validator with
  | none =>
    rw [ha] at hrun
    cases hrun
    exact ⟨[], .carrier ha, by simp⟩
  | some a =>
    rw [ha] at hrun
    obtain ⟨isOpen, e₁, hgate, hrun⟩ := bind_eq_ok.mp hrun
    have hgate_quiet : Eval.Quiet e.stage.world.schema (r.gate.isOpen d pos.owner) := by
      rw [show e.stage.world.schema = s from he.schema]
      exact hquiet.gate d pos.owner
    have hkept : e.stage.Kept e₁.stage :=
      kept_of_run (Action.eval_kept hgate_quiet) (Stage.kept_self e) hgate
    have he₁ : e₁.Grown s t reg :=
      kept_of_run (Action.eval_grown (r.gate.isOpen_keepsTypes d pos.owner)) he hgate
    cases isOpen with
    | false =>
      cases hrun
      exact ⟨[], .closed ha (eval_eq_ok hgate) hkept, by simp⟩
    | true =>
      have hturn : ∃ ms, InTurn (Applies going d t pos.owner a) (targets r e₁.stage.world v)
          e₁.stage ms e'.stage ∧ ∀ m ∈ ms, P m.group := by
        have happlies : ∀ path x, Goes P (Grown s t reg)
            (applyRule nested d r a { pos with path } x) (Applies going d t pos.owner a x) :=
          fun path x => applyRule_goes hn hall hr hquiet ha { pos with path } x
        simp only [Bool.not_true, Bool.false_eq_true, if_false] at hrun
        unfold targets
        split at hrun
        · rename_i heach
          rw [bind_ok (get_apply e₁)] at hrun
          obtain ⟨ms, hms, hP⟩ := collect_goes
            (R := fun p : Value × Nat => Applies going d t pos.owner a p.1)
            (fun p _ => applyRule_grown hkeeps hr ha _ p.1) (fun p _ => happlies _ p.1) e₁ he₁ fs e'
            hrun
          rw [if_pos heach, ← List.zipIdx_map_fst 0 (e₁.stage.world.elements v)]
          exact ⟨ms, hms.map, hP⟩
        · rename_i heach
          rw [if_neg heach]
          obtain ⟨ms, hms, hP⟩ := happlies pos.path v e₁ he₁ fs e' hrun
          refine ⟨ms, ?_, hP⟩
          rw [← List.append_nil ms]
          exact .cons hms .nil
      obtain ⟨ms, hms, hP⟩ := hturn
      exact ⟨ms, .opened ha (eval_eq_ok hgate) hkept hms, hP⟩

/-- An evaluation that has ended took its place in the world alone. -/
theorem eval_run {β : Type} {x : Eval β} {b : β} (h : Action.eval x e = (.ok b, e')) :
    x e.world = (.ok b, e'.world) ∧ e'.registry = e.registry := by
  rw [Action.eval_apply] at h
  obtain ⟨hvalue, rfl⟩ := Prod.mk.inj h
  exact ⟨Prod.ext hvalue rfl, rfl⟩

/-- Giving the value of a member is a visit. -/
theorem provided_settles (hg : g.IsQuiet s) (he : e.world.schema = s)
    (h : provided g owner e = (.ok v, e')) :
    ∃ found, Settles ⟨owner, g, found, v⟩ e.world e'.world ∧ e'.registry = e.registry := by
  unfold provided at h
  obtain ⟨found, e₁, hread, h⟩ := bind_eq_ok.mp h
  obtain ⟨hread, hregistry⟩ := eval_run hread
  have hkept := (hg.read owner).kept he hread
  cases hp : g.rules.findSome? Rule.provider with
  | none =>
    rw [hp] at h
    cases h
    exact ⟨v, .read hp (congrArg Prod.fst hread) rfl hkept, hregistry⟩
  | some p =>
    rw [hp] at h
    obtain ⟨used, e₂, heval, h⟩ := bind_eq_ok.mp h
    obtain ⟨_, e₃, hwrite, h⟩ := bind_eq_ok.mp h
    cases h
    obtain ⟨heval, hregistry₂⟩ := eval_run heval
    obtain ⟨hwrite, hregistry₃⟩ := eval_run hwrite
    exact ⟨found, .written hp hread hkept heval hwrite,
      hregistry₃.trans (hregistry₂.trans hregistry)⟩

theorem visitMember_goes (hn : NestedGoes s P nested going)
    (hkeeps : ∀ u reg v path, Keeps (Grown s u reg) (nested v u path))
    (hall : ∀ g, reg.MayVisit s t g → P g) (hg : g ∈ reg.groupsOf t) (hquiet : g.IsQuiet s)
    (owner : Value) (path : String) :
    Goes P (Grown s t reg) (visitMember nested d owner t path g)
      (VisitsMember going d t owner g) := by
  intro e he fs e' hrun
  unfold visitMember at hrun
  cases hcheck : g.rules.any Rule.hasCheck with
  | false =>
    rw [hcheck] at hrun
    cases hrun
    exact ⟨[], .unchecked hcheck, by simp⟩
  | true =>
    simp only [hcheck, Bool.not_true, Bool.false_eq_true, if_false] at hrun
    obtain ⟨v, e₁, hprovided, hrun⟩ := bind_eq_ok.mp hrun
    obtain ⟨found, hsettles, hregistry⟩ := provided_settles hquiet he.schema hprovided
    have hsettles : Settles ⟨owner, g, found, v⟩ e.stage.world e₁.stage.world := hsettles
    have he₁ : e₁.Grown s t reg := kept_of_run (provided_grown g owner) he hprovided
    have hrules : ∀ r ∈ g.rules, r ∈ reg.rulesOf t := fun r hr => Registry.mem_rulesOf hg hr
    obtain ⟨ms, hms, hP⟩ := collect_goes (P := P) (R := VisitsRule going d t owner v)
      (fun r hr => visitRule_grown hkeeps (hrules r hr) _ v)
      (fun r hr => visitRule_goes hn hkeeps hall (hrules r hr) (hquiet.rules r hr) _ v)
      e₁ he₁ fs e' hrun
    have hgroup : P g := hall g ⟨reg, t, .refl, .refl, hg⟩
    exact ⟨⟨owner, g, found, v⟩ :: ms, .checked hcheck rfl rfl hsettles hregistry hms,
      List.forall_mem_cons.mpr ⟨hgroup, hP⟩⟩

/-- **Validating an object goes this way**, if the members that it can come to are quiet. The
induction is on the depth; the rules of a type are those of the registry as it is when the object is
entered. -/
theorem visitObject_goes (hP : ∀ g, P g → g.IsQuiet s) (d : Drive) (depth : Nat) :
    NestedGoes s P (visitObject d depth) (VisitsObject d depth) := by
  induction depth with
  | zero =>
    rintro u reg v path hall e he fs e' ⟨⟩
  | succ depth ih =>
    intro t reg owner path hall e he fs e' hrun
    obtain ⟨_, e₁, hbuilt, hmembers⟩ := bind_eq_ok.mp hrun
    obtain rfl := requireBuilt_eq_ok hbuilt
    rw [bind_ok (get_apply e₁)] at hmembers
    have hall₁ : ∀ g, e₁.registry.MayVisit s t g → P g := fun g hg =>
      hall g (hg.of_reaches he.grows .refl)
    have hkeeps : ∀ u reg v path, Keeps (Grown s u reg) (visitObject d depth v u path) :=
      fun u reg v path => visitObject_grown d depth v path
    have hgroup : ∀ g ∈ e₁.registry.groupsOf t, P g := fun g hg =>
      hall₁ g ⟨e₁.registry, t, .refl, .refl, hg⟩
    exact collect_goes (R := VisitsMember (VisitsObject d depth) d t owner)
      (fun g hg => visitMember_grown hkeeps hg owner path)
      (fun g hg => visitMember_goes ih hkeeps hall₁ hg (hP g (hgroup g hg)) owner path)
      e₁ he.start fs e' hmembers

/-- A run that ends goes through its object, and does nothing else to the stage. -/
theorem run_goes {result : ValidationResult} (hquiet : ∀ g, reg.MayVisit s t g → g.IsQuiet s)
    (h : run d v t e = (.ok result, e')) (he : e.Grown s t reg) :
    ∃ ms, VisitsObject d nestingLimit v t e.stage ms e'.stage ∧
      ∀ m ∈ ms, reg.MayVisit s t m.group := by
  obtain ⟨fs, e₁, hvisit, hrest⟩ := bind_eq_ok.mp h
  cases hrest
  exact visitObject_goes hquiet d nestingLimit t reg v "" (fun _ hg => hg) e he fs e₁ hvisit

variable {own : TypeId} {value : Value} {result : ValidationResult}

/-- A validation that ends is a run, from an engine with the same world and the same rules. -/
theorem IsValidation.goes {x : Action ValidationResult} (hx : IsValidation t value d x)
    (hown : (rulesType t value e).1 = .ok own) (hfaithful : e.world.schema.Faithful e.reflected)
    (hquiet : ∀ g, e.registry.MayVisit e.world.schema own g → g.IsQuiet e.world.schema)
    (h : x e = (.ok result, e')) :
    ∃ d ms, VisitsObject d nestingLimit value own e.stage ms e'.stage ∧
      ∀ m ∈ ms, e.registry.MayVisit e.world.schema own m.group := by
  have hpair : rulesType t value e = (.ok own, e) := Prod.ext hown (rulesType_snd t value e)
  have hstart : e.Grown e.world.schema own e.registry := ⟨rfl, hfaithful, .refl⟩
  cases hx with
  | atOnce =>
    rw [validate_apply hown] at h
    split at h
    · cases h
    · exact ⟨.immediate, run_goes hquiet h hstart⟩
    · -- What the log holds is no part of the stage.
      have hrun := run_goes hquiet h ⟨rfl, hfaithful, .refl⟩
      exact ⟨.patient, hrun⟩
  | patient =>
    rw [validatePatiently_apply hown] at h
    exact ⟨.patient, run_goes hquiet h hstart⟩
  | limited exhausted =>
    unfold validatePatiently at h
    rw [bind_ok hpair] at h
    exact ⟨.limited exhausted, run_goes hquiet h hstart⟩

/-- **A validation writes what value providers give, and nothing else.** If no member that it can
come to is read with effects, and no gate, check or message has any, a validation that ends has gone
through the object in the way of `VisitsObject`: each visit of an object has one write for each
member with a provider and a check, and all rules of the member are applied to what was written. The
objects are those of before with these writes, in order, if the providers change nothing themselves;
and if no visited member has a provider, they are those of before. -/
theorem validation_writes_provided {x : Action ValidationResult} (hx : IsValidation t value d x)
    (hown : (rulesType t value e).1 = .ok own) (hfaithful : e.world.schema.Faithful e.reflected)
    (hquiet : ∀ g, e.registry.MayVisit e.world.schema own g → g.IsQuiet e.world.schema)
    (h : x e = (.ok result, e')) :
    ∃ d ms, VisitsObject d nestingLimit value own e.stage ms e'.stage ∧
      (∀ m ∈ ms, e.registry.MayVisit e.world.schema own m.group) ∧
      Leaves e.world.schema e.world ms e'.world ∧
      ((∀ m ∈ ms, m.group.provider? = none) → e.world.Kept e'.world) := by
  obtain ⟨d, ms, hvisits, hall⟩ := hx.goes hown hfaithful hquiet h
  exact ⟨d, ms, hvisits, hall, hvisits.leaves, hvisits.kept⟩

/-! ### A draft whose title has blanks at its ends

The title of a draft is stripped as it is validated, and its copy is only checked. -/

namespace Draft

/-- Members of drafts are stored, and reading them changes nothing. -/
theorem read_quiet {m : MemberRef} (hkind : m.kind = .field) (owner : Value) :
    Eval.Quiet schema (m.read owner) := by
  have hnone : ∀ t name, schema.defined? t name = none := by
    intro t name
    refine List.findSome?_eq_none_iff.mpr fun d hd => ?_
    have hmem : d ∈ schema.types := by
      obtain ⟨id, -, hid⟩ := List.mem_filterMap.mp hd
      split at hid
      · exact List.mem_of_find?_eq_some hid
      · cases hid
    obtain rfl := List.mem_singleton.mp hmem
    simp [TypeDecl.defined?, TypeDecl.isDefinition]
  refine MemberRef.read_quiet hkind (World.read_quiet ?_ ?_ owner) <;> simp [hnone]

theorem group_isQuiet {g : RuleGroup} (hg : g ∈ [titles, copies (.required false)]) :
    g.IsQuiet schema := by
  have hrule : ∀ name provider, (rule name (.required false) provider).IsQuiet schema := by
    intro name provider
    refine ⟨fun _ _ w _ => .refl w, ?_, by rintro _ ⟨⟩⟩
    rintro a ⟨⟩ d v owner w -
    exact .refl w
  rcases List.mem_pair.mp hg with rfl | rfl
  all_goals
    refine ⟨read_quiet rfl, fun r hr => ?_⟩
    cases List.mem_singleton.mp hr
    exact hrule _ _

/-- No nested types are registered, and none are come to. -/
theorem mem_of_mayVisit {g : RuleGroup} (h : needed.registry.MayVisit schema type g) :
    g ∈ [titles, copies (.required false)] := by
  have hleaf : ∀ u ∈ [type], ∀ r ∈ needed.registry.rulesOf u, r.nestedType? = none := by
    intro u hu r hr
    obtain rfl := List.mem_singleton.mp hu
    rcases List.mem_pair.mp (show r ∈ [rule "title" (.required false) (some (.strip .subject)),
      rule "copy" (.required false) none] from hr) with rfl | rfl <;> rfl
  have hself : ∀ u, needed.registry.Reaches type u → u ∈ [type] := fun u hu =>
    Registry.Reaches.mem List.mem_cons_self (fun u hu r hr v hv => by
      rw [hleaf u hu r hr] at hv
      cases hv) hu
  have hcovers : needed.registry.Covers type := fun u hu r hr v hv => by
    have htype := Rule.nestedType?_of_nestedModel? hv
    rw [hleaf u (hself u hu) r hr] at htype
    cases htype
  obtain ⟨reg₁, u, hgrows, hu, hg⟩ := h
  obtain rfl := hgrows.eq_of_covers hcovers
  obtain rfl := List.mem_singleton.mp (hself u hu)
  exact hg

/-- The providers of drafts change nothing themselves. -/
theorem quietlyProvided {ms : List MemberVisit}
    (h : ∀ m ∈ ms, needed.registry.MayVisit schema type m.group) : QuietlyProvided schema ms := by
  rintro m hm p hp env w -
  have hsame : (p.eval env w).2 = w := by
    rcases List.mem_pair.mp (mem_of_mayVisit (h m hm)) with heq | heq <;> rw [heq] at hp
    · obtain rfl : Expr.strip .subject = p := Option.some.inj hp
      exact strip_eval env w
    · cases hp
  unfold Eval.QuietFrom
  rw [hsame]
  exact .refl w

end Draft

/-- A draft of blanks is left with one write for each visit of its title, and with no others. -/
theorem draft_writes_provided :
    ∃ result e' d ms ws, validate Draft.type (.object 0) Draft.needed = (.ok result, e') ∧
      VisitsObject d nestingLimit (.object 0) Draft.type Draft.needed.stage ms e'.stage ∧
      List.Forall₂ (WrittenBy Draft.schema) (ms.filter fun m => m.group.provider?.isSome) ws ∧
      (Draft.needed.world.after ws).Kept e'.world := by
  obtain ⟨result, hresult, -⟩ := exists_of_count (n := 2)
    (x := (validate Draft.type (.object 0) Draft.needed).1) (by decide +kernel)
  have hown : (rulesType Draft.type (.object 0) Draft.needed).1 = .ok Draft.type :=
    congrArg Prod.fst (eq_ok_of_toOption (by decide +kernel))
  have hfaithful : Draft.schema.Faithful Draft.needed.reflected := Schema.faithful_nil _
  rcases hrun : validate Draft.type (.object 0) Draft.needed with ⟨r, e'⟩
  rw [hrun] at hresult
  obtain rfl : r = .ok result := hresult
  obtain ⟨d, ms, hvisits, hall, hleaves, -⟩ := validation_writes_provided .atOnce hown hfaithful
    (fun g hg => Draft.group_isQuiet (Draft.mem_of_mayVisit hg)) hrun
  obtain ⟨ws, hws, hkept⟩ := hleaves rfl (Draft.quietlyProvided hall)
  exact ⟨result, e', d, ms, ws, rfl, hvisits, hws, hkept⟩

end Validation
end
end MemberRules
