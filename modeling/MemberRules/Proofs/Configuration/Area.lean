/-
# What configuration steps leave alone

Configuration steps change an engine in many ways, but what a nested configuration does to the rules
of the builders around it is little: it may drop some of them, and complete their messages.  An area
says from where on builders and rules belong to a nested configuration, and this file shows once, for
every part of a configuration step, what it does outside the area it works in.

* `Engine.held`: the rules that a builder holds, by their identities and gates.
* `Engine.InArea`: an engine in which builders of an area hold rules of the area.
* `Engine.Outside`: what a step in an area leaves of what is outside it.
* `Action.StaysIn`: an engine step that stays in an area, with a fact about its result.
* the rules for the parts of an engine step; those for configuration steps are made of them.
-/
import Mathlib.Order.Nat
import MemberRules.Configuration.Gathering
import MemberRules.Proofs.Computation

namespace MemberRules

open MemberRules.Computation

variable {α β : Type}

/-! ## 1. Areas -/

/-- The part of an engine that steps may change: builders from a given place on, and rules with
identities from a given one on. -/
structure Area where
  builders : Nat
  ids : Nat

namespace Engine

variable {s : Area} {e e' e'' : Engine}

/-- The rules that a builder holds, by their identities and gates. -/
def held (e : Engine) (b : Nat) : List (Nat × Gate) := (e.builder b).rules.map fun r => (r.id, r.gate)

theorem mem_held_of_mem {b : Nat} {r : Rule} (h : r ∈ (e.builder b).rules) :
    (r.id, r.gate) ∈ e.held b :=
  List.mem_map_of_mem h

/-- Builders of the area hold rules of the area. -/
structure InArea (s : Area) (e : Engine) : Prop where
  builders : s.builders ≤ e.builders.length
  ids : s.ids ≤ e.nextId
  numbered : ∀ b, s.builders ≤ b → ∀ x ∈ e.held b, s.ids ≤ x.1

/-- What a step in an area leaves of what is outside it: nothing is taken away, configurations stay
with their types, and a builder outside the area keeps its rules or some of them, with their gates,
if these are outside it too. -/
structure Outside (s : Area) (e e' : Engine) : Prop where
  configurations : e.configurations.length ≤ e'.configurations.length
  builders : e.builders.length ≤ e'.builders.length
  ids : e.nextId ≤ e'.nextId
  types : ∀ c < e.configurations.length, (e'.configuration c).type = (e.configuration c).type
  kept : ∀ b < s.builders, (∀ x ∈ e.held b, x.1 < s.ids) → (e'.held b).Sublist (e.held b)

theorem Outside.refl (s : Area) (e : Engine) : Outside s e e :=
  ⟨le_rfl, le_rfl, le_rfl, fun _ _ => rfl, fun _ _ _ => .refl _⟩

theorem Outside.trans (h : Outside s e e') (h' : Outside s e' e'') : Outside s e e'' where
  configurations := h.configurations.trans h'.configurations
  builders := h.builders.trans h'.builders
  ids := h.ids.trans h'.ids
  types := fun c hc => (h'.types c (hc.trans_le h.configurations)).trans (h.types c hc)
  kept := fun b hb hx => by
    have hkept := h.kept b hb hx
    exact (h'.kept b hb fun x hmem => hx x (hkept.subset hmem)).trans hkept

/-- Everything is in the area of all builders and rules. -/
theorem inArea_zero (e : Engine) : e.InArea ⟨0, 0⟩ :=
  ⟨Nat.zero_le _, Nat.zero_le _, fun _ _ _ _ => Nat.zero_le _⟩

/-! ### Changes in an area -/

theorem configuration_updateConfiguration (c c' : Nat) (f : Configuration → Configuration) :
    (e.updateConfiguration c f).configuration c' = e.configuration c' ∨
      (e.updateConfiguration c f).configuration c' = f (e.configuration c') := by
  unfold configuration updateConfiguration
  rw [List.getElem?_modify]
  cases e.configurations[c']? with
  | none => exact .inl rfl
  | some cfg =>
    by_cases h : c = c'
    · exact .inr (by simp [h])
    · exact .inl (by simp [h])

theorem configuration_updateConfiguration_of_ne {c c' : Nat} (h : c ≠ c')
    (f : Configuration → Configuration) :
    (e.updateConfiguration c f).configuration c' = e.configuration c' := by
  unfold configuration updateConfiguration
  rw [List.getElem?_modify]
  simp [h]

/-- A change of one configuration leaves any other. -/
theorem configuration_updateConfiguration_cases (c c' : Nat) (f : Configuration → Configuration) :
    (e.updateConfiguration c f).configuration c' = e.configuration c' ∨
      c = c' ∧ (e.updateConfiguration c f).configuration c' = f (e.configuration c') := by
  by_cases h : c = c'
  · exact (configuration_updateConfiguration c c' f).imp_right fun heq => ⟨h, heq⟩
  · exact .inl (configuration_updateConfiguration_of_ne h f)

/-- A change of a configuration shows in it, unless there is no such configuration. -/
theorem updateConfiguration_self_or_default (e : Engine) (c : Nat)
    (f : Configuration → Configuration) :
    (e.updateConfiguration c f).configuration c = f (e.configuration c) ∨
      e.configuration c = default ∧ (e.updateConfiguration c f).configuration c = default := by
  unfold configuration updateConfiguration
  rw [List.getElem?_modify]
  cases e.configurations[c]? with
  | none => exact .inr ⟨rfl, rfl⟩
  | some cfg => exact .inl (by simp)

theorem updateConfiguration_twice {c : Nat} (f g : Configuration → Configuration) :
    (e.updateConfiguration c f).updateConfiguration c g = e.updateConfiguration c (g ∘ f) := by
  unfold updateConfiguration
  simp only [List.modify_modify_eq]

theorem builder_updateBuilder (b b' : Nat) (f : Builder → Builder) :
    (e.updateBuilder b f).builder b' =
      if b = b' ∧ b' < e.builders.length then f (e.builder b') else e.builder b' := by
  unfold builder updateBuilder
  rw [List.getElem?_modify]
  by_cases hlt : b' < e.builders.length
  · rw [List.getElem?_eq_getElem hlt]
    by_cases h : b = b' <;> simp [h, hlt]
  · rw [List.getElem?_eq_none (by omega)]
    simp [hlt]

theorem builder_amend (id : Nat) (f : Rule → Rule) (b : Nat) :
    (e.amend id f).builder b = { e.builder b with
      rules := (e.builder b).rules.map fun r => if r.id == id then f r else r } := by
  unfold builder amend
  simp only [List.getElem?_map]
  cases e.builders[b]? <;> rfl

theorem configuration_amend (id : Nat) (f : Rule → Rule) (c : Nat) :
    (e.amend id f).configuration c = { e.configuration c with
      lastBuild := (e.configuration c).lastBuild.map fun r => if r.id == id then f r else r } := by
  unfold configuration amend
  simp only [List.getElem?_map]
  cases e.configurations[c]? <;> rfl

/-- A change of a rule that keeps its identity, as what the builders hold shows it. -/
theorem held_amend {id : Nat} {f : Rule → Rule} (hf : ∀ r, (f r).id = r.id) (b : Nat) :
    ((e.amend id f).held b).map Prod.fst = (e.held b).map Prod.fst := by
  unfold held
  rw [builder_amend]
  simp only [List.map_map]
  refine List.map_congr_left fun r _ => ?_
  show (if r.id == id then f r else r).id = r.id
  split
  · exact hf r
  · rfl

/-- A change of a rule that keeps its identity and its gate does not show in what builders hold. -/
theorem held_amend_of_gate {id : Nat} {f : Rule → Rule} (hf : ∀ r, (f r).id = r.id)
    (hgate : ∀ r, (f r).gate = r.gate) (b : Nat) : (e.amend id f).held b = e.held b := by
  unfold held
  rw [builder_amend]
  simp only [List.map_map]
  refine List.map_congr_left fun r _ => ?_
  show ((if r.id == id then f r else r).id, (if r.id == id then f r else r).gate) = _
  split
  · rw [hf, hgate]
  · rfl

/-- A change of a rule does not show in a builder that does not hold it. -/
theorem held_amend_of_ne {id : Nat} {f : Rule → Rule} {b : Nat} (h : ∀ x ∈ e.held b, x.1 ≠ id) :
    (e.amend id f).held b = e.held b := by
  unfold held
  rw [builder_amend]
  simp only [List.map_map]
  refine List.map_congr_left fun r hr => ?_
  have hne : (r.id == id) = false := beq_eq_false_iff_ne.mpr (h _ (mem_held_of_mem hr))
  show ((if r.id == id then f r else r).id, (if r.id == id then f r else r).gate) = _
  rw [hne]
  rfl

theorem InArea.updateConfiguration (h : e.InArea s) {f : Configuration → Configuration}
    (hf : ∀ cfg, (f cfg).type = cfg.type) (c : Nat) :
    (e.updateConfiguration c f).InArea s ∧ Outside s e (e.updateConfiguration c f) := by
  have hlength : (e.updateConfiguration c f).configurations.length = e.configurations.length := by
    simp [Engine.updateConfiguration]
  refine ⟨⟨h.builders, h.ids, h.numbered⟩, hlength.ge, le_rfl, le_rfl, fun c' _ => ?_,
    fun _ _ _ => .refl _⟩
  rcases configuration_updateConfiguration (e := e) c c' f with heq | heq <;> rw [heq]
  exact hf _

/-- A change of a builder: any one of the area, as long as its rules are, and one that drops rules
of any other. -/
theorem InArea.updateBuilder (h : e.InArea s) {b : Nat} {f : Builder → Builder}
    (hf : (s.builders ≤ b ∧ ∀ x, (∀ r ∈ x.rules, s.ids ≤ r.id) → ∀ r ∈ (f x).rules, s.ids ≤ r.id) ∨
      ∀ x, (f x).rules.Sublist x.rules) :
    (e.updateBuilder b f).InArea s ∧ Outside s e (e.updateBuilder b f) := by
  have hlength : (e.updateBuilder b f).builders.length = e.builders.length := by
    simp [Engine.updateBuilder]
  constructor
  · refine ⟨hlength ▸ h.builders, h.ids, fun b' hb' x hx => ?_⟩
    obtain ⟨r, hr, rfl⟩ := List.mem_map.mp hx
    have hheld : ∀ r ∈ (e.builder b').rules, s.ids ≤ r.id := fun r hr =>
      h.numbered b' hb' _ (mem_held_of_mem hr)
    rw [builder_updateBuilder] at hr
    split at hr
    · rcases hf with ⟨-, hf⟩ | hf
      · exact hf _ hheld r hr
      · exact hheld r ((hf _).subset hr)
    · exact hheld r hr
  · refine ⟨le_rfl, hlength.ge, le_rfl, fun _ _ => rfl, fun b' hb' _ => ?_⟩
    unfold held
    rw [builder_updateBuilder]
    split
    · rcases hf with ⟨hb, -⟩ | hf
      · omega
      · exact (hf _).map _
    · exact .refl _

/-- A change of a rule: any of one of the area, and of any other one that keeps its gate. -/
theorem InArea.amend (h : e.InArea s) {id : Nat} {f : Rule → Rule} (hf : ∀ r, (f r).id = r.id)
    (hid : s.ids ≤ id ∨ ∀ r, (f r).gate = r.gate) :
    (e.amend id f).InArea s ∧ Outside s e (e.amend id f) := by
  constructor
  · refine ⟨by simpa [Engine.amend] using h.builders, h.ids, fun b hb x hx => ?_⟩
    have hmem : x.1 ∈ (e.held b).map Prod.fst := held_amend hf b ▸ List.mem_map_of_mem hx
    obtain ⟨x', hx', heq⟩ := List.mem_map.mp hmem
    exact heq ▸ h.numbered b hb x' hx'
  · refine ⟨by simp [Engine.amend], by simp [Engine.amend], le_rfl, fun c _ => ?_,
      fun b _ hx => ?_⟩
    · rw [configuration_amend]
    · have hsame : (e.amend id f).held b = e.held b := by
        rcases hid with hid | hgate
        · exact held_amend_of_ne fun x hmem => ((hx x hmem).trans_le hid).ne
        · exact held_amend_of_gate hf hgate b
      exact hsame ▸ .refl _

theorem configuration_newConfiguration (cfg : Configuration) (c : Nat) :
    { e with configurations := e.configurations ++ [cfg] }.configuration c =
      if c < e.configurations.length then e.configuration c
      else if c = e.configurations.length then cfg else default := by
  unfold configuration
  rw [List.getElem?_append]
  split
  · rfl
  · rename_i hge
    by_cases hc : c = e.configurations.length
    · simp [hc]
    · rw [List.getElem?_eq_none (by simp only [List.length_singleton]; omega), if_neg hc]
      rfl

theorem builder_newBuilder (x : Builder) (named : List (String × Nat)) (b : Nat) :
    { e with builders := e.builders ++ [x], named }.builder b =
      if b < e.builders.length then e.builder b
      else if b = e.builders.length then x else default := by
  unfold builder
  rw [List.getElem?_append]
  split
  · rfl
  · rename_i hge
    by_cases hb : b = e.builders.length
    · simp [hb]
    · rw [List.getElem?_eq_none (by simp only [List.length_singleton]; omega), if_neg hb]
      rfl

theorem InArea.newConfiguration (h : e.InArea s) (cfg : Configuration) :
    { e with configurations := e.configurations ++ [cfg] }.InArea s ∧
      Outside s e { e with configurations := e.configurations ++ [cfg] } := by
  refine ⟨⟨h.builders, h.ids, h.numbered⟩, by simp, le_rfl, le_rfl, fun c hc => ?_,
    fun _ _ _ => .refl _⟩
  rw [configuration_newConfiguration, if_pos hc]

theorem InArea.newBuilder (h : e.InArea s) {x : Builder} (hx : x.rules = [])
    (named : List (String × Nat)) :
    { e with builders := e.builders ++ [x], named }.InArea s ∧
      Outside s e { e with builders := e.builders ++ [x], named } := by
  constructor
  · refine ⟨?_, h.ids, fun b hb y hy => ?_⟩
    · simp only [List.length_append]
      exact h.builders.trans (Nat.le_add_right _ _)
    · unfold held at hy
      rw [builder_newBuilder] at hy
      split at hy
      · exact h.numbered b hb y hy
      · split at hy
        · rw [hx] at hy
          cases hy
        · cases hy
  · refine ⟨le_rfl, by simp, le_rfl, fun _ _ => rfl, fun b hb _ => ?_⟩
    have hb' : b < e.builders.length := Nat.lt_of_lt_of_le hb h.builders
    have hkept : { e with builders := e.builders ++ [x], named }.held b = e.held b := by
      unfold held
      rw [builder_newBuilder, if_pos hb']
    exact hkept ▸ .refl _

end Engine

/-! ## 2. Steps that stay in an area -/

open Engine

/-- A step that stays in an area from one engine, with a fact about its result. -/
def Action.StaysFrom (s : Area) (x : Action α) (P : α → Prop) (e : Engine) : Prop :=
  (x e).2.InArea s ∧ Outside s e (x e).2 ∧ ∀ a, (x e).1 = .ok a → P a

/-- A step that stays in an area, with a fact about its result. -/
def Action.StaysIn (s : Area) (x : Action α) (P : α → Prop := fun _ => True) : Prop :=
  ∀ e, e.InArea s → Action.StaysFrom s x P e

namespace Action

variable {s : Area} {P : α → Prop} {Q : β → Prop}

theorem StaysFrom.bind {x : Action α} {f : α → Action β} {e : Engine}
    (h : Action.StaysFrom s x P e) (hf : ∀ a, P a → Action.StaysIn s (f a) Q) :
    Action.StaysFrom s (x >>= f) Q e := by
  obtain ⟨hin, hout, hres⟩ := h
  unfold Action.StaysFrom
  rw [bind_apply]
  rcases hx : x e with ⟨r | a, e'⟩ <;> rw [hx] at hin hout hres
  · exact ⟨hin, hout, fun a ha => by cases ha⟩
  · obtain ⟨hin', hout', hres'⟩ := hf a (hres a rfl) e' hin
    exact ⟨hin', hout.trans hout', hres'⟩

namespace StaysIn

theorem pure {a : α} (h : P a) : Action.StaysIn s (pure a) P := fun e he =>
  ⟨he, .refl s e, fun b hb => by cases hb; exact h⟩

theorem throw (f : Fault) : Action.StaysIn s (throw f : Action α) P := fun e he =>
  ⟨he, .refl s e, fun b hb => by cases hb⟩

theorem lift (r : Except Fault α) : Action.StaysIn s (Action.lift r) := fun e he =>
  ⟨he, .refl s e, fun _ _ => trivial⟩

theorem bind {x : Action α} {f : α → Action β} (h : Action.StaysIn s x P)
    (hf : ∀ a, P a → Action.StaysIn s (f a) Q) : Action.StaysIn s (x >>= f) Q :=
  fun e he => (h e he).bind hf

/-- A step that follows one of whose result nothing need be known. -/
theorem andThen {x : Action α} {f : α → Action β} (h : Action.StaysIn s x)
    (hf : ∀ a, Action.StaysIn s (f a) Q) : Action.StaysIn s (x >>= f) Q :=
  h.bind fun a _ => hf a

theorem get_bind {f : Engine → Action α}
    (h : ∀ e, e.InArea s → Action.StaysFrom s (f e) P e) : Action.StaysIn s (get >>= f) P := by
  intro e he
  unfold Action.StaysFrom
  rw [bind_ok (get_apply e)]
  exact h e he

theorem change {f : Engine → Engine}
    (h : ∀ e, e.InArea s → (f e).InArea s ∧ Outside s e (f e)) :
    Action.StaysIn s (modify f) := fun e he =>
  ⟨(h e he).1, (h e he).2, fun _ _ => trivial⟩

/-- A step that changes neither configurations nor builders, and gives out no identity. -/
theorem aside {x : Action α} (h : ∀ e, (x e).2.configurations = e.configurations ∧
    (x e).2.builders = e.builders ∧ (x e).2.nextId = e.nextId) : Action.StaysIn s x := by
  intro e he
  obtain ⟨hc, hb, hid⟩ := h e
  have hcfg : ∀ c, (x e).2.configuration c = e.configuration c := fun c => by
    rw [Engine.configuration, hc, Engine.configuration]
  have hheld : ∀ b, (x e).2.held b = e.held b := fun b => by
    rw [Engine.held, Engine.held, Engine.builder, hb, Engine.builder]
  refine ⟨⟨hb ▸ he.builders, hid ▸ he.ids, fun b hb' x hx => ?_⟩,
    ⟨hc ▸ le_rfl, hb ▸ le_rfl, hid ▸ le_rfl, fun c _ => by rw [hcfg],
      fun b _ _ => hheld b ▸ .refl _⟩, fun _ _ => trivial⟩
  exact he.numbered b hb' x (hheld b ▸ hx)

theorem forM {f : α → Action PUnit} {as : List α} (h : ∀ a ∈ as, Action.StaysIn s (f a)) :
    Action.StaysIn s (as.forM f) := by
  induction as with
  | nil => exact pure trivial
  | cons a as ih =>
    exact andThen (h a List.mem_cons_self) fun _ => ih fun b hb => h b (List.mem_cons_of_mem a hb)

theorem mapM {f : α → Action β} {as : List α} (h : ∀ a ∈ as, Action.StaysIn s (f a) Q) :
    Action.StaysIn s (as.mapM f) fun bs => ∀ b ∈ bs, Q b := by
  induction as with
  | nil =>
    rw [List.mapM_nil]
    exact pure fun b hb => absurd hb List.not_mem_nil
  | cons a as ih =>
    rw [List.mapM_cons]
    refine bind (h a List.mem_cons_self) fun b hb => ?_
    have hrest := ih fun a' ha' => h a' (List.mem_cons_of_mem a ha')
    exact bind hrest fun bs hbs => pure (List.forall_mem_cons.mpr ⟨hb, hbs⟩)

theorem mono {P' : α → Prop} {x : Action α} (h : Action.StaysIn s x P) (hp : ∀ a, P a → P' a) :
    Action.StaysIn s x P' := fun e he =>
  ⟨(h e he).1, (h e he).2.1, fun a ha => hp a ((h e he).2.2 a ha)⟩

theorem weaken {x : Action α} (h : Action.StaysIn s x P) : Action.StaysIn s x :=
  h.mono fun _ _ => trivial

/-! ### Parts of the engine -/

theorem schema : Action.StaysIn s Action.schema := aside fun _ => ⟨rfl, rfl, rfl⟩

theorem note (logger name : String) (fields : Details) :
    Action.StaysIn s (Action.note logger name fields) := aside fun _ => ⟨rfl, rfl, rfl⟩

theorem report (r : Report) : Action.StaysIn s (Action.report r) := aside fun _ => ⟨rfl, rfl, rfl⟩

theorem updateRegistry (f : Registry → Registry) : Action.StaysIn s (Action.updateRegistry f) :=
  aside fun _ => ⟨rfl, rfl, rfl⟩

theorem view (rs : List Rule) : Action.StaysIn s (Action.view rs) := by
  refine get_bind fun e he => ?_
  exact (mapM (Q := fun _ => True) fun r _ => andThen (lift _) fun _ => pure trivial).weaken e he

theorem members (t : TypeId) : Action.StaysIn s (Action.members t) :=
  andThen schema fun _ => aside fun _ => ⟨rfl, rfl, rfl⟩

theorem select (t : TypeId) (sel : Selector) : Action.StaysIn s (Action.select t sel) :=
  get_bind fun e he => lift _ e he

theorem freshId : Action.StaysIn s Action.freshId fun id => s.ids ≤ id := by
  intro e he
  refine ⟨⟨he.builders, Nat.le_succ_of_le he.ids, he.numbered⟩,
    ⟨le_rfl, le_rfl, Nat.le_succ _, fun _ _ => rfl, fun _ _ _ => .refl _⟩, fun id hid => ?_⟩
  cases hid
  exact he.ids

theorem numbered (rs : List Rule) : Action.StaysIn s (Action.numbered rs) := fun _ he =>
  ⟨⟨he.builders, he.ids.trans (Nat.le_add_right _ _), he.numbered⟩,
    ⟨le_rfl, le_rfl, Nat.le_add_right _ _, fun _ _ => rfl, fun _ _ _ => .refl _⟩,
    fun _ _ => trivial⟩

theorem updateConfiguration {f : Configuration → Configuration} (c : Nat)
    (hf : ∀ cfg, (f cfg).type = cfg.type) :
    Action.StaysIn s (Action.updateConfiguration c f) :=
  change fun _ he => he.updateConfiguration hf c

theorem updateBuilder {b : Nat} (hb : s.builders ≤ b) {f : Builder → Builder}
    (hf : ∀ x, (∀ r ∈ x.rules, s.ids ≤ r.id) → ∀ r ∈ (f x).rules, s.ids ≤ r.id) :
    Action.StaysIn s (modify (Engine.updateBuilder b f) : Action Unit) :=
  change fun _ he => he.updateBuilder (.inl ⟨hb, hf⟩)

/-- A step that drops rules of a builder. -/
theorem dropFrom (b : Nat) {f : Builder → Builder} (hf : ∀ x, (f x).rules.Sublist x.rules) :
    Action.StaysIn s (modify (Engine.updateBuilder b f) : Action Unit) :=
  change fun _ he => he.updateBuilder (.inr hf)

theorem amend {id : Nat} (hid : s.ids ≤ id) {f : Rule → Rule} (hf : ∀ r, (f r).id = r.id) :
    Action.StaysIn s (modify (Engine.amend id f) : Action Unit) :=
  change fun _ he => he.amend hf (.inl hid)

/-- A step that changes a rule, but not its gate. -/
theorem amendBesideGate (id : Nat) {f : Rule → Rule} (hf : ∀ r, (f r).id = r.id)
    (hgate : ∀ r, (f r).gate = r.gate) :
    Action.StaysIn s (modify (Engine.amend id f) : Action Unit) :=
  change fun _ he => he.amend hf (.inr hgate)

/-- A builder of the area holds rules of the area. -/
theorem builder {b : Nat} (hb : s.builders ≤ b) :
    Action.StaysIn s (Action.builder b) fun x => ∀ r ∈ x.rules, s.ids ≤ r.id :=
  get_bind fun _ he => pure (fun _ hr => he.numbered b hb _ (mem_held_of_mem hr)) _ he

end StaysIn
end Action
end MemberRules
