/-
# What a validation makes of the registry

A validation registers the declared rules of a nested type when it comes to a rule that asks for
them, if the type is not known.  This is all that it does to the registry.  What the registry held
before is still there and in its place: the rules of every type that was known, the order of their
members, and whether they are complete.  A type that is new stands behind all others, its rules are
its declared ones, and they are complete.  So a registry that knows all nested types beforehand is
left exactly as it was.

* `Registry.Wants`: a type whose declared rules a validation by the rules of another one asks for.
* `Registry.Grows`: one registry comes from another by registering wanted types, one by one.
* `Registry.Extends`: what such a registry still holds, and what is new in it.
* `visitObject_grown`: validating an object lets the registry grow, whether it ends well or not.
* `validation_extends_registry`: what a validation makes of the registry.
-/
import MemberRules.Proofs.Model.Effects
import MemberRules.Proofs.Registry.Adaptation
import MemberRules.Proofs.Registry.Nested
import MemberRules.Proofs.Waiting.Agreement

namespace MemberRules

open MemberRules.Computation

/-- What is done to an entry that the front of an association list does not hold leaves the front
alone. -/
theorem prefix_updateEntry {κ α : Type} [BEq κ] [LawfulBEq κ] {k : κ} {default : α} {f : α → α}
    {front es : List (κ × α)} (h : front <+: es) (hnew : front.lookup k = none) :
    front <+: updateEntry k default f es := by
  induction front generalizing es with
  | nil => exact List.nil_prefix
  | cons x front ih =>
    obtain ⟨rest, rfl⟩ := h
    rw [List.lookup_cons] at hnew
    split at hnew
    · cases hnew
    · rename_i hne
      have hkey : (x.1 == k) = false := by
        rw [BEq.comm]
        exact hne
      rw [List.cons_append, updateEntry, if_neg (by rw [hkey]; exact Bool.false_ne_true)]
      exact List.cons_prefix_cons.mpr ⟨rfl, ih (List.prefix_append _ _) hnew⟩

namespace Registry

variable {s : Schema} {t u v : TypeId} {reg reg₁ reg₂ : Registry} {ms : List MemberInfo}
  {rs : List Rule}

/-! ## 1. Registries that keep what they hold -/

/-- A registry in which nothing has changed for the types that another one knows. -/
def KeepsKnown (reg reg₁ : Registry) : Prop := ∀ u, reg.knows u = true → Untouched u reg reg₁

theorem Untouched.refl (u : TypeId) (reg : Registry) : Untouched u reg reg := ⟨rfl, rfl, rfl⟩

theorem Untouched.trans (h : Untouched u reg reg₁) (h₁ : Untouched u reg₁ reg₂) :
    Untouched u reg reg₂ :=
  ⟨h₁.groups.trans h.groups, h₁.built.trans h.built, h₁.known.trans h.known⟩

theorem Untouched.rulesOf (h : Untouched u reg reg₁) : reg₁.rulesOf u = reg.rulesOf u := by
  unfold Registry.rulesOf groupsOf
  rw [h.groups]

theorem Untouched.shown (h : Untouched u reg reg₁) : reg₁.shown u = reg.shown u := by
  unfold Registry.shown groupsOf
  rw [h.groups]

theorem KeepsKnown.trans (h : KeepsKnown reg reg₁) (h₁ : KeepsKnown reg₁ reg₂) :
    KeepsKnown reg reg₂ := fun u hu =>
  (h u hu).trans (h₁ u ((h u hu).known.trans hu))

/-- A type with rules is known. -/
theorem knows_of_mem_rulesOf {r : Rule} (h : r ∈ reg.rulesOf u) : reg.knows u = true := by
  by_contra hunknown
  have hempty := allGroups_of_not_knows (Bool.eq_false_iff.mpr hunknown)
  obtain ⟨g, hg, -⟩ := mem_rulesOf_iff.mp h
  rw [hempty] at hg
  cases hg

/-- The rules that were there are still there. -/
theorem KeepsKnown.mem_rulesOf (h : KeepsKnown reg reg₁) {r : Rule} (hr : r ∈ reg.rulesOf u) :
    r ∈ reg₁.rulesOf u := by
  rw [(h u (knows_of_mem_rulesOf hr)).rulesOf]
  exact hr

theorem Reaches.kept (h : reg.Reaches t u) (hkept : KeepsKnown reg reg₁) : reg₁.Reaches t u := by
  induction h with
  | refl => exact .refl
  | step _ hr hv ih => exact ih.step (hkept.mem_rulesOf hr) hv

/-- A type whose declared rules a validation by the rules of another one asks for. -/
def Wants (reg : Registry) (t u : TypeId) : Prop :=
  ∃ v, reg.Reaches t v ∧ ∃ r ∈ reg.rulesOf v, r.nestedModel? = some u

theorem Wants.of_reaches (h : reg.Wants u v) (hu : reg.Reaches t u) : reg.Wants t v := by
  obtain ⟨w, hw, hr⟩ := h
  exact ⟨w, hu.trans hw, hr⟩

theorem Wants.kept (h : reg.Wants t u) (hkept : KeepsKnown reg reg₁) : reg₁.Wants t u := by
  obtain ⟨w, hw, r, hr, hu⟩ := h
  exact ⟨w, hw.kept hkept, r, hkept.mem_rulesOf hr, hu⟩

theorem Wants.reaches (h : reg.Wants t u) : reg.Reaches t u := by
  obtain ⟨w, hw, r, hr, hu⟩ := h
  exact hw.step hr (Rule.nestedType?_of_nestedModel? hu)

/-! ## 2. Registering the declared rules of a type that is not known -/

theorem knows_eq_false_iff :
    reg.knows u = false ↔ reg.marks.lookup u = none ∧ reg.groups.lookup u = none := by
  unfold knows
  simp

/-- The type stands behind all others. -/
theorem prefix_groups_addAll {front : List (TypeId × List RuleGroup)} (h : front <+: reg.groups)
    (hnew : front.lookup u = none) (rs : List Rule) : front <+: (reg.addAll u rs).groups := by
  induction rs generalizing reg with
  | nil => exact h
  | cons r rs ih =>
    have hadded : front <+: (reg.add u r).groups := prefix_updateEntry h hnew
    exact ih hadded

theorem untouched_registering (h : v ≠ u) (reg : Registry) (rs : List Rule) :
    Untouched v reg (reg.registering (u, rs)) :=
  have hother : ¬ (Call.addAll u rs true).IsAbout v := Ne.symm h
  untouched_apply hother reg

theorem keepsKnown_registering (hnew : reg.knows u = false) (rs : List Rule) :
    KeepsKnown reg (reg.registering (u, rs)) := by
  intro v hv
  refine untouched_registering (fun h => ?_) reg rs
  rw [h, hnew] at hv
  cases hv

theorem isBuilt_registering (reg : Registry) (u : TypeId) (rs : List Rule) :
    (reg.registering (u, rs)).isBuilt u = true := isBuilt_mark true

/-- The rules of the type are those that were registered. -/
theorem rulesOf_registering (hnew : reg.knows u = false) (hread : s.Reads u ms)
    (hrs : rs.map Rule.value = ms.flatMap (MemberInfo.placedRules s u)) :
    (reg.registering (u, rs)).rulesOf u = rs := by
  have hempty : (reg.allGroups u).map RuleGroup.keys <+: (placedGroups s u ms).map RuleGroup.keys := by
    rw [allGroups_of_not_knows hnew]
    exact List.nil_prefix
  exact (rulesOf_addAll placedGroups_proper (placedGroups_nodup hread.nodup)
    (hrs.trans (rules_placedGroups s u ms).symm) hempty).1

/-- The groups of the type are those that its members make. -/
theorem shown_registering (hnew : reg.knows u = false) (hread : s.Reads u ms)
    (hrs : rs.map Rule.value = ms.flatMap (MemberInfo.placedRules s u)) :
    (reg.registering (u, rs)).shown u = placedGroups s u ms :=
  shown_addAll placedGroups_proper member_of_mem_placedGroups (placedGroups_nodup hread.nodup)
    (hrs.trans (rules_placedGroups s u ms).symm) (allGroups_of_not_knows hnew)

/-- The types that the new rules ask for are wanted by the type. -/
theorem wants_registering (hnew : reg.knows u = false) (hread : s.Reads u ms)
    (hrs : rs.map Rule.value = ms.flatMap (MemberInfo.placedRules s u)) :
    ∀ v ∈ Action.nestedModels rs, (reg.registering (u, rs)).Wants u v := by
  intro v hv
  obtain ⟨r, hr, hrv⟩ := List.mem_filterMap.mp hv
  refine ⟨u, .refl, r, ?_, hrv⟩
  rwa [rulesOf_registering hnew hread hrs]

/-! ## 3. Growing -/

/-- A registry that comes from another one by registering, one by one, the declared rules of types
that the rules of a type lead to and that were not known. -/
inductive Grows (s : Schema) (t : TypeId) (reg : Registry) : Registry → Prop
  | refl : Grows s t reg reg
  | register {reg₁ : Registry} {u : TypeId} {ms : List MemberInfo} {rs : List Rule} :
      Grows s t reg reg₁ → reg₁.Wants t u → reg₁.knows u = false → s.Reads u ms →
      rs.map Rule.value = ms.flatMap (MemberInfo.placedRules s u) →
      Grows s t reg (reg₁.registering (u, rs))

theorem Grows.trans (h : Grows s t reg reg₁) (h₁ : Grows s t reg₁ reg₂) : Grows s t reg reg₂ := by
  induction h₁ with
  | refl => exact h
  | register _ hwants hnew hread hrs ih => exact ih.register hwants hnew hread hrs

theorem Grows.keepsKnown (h : Grows s t reg reg₁) : KeepsKnown reg reg₁ := by
  induction h with
  | refl => exact fun u _ => .refl u reg
  | register _ _ hnew _ _ ih => exact ih.trans (keepsKnown_registering hnew _)

/-- What grows by the rules of a nested type grows by those of the type that leads to it. -/
theorem Grows.of_reaches (h : Grows s u reg reg₁) (hu : reg.Reaches t u) : Grows s t reg reg₁ := by
  induction h with
  | refl => exact .refl
  | register hgrows hwants hnew hread hrs ih =>
    exact ih.register (hwants.of_reaches (hu.kept hgrows.keepsKnown)) hnew hread hrs

/-- A registry that holds what another one holds, in its place, and beyond this the declared rules
of types that the rules of a type lead to. -/
structure Extends (s : Schema) (t : TypeId) (reg reg₁ : Registry) : Prop where
  /-- The types with rules stand in their order, with the rules that they had. -/
  groups : reg.groups <+: reg₁.groups
  /-- The types that were marked stand in their order, with their marks. -/
  marks : reg.marks <+: reg₁.marks
  /-- Nothing has changed for a type that was known. -/
  known : KeepsKnown reg reg₁
  /-- A type that has become known is one whose declared rules are asked for; it has just these
  rules, member by member, and they are complete. -/
  new : ∀ u, reg.knows u = false → reg₁.knows u = true →
    reg₁.Wants t u ∧ reg₁.isBuilt u = true ∧ ∃ ms, s.Reads u ms ∧
      reg₁.shown u = placedGroups s u ms ∧ Adapts s u ms (reg₁.rulesOf u)

/-- **A registry that has grown extends the one that it came from.** -/
theorem Grows.extends (h : Grows s t reg reg₁) : Extends s t reg reg₁ := by
  induction h with
  | refl =>
    refine ⟨List.prefix_rfl, List.prefix_rfl, fun u _ => .refl u reg, fun u hnew hknown => ?_⟩
    rw [hnew] at hknown
    cases hknown
  | @register reg₁ u ms rs hgrows hwants hnew hread hrs ih =>
    have hkeeps : KeepsKnown reg₁ (reg₁.registering (u, rs)) := keepsKnown_registering hnew rs
    obtain ⟨hmarks, hgroups⟩ := knows_eq_false_iff.mp hnew
    refine ⟨?_, ?_, ih.known.trans hkeeps, fun v hv hv₁ => ?_⟩
    · exact ih.groups.trans (prefix_groups_addAll List.prefix_rfl hgroups rs)
    · refine ih.marks.trans ?_
      have hadded : (reg₁.addAll u rs).marks = reg₁.marks := marks_addAll reg₁ u rs
      exact prefix_updateEntry (hadded ▸ List.prefix_rfl) hmarks
    · by_cases h : v = u
      · subst h
        have hrules := rulesOf_registering hnew hread hrs
        exact ⟨hwants.kept hkeeps, isBuilt_registering reg₁ v rs, ms, hread,
          shown_registering hnew hread hrs, hrules.symm ▸ adapts_of_value hread.nodup hrs⟩
      · have huntouched := untouched_registering h reg₁ rs
        obtain ⟨hw, hbuilt, ms', hread', hshown, hadapts⟩ := ih.new v hv (huntouched.known ▸ hv₁)
        exact ⟨hw.kept hkeeps, huntouched.built.trans hbuilt, ms', hread',
          huntouched.shown.trans hshown, huntouched.rulesOf.symm ▸ hadapts⟩

/-- **A registry that knows all nested types does not grow.** -/
theorem Grows.eq_of_covers (h : Grows s t reg reg₁) (hcov : reg.Covers t) : reg₁ = reg := by
  induction h with
  | refl => rfl
  | register _ hwants hnew _ _ ih =>
    subst ih
    obtain ⟨v, hv, r, hr, hu⟩ := hwants
    rw [hcov v hv r hr _ hu] at hnew
    cases hnew

end Registry

/-! ## 4. Steps that let the registry grow -/

/-- An engine whose registry has grown from a given one. -/
structure Engine.Grown (s : Schema) (t : TypeId) (reg : Registry) (e : Engine) : Prop where
  schema : e.world.schema = s
  faithful : s.Faithful e.reflected
  grows : reg.Grows s t e.registry

section

open Engine (Grown)
open Action (Keeps)

variable {s : Schema} {t u : TypeId} {reg : Registry} {e e' : Engine}

/-- A registry that has gone on growing. -/
theorem Engine.Grown.trans (he : e.Grown s t reg) (h : e'.Grown s t e.registry) :
    e'.Grown s t reg := ⟨h.schema, h.faithful, he.grows.trans h.grows⟩

/-- A registry that has gone on growing by the rules of a nested type. -/
theorem Engine.Grown.inside (he : e.Grown s t reg) (hu : e.registry.Reaches t u)
    (h : e'.Grown s u e.registry) : e'.Grown s t reg :=
  ⟨h.schema, h.faithful, he.grows.trans (h.grows.of_reaches hu)⟩

/-- An engine whose registry has not grown yet. -/
theorem Engine.Grown.start (he : e.Grown s t reg) : e.Grown s t e.registry :=
  ⟨he.schema, he.faithful, .refl⟩

namespace Action

variable {α : Type}

theorem eval_grown {x : Eval α} (hx : x.KeepsTypes) : Keeps (Grown s t reg) (eval x) := fun e he =>
  ⟨⟨(hx e.world).trans he.schema, he.faithful, he.grows⟩, fun _ _ => trivial⟩

theorem note_grown (logger name : String) (fields : Details) :
    Keeps (Grown s t reg) (note logger name fields) :=
  .change fun _ he => ⟨he.schema, he.faithful, he.grows⟩

theorem message_grown (w : Message.Wanted) (object : Value) :
    Keeps (Grown s t reg) (message w object) := by
  refine .bind (P := fun _ => True) ?_ fun computed _ => .get_bind fun e he => ?_
  · unfold computedText
    split
    · refine .andThen (eval_grown (Expr.eval_keepsTypes _ _)) fun v => .get_bind fun e he => ?_
      exact Keeps.andThen (Keeps.lift _).weaken (fun _ => .pure trivial) e he
    · exact .pure trivial
  · exact ⟨⟨he.schema, he.faithful, he.grows⟩, fun _ _ => trivial⟩

/-- A step by the rules of a nested type lets the registry grow by the rules of the type that leads
to it. -/
theorem Keeps.inside {x : Action α} (hx : ∀ reg, Keeps (Grown s u reg) x) (hu : reg.Reaches t u) :
    Keeps (Grown s t reg) x := fun e he =>
  have hstart : e.Grown s u e.registry := ⟨he.schema, he.faithful, .refl⟩
  ⟨he.inside (hu.kept he.grows.keepsKnown) (hx e.registry e hstart).1, fun _ _ => trivial⟩

/-- Deriving the declared rules of a type leaves the registry alone, and gives what its members
make. -/
theorem declaredRules_grown (u : TypeId) (he : e.Grown s t reg) :
    (declaredRules u e).2.Grown s t reg ∧ (declaredRules u e).2.registry = e.registry ∧
      ∀ rs, (declaredRules u e).1 = .ok rs → ∃ ms, s.Reads u ms ∧
        rs.map Rule.value = ms.flatMap (MemberInfo.placedRules s u) := by
  obtain rfl := he.schema
  obtain ⟨hfaithful, hreads⟩ := Schema.faithful_reflect _ u he.faithful
  obtain ⟨hworld, hregistry, hreflected⟩ := declaredRules_leaves u e
  refine ⟨⟨congrArg World.schema hworld, hreflected ▸ hfaithful, hregistry ▸ he.grows⟩, hregistry,
    fun rs hrs => ?_⟩
  obtain ⟨ms, hread, -, hvalue, -⟩ := declaredRules_eq_ok (Prod.ext hrs rfl)
  exact ⟨ms, hreads ms (congrArg Prod.fst hread), hvalue⟩

theorem addRules_grown (he : e.Grown s t e.registry) (rs : List Rule) :
    (addRules u rs true e).2.Grown s t (e.registry.registering (u, rs)) :=
  ⟨he.schema, he.faithful, .refl⟩

/-- **Registering the declared rules of a wanted type, and of the types nested in it.** -/
theorem ensureWithin_grown (depth : Nat) (hu : reg.Wants t u) :
    Keeps (Grown s t reg) (ensureWithin depth u) := by
  induction depth generalizing u reg with
  | zero => exact .throw _
  | succ depth ih =>
    refine .get_bind fun e he => ?_
    split
    · exact Keeps.pure trivial e he
    · rename_i hunknown
      have hnew : e.registry.knows u = false := by simpa using hunknown
      obtain ⟨hderived, hregistry, hrules⟩ := declaredRules_grown u he.start
      unfold KeepsFrom
      rw [bind_apply]
      rcases hrun : declaredRules u e with ⟨f | rs, e₁⟩ <;> rw [hrun] at hderived hregistry hrules
      · exact ⟨he.trans hderived, fun _ h => by cases h⟩
      · obtain ⟨ms, hread, hrs⟩ := hrules rs rfl
        have hwants : e.registry.Wants t u := hu.kept he.grows.keepsKnown
        have hadd : addRules u rs true e₁ = (.ok (), (addRules u rs true e₁).2) := rfl
        have hadded := addRules_grown hderived.start rs (u := u)
        rw [hregistry] at hadded
        dsimp only
        rw [bind_ok hadd]
        have hreach : (e.registry.registering (u, rs)).Reaches t u :=
          hwants.reaches.kept (Registry.keepsKnown_registering hnew rs)
        have hnested : ∀ v ∈ nestedModels rs, (e.registry.registering (u, rs)).Wants t v :=
          fun v hv => (Registry.wants_registering hnew hread hrs v hv).of_reaches hreach
        obtain ⟨hend, -⟩ := Keeps.forM (fun v hv => ih (hnested v hv)) _ hadded
        refine ⟨⟨hend.schema, hend.faithful, ?_⟩, fun _ _ => trivial⟩
        exact (he.grows.register hwants hnew hread hrs).trans hend.grows

theorem ensure_grown (hu : reg.Wants t u) : Keeps (Grown s t reg) (ensure u) :=
  .get_bind fun e he => ensureWithin_grown (e.world.schema.types.length + 2) hu e he

end Action

namespace Validation

open Action (eval_grown message_grown ensure_grown note_grown)

/-! ## 5. Validations -/

variable {α : Type} {d : Drive} {nested : Value → TypeId → String → Finding}

theorem collect_grown {f : α → Finding} {as : List α}
    (h : ∀ a ∈ as, Keeps (Grown s t reg) (f a)) : Keeps (Grown s t reg) (collect f as) := by
  induction as with
  | nil => exact .pure trivial
  | cons a as ih =>
    refine .andThen (h a List.mem_cons_self) fun _ => .andThen (ih fun b hb => ?_) fun _ =>
      .pure trivial
    exact h b (List.mem_cons_of_mem a hb)

theorem applyCheck_grown (d : Drive) (r : Rule) (a : Attribute) (pos : Position) (v : Value) :
    Keeps (Grown s t reg) (applyCheck d r a pos v) := by
  refine .andThen (eval_grown (a.check.runWith_keepsTypes d v pos.owner)) fun outcome => ?_
  split
  · exact .pure trivial
  · have hmessage : Keeps (Grown s t reg) (messageOf r a pos outcome.message) := by
      unfold messageOf
      split
      · exact .pure trivial
      · exact message_grown _ _
    exact hmessage.andThen fun _ => .andThen (Action.Keeps.lift _).weaken fun _ => .pure trivial

/-- A rule lets the registry grow, if validating a nested value does. -/
theorem applyRule_grown
    (hn : ∀ u reg v path, Keeps (Grown s u reg) (nested v u path)) {r : Rule} {a : Attribute}
    (hr : r ∈ reg.rulesOf t) (ha : r.validator = some a) (pos : Position) (v : Value) :
    Keeps (Grown s t reg) (applyRule nested d r a pos v) := by
  have hc : r.check? = some a.check := by simp [Rule.check?, ha]
  have hinside : ∀ u, a.check.nestedType? = some u → ∀ v path,
      Keeps (Grown s t reg) (nested v u path) := fun u hu v path =>
    have htype : r.nestedType? = some u := by simp [Rule.nestedType?, hc, hu]
    Action.Keeps.inside (fun reg => hn u reg v path) (.step .refl hr htype)
  have hwants : ∀ u, a.check.nestedModel? = some u → reg.Wants t u := fun u hu =>
    ⟨t, .refl, r, hr, by simp [Rule.nestedModel?, hc, hu]⟩
  unfold applyRule
  split
  · exact .pure trivial
  · exact .pure trivial
  · exact .pure trivial
  · rename_i u hu _
    exact hinside u (by rw [hu]; rfl) _ _
  · rename_i u hu _
    exact .andThen (ensure_grown (hwants u (by rw [hu]; rfl))) fun _ =>
      hinside u (by rw [hu]; rfl) _ _
  · rename_i u hu _
    exact .andThen (ensure_grown (hwants u (by rw [hu]; rfl))) fun _ =>
      hinside u (by rw [hu]; rfl) _ _
  · exact applyCheck_grown d r a pos _

theorem visitRule_grown
    (hn : ∀ u reg v path, Keeps (Grown s u reg) (nested v u path)) {r : Rule}
    (hr : r ∈ reg.rulesOf t) (pos : Position) (v : Value) :
    Keeps (Grown s t reg) (visitRule nested d pos v r) := by
  unfold visitRule
  split
  · exact .pure trivial
  · rename_i a ha
    refine .andThen (eval_grown (r.gate.isOpen_keepsTypes d pos.owner)) fun isOpen => ?_
    split
    · exact .pure trivial
    · split
      · refine .get_bind fun e he => ?_
        exact collect_grown (fun _ _ => applyRule_grown hn hr ha _ _) e he
      · exact applyRule_grown hn hr ha _ _

theorem provided_grown (g : RuleGroup) (owner : Value) :
    Keeps (Grown s t reg) (provided g owner) := by
  refine .andThen (eval_grown (g.member.read_keepsTypes owner)) fun _ => ?_
  split
  · exact .pure trivial
  · exact .andThen (eval_grown (Expr.eval_keepsTypes _ _)) fun given =>
      .andThen (eval_grown (g.member.write_keepsTypes owner given)) fun _ => .pure trivial

theorem visitMember_grown
    (hn : ∀ u reg v path, Keeps (Grown s u reg) (nested v u path)) {g : RuleGroup}
    (hg : g ∈ reg.groupsOf t) (owner : Value) (path : String) :
    Keeps (Grown s t reg) (visitMember nested d owner t path g) := by
  unfold visitMember
  split
  · exact .pure trivial
  · refine .andThen (provided_grown g owner) fun v => collect_grown fun r hr => ?_
    exact visitRule_grown hn (Registry.mem_rulesOf hg hr) _ v

theorem requireBuilt_grown (u : TypeId) : Keeps (Grown s t reg) (requireBuilt u) := by
  refine .get_bind fun e he => ?_
  dsimp only
  split
  · exact Action.Keeps.throw _ e he
  · exact Action.Keeps.pure trivial e he

/-- **Validating an object lets the registry grow**, whether it ends well or not.  The induction is
on the depth; the rules of a member are those of the registry as it is when the object is entered,
and it has grown since then. -/
theorem visitObject_grown (d : Drive) (depth : Nat) (owner : Value) (path : String) :
    Keeps (Grown s t reg) (visitObject d depth owner t path) := by
  induction depth generalizing t reg owner path with
  | zero => exact .throw _
  | succ depth ih =>
    refine .andThen (requireBuilt_grown t) fun _ => .get_bind fun e he => ?_
    have hmembers : Keeps (Grown s t e.registry)
        (collect (visitMember (visitObject d depth) d owner t path) (e.registry.groupsOf t)) := by
      exact collect_grown fun g hg => visitMember_grown (fun u reg v path => ih v path) hg owner path
    exact ⟨he.trans (hmembers e he.start).1, fun _ _ => trivial⟩

theorem run_grown (d : Drive) (owner : Value) : Keeps (Grown s t reg) (run d owner t) :=
  .andThen (visitObject_grown d _ _ _) fun _ => .andThen (note_grown _ _ _) fun _ => .pure trivial

variable {own : TypeId} {value : Value}

theorem validate_grown (h : (rulesType t value e).1 = .ok own) (he : e.Grown s own reg) :
    (validate t value e).2.Grown s own reg := by
  rw [validate_apply h]
  rcases e.registry.waits own with f | b
  · exact he
  · cases b with
    | false => exact (run_grown _ _ e he).1
    | true => exact (run_grown _ _ _ (note_grown _ _ _ e he).1).1

theorem validatePatiently_grown (limit : Option Bool) (h : (rulesType t value e).1 = .ok own)
    (he : e.Grown s own reg) : (validatePatiently t value limit e).2.Grown s own reg := by
  have hown : rulesType t value e = (.ok own, e) := Prod.ext h (rulesType_snd t value e)
  unfold validatePatiently
  rw [bind_ok hown]
  cases limit <;> exact (run_grown _ _ e he).1

/-- A validation at once or with time to wait, and the drive under which its results are found. -/
inductive IsValidation (t : TypeId) (value : Value) : Drive → Action ValidationResult → Prop
  | atOnce : IsValidation t value .patient (validate t value)
  | patient : IsValidation t value .patient (validatePatiently t value none)
  | limited (exhausted : Bool) :
    IsValidation t value (.limited exhausted) (validatePatiently t value (some exhausted))

/-- **What a validation makes of the registry**, whether it gives a result or fails.  If there is no
type to validate by, it leaves the registry alone.  Otherwise the registry afterwards extends the one
before by declared rules that were asked for; and if all nested types were known, it is the same. -/
theorem validation_extends_registry {x : Action ValidationResult}
    (hfaithful : e.world.schema.Faithful e.reflected) (hx : IsValidation t value d x) :
    (∀ f, (rulesType t value e).1 = .error f → (x e).2.registry = e.registry) ∧
      ∀ own, (rulesType t value e).1 = .ok own →
        e.registry.Extends e.world.schema own (x e).2.registry ∧
          (e.registry.Covers own → (x e).2.registry = e.registry) := by
  constructor
  · intro f hf
    cases hx with
    | atOnce => rw [validate_of_error hf]
    | patient | limited => rw [validatePatiently_of_error hf]
  · intro own hown
    have hstart : e.Grown e.world.schema own e.registry := ⟨rfl, hfaithful, .refl⟩
    have hend : (x e).2.Grown e.world.schema own e.registry := by
      cases hx with
      | atOnce => exact validate_grown hown hstart
      | patient | limited => exact validatePatiently_grown _ hown hstart
    exact ⟨hend.grows.extends, hend.grows.eq_of_covers⟩

/-! ### A letter whose address was not known

The address of a letter is to be validated by the declared rules of addresses, and no one has asked
for these before. -/

/-- The engine in which letters are configured and no members are in mind. -/
def Letter.prepared : Engine :=
  { Letter.engine with
    registry := (Letter.configured (.declared "Letter") Letter.steps Letter.engine).registry
    validated := [.declared "Letter"] }

/-- The engine after a letter has been validated. -/
def Letter.validated : Engine :=
  (validatePatiently (.declared "Letter") (.object 1) none Letter.prepared).2

/-- Validating a letter makes addresses known, by their declared rules. -/
theorem letter_extends_registry :
    Letter.prepared.registry.Extends Letter.schema (.declared "Letter") Letter.validated.registry ∧
      Letter.prepared.registry.knows (.declared "Address") = false ∧
      Letter.validated.registry.knows (.declared "Address") = true := by
  have hown : (rulesType (.declared "Letter") (.object 1) Letter.prepared).1 =
      .ok (.declared "Letter") := congrArg Prod.fst (eq_ok_of_toOption (by decide +kernel))
  have hfaithful : Letter.schema.Faithful Letter.prepared.reflected := Schema.faithful_nil _
  obtain ⟨hextends, -⟩ := (validation_extends_registry hfaithful .patient).2 _ hown
  exact ⟨hextends, by decide +kernel, by decide +kernel⟩

/-- **A validation does not always leave the registry alone**, even if it was prepared. -/
theorem not_validation_keeps_registry :
    ¬ ∀ (e : Engine) (t : TypeId) (steps : List TypeStep) (v : Value) (d : Drive)
      (x : Action ValidationResult),
      (Letter.configured t steps e).validated.contains t = true → IsValidation t v d x →
        (x (Letter.configured t steps e)).2.registry = (Letter.configured t steps e).registry := by
  intro h
  have hsame := h Letter.engine (.declared "Letter") Letter.steps (.object 1) _ _ (by decide +kernel)
    .patient
  have hknows := congrArg (fun reg => reg.knows (.declared "Address")) hsame
  have hbefore : (Letter.configured (.declared "Letter") Letter.steps Letter.engine).registry.knows
      (.declared "Address") = false := by decide +kernel
  have hafter : (validatePatiently (.declared "Letter") (.object 1) none
      (Letter.configured (.declared "Letter") Letter.steps Letter.engine)).2.registry.knows
        (.declared "Address") = true := by decide +kernel
  rw [hbefore, hafter] at hknows
  cases hknows

end Validation

end
end MemberRules
