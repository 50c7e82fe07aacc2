/-
# The culture of the surroundings

A message is given under the culture of its rule, or else under the shared one, and only if there is
neither, under the culture of the surroundings.  So if every rule that a validation can come to has
a culture of its own, or all of them share one, the surroundings play no part: two validations that
differ in them alone go through the same steps, look up the same strings, remember them under the
same names, and end the same.

A validation also comes to the declared rules of types that it registers on its way, and these never
have a culture of their own.

* `Rule.HasCulture`: a rule whose messages do not depend on the surroundings.
* `Registry.MayApply`: the rules that a validation can come to, registered before or on the way.
* `Engine.Abroad`: engines that differ in their surroundings; `visitObject_abroad` says that the
  validation of an object does not.
* `validation_of_ambient`: a validation gives the same in all surroundings, and leaves the same.
-/
import MemberRules.Proofs.Message.Memory
import MemberRules.Proofs.Registry.Growth
import MemberRules.Proofs.Validation.Task

namespace MemberRules

open MemberRules.Computation

variable {α β : Type}

/-! ## 1. Messages -/

/-- A rule whose messages have a culture of their own, or the shared one. -/
def Rule.HasCulture (options : Options) (r : Rule) : Prop :=
  r.culture.isSome = true ∨ options.sharedCulture.isSome = true

namespace Message

variable {s : Sources} {w : Wanted} {ambient : Option Culture}

/-- What messages are looked up in, under another culture of the surroundings. -/
def Sources.under (ambient : Option Culture) (s : Sources) : Sources := { s with ambient }

/-- The culture of a rule or the shared one comes before that of the surroundings. -/
theorem cultureFor_of_hasCulture {r : Rule} (h : r.HasCulture s.options)
    (ambient : Option Culture) :
    cultureFor (s.under ambient) (some r) = cultureFor s (some r) := by
  unfold cultureFor Sources.under
  rw [Option.bind_some]
  cases hown : r.culture with
  | some c => rfl
  | none =>
    rcases h with h | h
    · rw [hown] at h
      cases h
    · obtain ⟨c, hc⟩ := Option.isSome_iff_exists.mp h
      simp only [hc, Option.none_or, Option.some_or]

/-- An origin of a message knows of the surroundings by the culture of the message alone. -/
theorem text?_of_ambient (h : cultureFor (s.under ambient) w.rule = cultureFor s w.rule)
    (computed : Option String) (o : Origin) :
    o.text? (s.under ambient) w computed = o.text? s w computed := by
  have hfrom : ∀ resource key,
      fromResource (s.under ambient) w resource key = fromResource s w resource key := by
    intro resource key
    unfold fromResource
    rw [h]
    rfl
  have hresource : resourceFor (s.under ambient) w = resourceFor s w := rfl
  have huses : usesConventionalKey (s.under ambient) w.rule = usesConventionalKey s w.rule := rfl
  cases o with
  | own => simp only [Origin.text?, h]
  | ruleResource => simp only [Origin.text?, hfrom, hresource]
  | attributeResource => simp only [Origin.text?, hfrom]
  | conventional =>
    simp only [Origin.text?, hfrom, hresource, huses]
    rfl
  | fallback => rfl
  | template => simp only [Origin.text?, h]
  | general => rfl

/-- And so does the search for it. -/
theorem resolve_of_ambient (h : cultureFor (s.under ambient) w.rule = cultureFor s w.rule)
    (computed : Option String) : resolve (s.under ambient) w computed = resolve s w computed := by
  unfold resolve
  induction Origin.all with
  | nil => rfl
  | cons o os ih => simp only [firstText, text?_of_ambient h, ih]

end Message

/-! ## 2. Engines in different surroundings -/

namespace Engine

/-- An engine under another culture of the surroundings. -/
def under (ambient : Option Culture) (e : Engine) : Engine := { e with ambient }

/-- Engines with given options that differ at most in the culture of the surroundings, of which the
first has a property. -/
structure Abroad (options : Options) (I : Engine → Prop) (e e' : Engine) : Prop where
  same : e' = e.under e'.ambient
  options_eq : e.options = options
  holds : I e

variable {options : Options} {I J : Engine → Prop} {e e' : Engine}

theorem Abroad.registry_eq (h : Abroad options I e e') : e'.registry = e.registry := by
  rw [h.same]
  rfl

theorem Abroad.world_eq (h : Abroad options I e e') : e'.world = e.world := by
  rw [h.same]
  rfl

theorem Abroad.imp (h : Abroad options I e e') (hI : I e → J e) : Abroad options J e e' :=
  ⟨h.same, h.options_eq, hI h.holds⟩

end Engine

open Engine (Abroad)

/-- Ends of steps in different surroundings, with another property of the first one. -/
theorem Agree.imp {options : Options} {I J : Engine → Prop} {p q : Except Fault α × Engine}
    (h : Agree (Abroad options I) p q) (hI : I p.2 → J p.2) : Agree (Abroad options J) p q :=
  ⟨h.1, h.2.imp hI⟩

namespace Action

variable {options : Options} {I : Engine → Prop}

/-- Engines that differ at most in their surroundings. -/
abbrev Anywhere (options : Options) : Engine → Engine → Prop := Abroad options fun _ => True

/-- A step that does not depend on the surroundings, and keeps a property. -/
theorem keeping_abroad {x : Action α} (hx : Respects (Anywhere options) x) (hkeeps : Keeps I x) :
    Respects (Abroad options I) x := by
  intro e e' he
  obtain ⟨hresult, hleft⟩ := hx e e' (he.imp fun _ => trivial)
  exact ⟨hresult, hleft.same, hleft.options_eq, (hkeeps e he.holds).1⟩

/-- A step that has nothing to do with the surroundings and the options. -/
theorem aside_abroad {x : Action α}
    (hx : ∀ e ambient, x (e.under ambient) = ((x e).1, (x e).2.under ambient))
    (hoptions : ∀ e, (x e).2.options = e.options) : Respects (Anywhere options) x := by
  intro e e' he
  have hrun : x e' = ((x e).1, (x e).2.under e'.ambient) := (congrArg x he.same).trans (hx e _)
  rw [hrun]
  exact ⟨rfl, rfl, (hoptions e).trans he.options_eq, trivial⟩

/-- A step that looks at an engine, but not at the surroundings. -/
theorem look_abroad {f : Engine → Action α} (hf : ∀ e ambient, f (e.under ambient) = f e)
    (h : ∀ e, Respects (Anywhere options) (f e)) : Respects (Anywhere options) (get >>= f) := by
  refine .get_bind fun e e' he => ?_
  have hsame : f e' = f e := (congrArg f he.same).trans (hf e _)
  rw [hsame]
  exact h e e e' he

theorem eval_abroad (x : Eval α) : Respects (Anywhere options) (eval x) :=
  aside_abroad (fun _ _ => rfl) fun _ => rfl

theorem schema_abroad : Respects (Anywhere options) schema :=
  aside_abroad (fun _ _ => rfl) fun _ => rfl

theorem note_abroad (logger name : String) (fields : Details) :
    Respects (Anywhere options) (note logger name fields) :=
  aside_abroad (fun _ _ => rfl) fun _ => rfl

/-! ## 3. Registering and messages -/

theorem declaredRules_abroad (t : TypeId) : Respects (Anywhere options) (declaredRules t) := by
  have hmembers : Respects (Anywhere options) (members t) :=
    .bind schema_abroad fun _ => aside_abroad (fun _ _ => rfl) fun _ => rfl
  refine .bind hmembers fun ms => .bind schema_abroad fun s => .bind (.lift _) fun rs => ?_
  exact .bind (aside_abroad (fun _ _ => rfl) fun _ => rfl) fun rs =>
    .bind (note_abroad _ _ _) fun _ => .pure _

theorem ensureWithin_abroad (depth : Nat) (t : TypeId) :
    Respects (Anywhere options) (ensureWithin depth t) := by
  induction depth generalizing t with
  | zero => exact .throw _
  | succ depth ih =>
    refine look_abroad (fun _ _ => rfl) fun e => ?_
    cases e.registry.knows t with
    | true => exact .pure _
    | false =>
      refine .bind (declaredRules_abroad t) fun rs => .bind ?_ fun _ => .forM ih
      exact aside_abroad (fun _ _ => rfl) fun _ => rfl

theorem ensure_abroad (t : TypeId) : Respects (Anywhere options) (ensure t) :=
  .bind schema_abroad fun _ => ensureWithin_abroad _ t

theorem computedText_abroad (rule : Option Rule) (object : Value) :
    Respects (Anywhere options) (computedText rule object) := by
  unfold computedText
  split
  · exact .bind (eval_abroad _) fun _ => look_abroad (fun _ _ => rfl) fun _ =>
      .bind (.lift _) fun _ => .pure _
  · exact .pure _

/-- **The message of a rule with a culture does not depend on the surroundings.** -/
theorem message_abroad {w : Message.Wanted} {r : Rule} (hr : w.rule = some r)
    (h : r.HasCulture options) (object : Value) :
    Respects (Anywhere options) (message w object) := by
  refine .bind (computedText_abroad _ _) fun computed => .get_bind fun e e' he => ?_
  have hsources : e'.sources = e.sources.under e'.ambient := by
    rw [he.same]
    rfl
  have hrule : r.HasCulture e.sources.options := by
    rw [show e.sources.options = options from he.options_eq]
    exact h
  have hculture := Message.cultureFor_of_hasCulture hrule e'.ambient
  rw [← hr] at hculture
  have hresolve : ∀ validator,
      Message.resolve (e.sources.under e'.ambient) { w with validator } computed =
        Message.resolve e.sources { w with validator } computed := fun validator =>
    Message.resolve_of_ambient (w := { w with validator }) hculture computed
  rw [hsources, he.world_eq, hresolve]
  exact aside_abroad (fun _ _ => rfl) (fun _ => rfl) e e' he

end Action

/-! ## 4. Rules that a validation can come to -/

section

open Action Validation
open Engine (Grown)

variable {s : Schema} {t u own : TypeId} {reg reg₁ : Registry} {r : Rule} {a : Attribute}
  {d : Drive} {options : Options} {e : Engine} {v : Value}

/-- A rule that a validation by the rules of a type can come to: one of a type that is reached, in
the registry as it is, or with the declared rules that the validation registers on its way. -/
def Registry.MayApply (s : Schema) (reg : Registry) (t : TypeId) (r : Rule) : Prop :=
  ∃ reg₁ u, reg.Grows s t reg₁ ∧ reg₁.Reaches t u ∧ r ∈ reg₁.rulesOf u ∧
    r.hasCheck = true

/-- What can be come to by the rules of a nested type can be come to by those that lead to it. -/
theorem Registry.MayApply.of_reaches (h : reg₁.MayApply s u r) (hgrows : reg.Grows s t reg₁)
    (hu : reg₁.Reaches t u) : reg.MayApply s t r := by
  obtain ⟨reg₂, v, hgrows', hv, hr⟩ := h
  have hreach : reg₂.Reaches t v := (hu.kept hgrows'.keepsKnown).trans hv
  exact ⟨reg₂, v, hgrows.trans (hgrows'.of_reaches hu), hreach, hr⟩

/-- A registry by whose rules for a type messages do not depend on the surroundings. -/
def Registry.HasCultures (s : Schema) (options : Options) (reg : Registry) (t : TypeId) : Prop :=
  ∀ r, reg.MayApply s t r → r.HasCulture options

theorem Registry.HasCultures.of_reaches (h : reg.HasCultures s options t)
    (hgrows : reg.Grows s t reg₁) (hu : reg₁.Reaches t u) : reg₁.HasCultures s options u :=
  fun r hr => h r (hr.of_reaches hgrows hu)

theorem Registry.HasCultures.rule (h : reg.HasCultures s options t) (hr : r ∈ reg.rulesOf t)
    (ha : r.validator = some a) : r.HasCulture options :=
  h r ⟨reg, t, .refl, .refl, hr, by rw [Rule.hasCheck, ha]; rfl⟩

namespace Validation

/-! ## 5. Validations -/

variable {nested : Value → TypeId → String → Finding}

theorem collect_abroad {I : Engine → Prop} {f : α → Finding} {as : List α}
    (h : ∀ a ∈ as, Respects (Abroad options I) (f a)) :
    Respects (Abroad options I) (collect f as) := by
  induction as with
  | nil => exact .pure _
  | cons a as ih =>
    refine .bind (h a List.mem_cons_self) fun _ => .bind (ih fun b hb => ?_) fun _ => .pure _
    exact h b (List.mem_cons_of_mem a hb)

theorem applyCheck_abroad (h : r.HasCulture options) (d : Drive) (a : Attribute) (pos : Position)
    (v : Value) : Respects (Anywhere options) (applyCheck d r a pos v) := by
  refine .bind (eval_abroad _) fun outcome => ?_
  split
  · exact .pure _
  · have hmessage : Respects (Anywhere options) (messageOf r a pos outcome.message) := by
      unfold messageOf
      split
      · exact .pure _
      · exact message_abroad rfl h _
    exact .bind hmessage fun _ => .bind (.lift _) fun _ => .pure _

/-- Validating nested values does not depend on the surroundings, where the rules have cultures. -/
abbrev NestedAbroad (s : Schema) (options : Options)
    (nested : Value → TypeId → String → Finding) : Prop :=
  ∀ u reg v path, reg.HasCultures s options u →
    Respects (Abroad options (Grown s u reg)) (nested v u path)

/-- A nested value is validated by rules that the rules of its owner lead to. -/
theorem NestedAbroad.inside (hn : NestedAbroad s options nested) (h : reg.HasCultures s options t)
    (hu : reg.Reaches t u) (v : Value) (path : String) :
    Respects (Abroad options (Grown s t reg)) (nested v u path) := by
  intro e e' he
  have hreach := hu.kept he.holds.grows.keepsKnown
  have hall := h.of_reaches he.holds.grows hreach
  have hstart : Abroad options (Grown s u e.registry) e e' :=
    he.imp fun hgrown => ⟨hgrown.schema, hgrown.faithful, .refl⟩
  exact (hn u e.registry v path hall e e' hstart).imp (he.holds.inside hreach)

theorem applyRule_abroad (hn : NestedAbroad s options nested) (h : reg.HasCultures s options t)
    (hr : r ∈ reg.rulesOf t) (ha : r.validator = some a) (pos : Position) (v : Value) :
    Respects (Abroad options (Grown s t reg)) (applyRule nested d r a pos v) := by
  have hc : r.check? = some a.check := by simp [Rule.check?, ha]
  cases hu : a.check.nestedType? with
  | none =>
    rw [applyRule_of_leaf hu]
    exact keeping_abroad (applyCheck_abroad (h.rule hr ha) d a pos v) (applyCheck_grown d r a pos v)
  | some u =>
    by_cases hv : v = .none
    · rw [hv, applyRule_missing hu]
      exact .pure _
    · rw [applyRule_of_nested hu hv]
      have htype : r.nestedType? = some u := by simp [Rule.nestedType?, hc, hu]
      have hreach : reg.Reaches t u := .step .refl hr htype
      have hinside := hn.inside h hreach v pos.path
      split
      · rename_i hmodel
        obtain ⟨w, hw⟩ := Option.isSome_iff_exists.mp hmodel
        have hmodel : r.nestedModel? = some w := by simp [Rule.nestedModel?, hc, hw]
        have hsame := htype.symm.trans (Rule.nestedType?_of_nestedModel? hmodel)
        obtain rfl : u = w := Option.some.inj hsame
        have hwants : reg.Wants t u := ⟨t, .refl, r, hr, hmodel⟩
        exact .bind (keeping_abroad (ensure_abroad u) (ensure_grown hwants)) fun _ => hinside
      · exact hinside

theorem visitRule_abroad (hn : NestedAbroad s options nested) (h : reg.HasCultures s options t)
    (hr : r ∈ reg.rulesOf t) (pos : Position) (v : Value) :
    Respects (Abroad options (Grown s t reg)) (visitRule nested d pos v r) := by
  unfold visitRule
  split
  · exact .pure _
  · rename_i a ha
    have hgate := r.gate.isOpen_keepsTypes d pos.owner
    refine .bind (keeping_abroad (eval_abroad _) (eval_grown hgate)) fun isOpen => ?_
    split
    · exact .pure _
    · split
      · refine .get_bind fun e e' he => ?_
        rw [he.world_eq]
        exact collect_abroad (fun _ _ => applyRule_abroad hn h hr ha _ _) e e' he
      · exact applyRule_abroad hn h hr ha _ _

theorem provided_abroad (g : RuleGroup) (owner : Value) :
    Respects (Anywhere options) (provided g owner) := by
  refine .bind (eval_abroad _) fun _ => ?_
  split
  · exact .pure _
  · exact .bind (eval_abroad _) fun _ => .bind (eval_abroad _) fun _ => .pure _

theorem requireBuilt_abroad (t : TypeId) : Respects (Anywhere options) (requireBuilt t) := by
  refine look_abroad (fun _ _ => rfl) fun e => ?_
  dsimp only
  split
  · exact .throw _
  · exact .pure _

/-- **Validating an object does not depend on the surroundings**, if the rules that it can come to
have cultures.  The induction is on the depth; the rules of a type are those of the registry as it
is when the object is entered, in both surroundings the same. -/
theorem visitObject_abroad (d : Drive) (depth : Nat) :
    NestedAbroad s options (visitObject d depth) := by
  induction depth with
  | zero => exact fun _ _ _ _ _ => .throw _
  | succ depth ih =>
    intro t reg owner path h
    refine .bind (keeping_abroad (requireBuilt_abroad t) (requireBuilt_grown t)) fun _ =>
      .get_bind fun e e' he => ?_
    rw [he.registry_eq]
    have hall : e.registry.HasCultures s options t := fun r ⟨reg₂, u, hgrows, hr⟩ =>
      h r ⟨reg₂, u, he.holds.grows.trans hgrows, hr⟩
    have hmembers : Respects (Abroad options (Grown s t e.registry))
        (collect (visitMember (visitObject d depth) d owner t path) (e.registry.groupsOf t)) := by
      refine collect_abroad fun g hg => ?_
      unfold visitMember
      split
      · exact .pure _
      · refine .bind (keeping_abroad (provided_abroad g owner) (provided_grown g owner)) fun v =>
          collect_abroad fun r hr => ?_
        exact visitRule_abroad ih hall (Registry.mem_rulesOf hg hr) _ v
    exact (hmembers e e' (he.imp Grown.start)).imp he.holds.trans

theorem run_abroad (h : reg.HasCultures s options t) (d : Drive) (owner : Value) :
    Respects (Abroad options (Grown s t reg)) (run d owner t) :=
  .bind (visitObject_abroad d _ t reg owner "" h) fun _ =>
    .bind (keeping_abroad (note_abroad _ _ _) (note_grown _ _ _)) fun _ => .pure _

/-- A validation in other surroundings goes by the rules of the same type. -/
theorem rulesType_under (ambient : Option Culture) (t : TypeId) (v : Value) (e : Engine) :
    (rulesType t v (e.under ambient)).1 = (rulesType t v e).1 := by
  unfold rulesType
  split <;> rfl

/-- A step that ends the same in other surroundings can be taken there. -/
theorem within_of_agree {x : Action α} {ambient : Option Culture}
    (h : Agree (Anywhere options) (x e) (x (e.under ambient))) :
    Action.within ambient x e = ((x e).1, (x e).2.under e.ambient) := by
  obtain ⟨hresult, hleft⟩ := h
  rw [Resolver.within_apply]
  refine Prod.ext hresult.symm ?_
  show (x (e.under ambient)).2.under e.ambient = (x e).2.under e.ambient
  rw [hleft.same]
  rfl

/-- A validation by rules with cultures ends the same in other surroundings. -/
theorem IsValidation.abroad {x : Action ValidationResult} (hx : IsValidation t v d x)
    (hown : (rulesType t v e).1 = .ok own) (hfaithful : e.world.schema.Faithful e.reflected)
    (h : e.registry.HasCultures e.world.schema e.options own) (ambient : Option Culture) :
    Agree (Anywhere e.options) (x e) (x (e.under ambient)) := by
  have he : Abroad e.options (Grown e.world.schema own e.registry) e (e.under ambient) :=
    ⟨rfl, rfl, rfl, hfaithful, .refl⟩
  have hown' := (rulesType_under ambient t v e).trans hown
  have hrun : ∀ d e₁ e₁',
      Abroad e.options (Grown e.world.schema own e.registry) e₁ e₁' →
        Agree (Anywhere e.options) (run d v own e₁) (run d v own e₁') := fun d e₁ e₁' h₁ =>
    (run_abroad h d v e₁ e₁' h₁).imp fun _ => trivial
  cases hx with
  | atOnce =>
    rw [validate_apply hown, validate_apply hown', he.registry_eq]
    rcases e.registry.waits own with f | _ | _
    · exact ⟨rfl, he.imp fun _ => trivial⟩
    · exact hrun _ _ _ he
    · exact hrun _ _ _ ⟨rfl, rfl, rfl, hfaithful, .refl⟩
  | patient =>
    rw [validatePatiently_apply hown, validatePatiently_apply hown']
    exact hrun _ _ _ he
  | limited exhausted =>
    have hpair : rulesType t v e = (.ok own, e) := Prod.ext hown (rulesType_snd t v e)
    have hpair' : rulesType t v (e.under ambient) = (.ok own, e.under ambient) :=
      Prod.ext hown' (rulesType_snd t v _)
    unfold validatePatiently
    rw [bind_ok hpair, bind_ok hpair']
    exact hrun _ _ _ he

/-- **The culture of the surroundings plays no part in a validation** whose rules have cultures of
their own or a shared one: at once, with time to wait or with a limit, it gives the same result in
all surroundings, or fails in the same way, and leaves the same engine, with the same strings
remembered under the same names. -/
theorem validation_of_ambient {x : Action ValidationResult} (hx : IsValidation t v d x)
    (hfaithful : e.world.schema.Faithful e.reflected)
    (h : ∀ own, (rulesType t v e).1 = .ok own →
      e.registry.HasCultures e.world.schema e.options own) (ambient ambient' : Option Culture) :
    Action.within ambient x e = Action.within ambient' x e := by
  have hagree : ∀ ambient, Agree (Anywhere e.options) (x e) (x (e.under ambient)) := by
    intro ambient
    cases hown : (rulesType t v e).1 with
    | ok own => exact hx.abroad hown hfaithful (h own hown) ambient
    | error f =>
      have hown' := (rulesType_under ambient t v e).trans hown
      have hfails : x e = (.error f, e) ∧ x (e.under ambient) = (.error f, e.under ambient) := by
        cases hx with
        | atOnce => exact ⟨validate_of_error hown, validate_of_error hown'⟩
        | patient | limited =>
          exact ⟨validatePatiently_of_error hown, validatePatiently_of_error hown'⟩
      rw [hfails.1, hfails.2]
      exact ⟨rfl, rfl, rfl, trivial⟩
  rw [within_of_agree (hagree ambient), within_of_agree (hagree ambient')]

/-! ### A journey with its stops

The fare of a journey and the toll of each stop have to lie between bounds, and the rules say so in
French. -/

namespace Journey

def journey : TypeId := .declared "Journey"

def stop : TypeId := .declared "Stop"

def schema : Schema := ⟨[
  { name := "Stop"
    members := [⟨"toll", .field (.type (.builtin .decimal)) none none none⟩]
    line := [stop] },
  { name := "Journey"
    members := [
      ⟨"fare", .field (.type (.builtin .decimal)) none none none⟩,
      ⟨"stops", .field (.list (.type stop)) none none none⟩]
    line := [journey] }]⟩

def french : Culture := { language := "fr" }

def german : Culture := { language := "de" }

/-- The rule of a member, in French. -/
def rule (t : TypeId) (name : String) (c : Check) (forEach : Bool := false) : Rule :=
  { id := 0, member := ⟨t, name, .field⟩, validator := some { check := c },
    uniqueKey := .named name, culture := some french, forEach }

/-- A number of tenths. -/
def tenths (n : Nat) : Value := .decimal (.finite false n (-1))

def rules : Registry :=
  ⟨[(stop, [
      ⟨⟨stop, "toll", .field⟩, [rule stop "toll" (.range (tenths 5) (tenths 15))]⟩]),
    (journey, [
      ⟨⟨journey, "fare", .field⟩, [rule journey "fare" (.range (tenths 25) (tenths 99))]⟩,
      ⟨⟨journey, "stops", .field⟩, [rule journey "stops" (.childRules stop) true]⟩])],
    [(stop, true), (journey, true)]⟩

/-- An engine with a journey whose fare is too low, and with a stop whose toll is too high. -/
def engine : Engine :=
  { world := { schema, objects := [
      ⟨stop, [("toll", tenths 20)]⟩,
      ⟨journey, [("fare", tenths 10), ("stops", .list [.object 0])]⟩] }
    registry := rules }

/-- The types that the validation of a journey can come to. -/
def types : List TypeId := [journey, stop]

/-- Every rule says so in French, and none asks for the declared rules of a type. -/
theorem all_french : ∀ u ∈ types, ∀ r ∈ rules.rulesOf u, r.culture.isSome = true ∧
    r.nestedModel? = none ∧ ∀ v, r.nestedType? = some v → v ∈ types := by
  have hall : types.all (fun u => (rules.rulesOf u).all fun r =>
      r.culture.isSome && r.nestedModel?.isNone && r.nestedType?.all types.contains) = true := by
    decide +kernel
  intro u hu r hr
  have hrule := List.all_eq_true.mp (List.all_eq_true.mp hall u hu) r hr
  simp only [Bool.and_eq_true, Option.isNone_iff_eq_none, Option.all_eq_true,
    List.contains_iff_mem] at hrule
  exact ⟨hrule.1.1, hrule.1.2, hrule.2⟩

theorem mem_types {u : TypeId} (h : rules.Reaches journey u) : u ∈ types :=
  h.mem (by decide) fun u hu r hr => (all_french u hu r hr).2.2

theorem hasCultures : rules.HasCultures schema {} journey := by
  rintro r ⟨reg, u, hgrows, hu, hr, -⟩
  have hcovers : rules.Covers journey := fun u hu r hr v hv => by
    rw [(all_french u (mem_types hu) r hr).2.1] at hv
    cases hv
  rw [hgrows.eq_of_covers hcovers] at hu hr
  exact .inl (all_french u (mem_types hu) r hr).1

end Journey

/-- The messages about a journey are French in German surroundings as well as in none. -/
theorem journey_of_ambient :
    Action.within (some Journey.german) (validate Journey.journey (.object 1)) Journey.engine =
      Action.within none (validate Journey.journey (.object 1)) Journey.engine ∧
    (Action.within (some Journey.german) (validate Journey.journey (.object 1))
      Journey.engine).1.toOption.map (fun result => result.failures.map Failure.message) =
        some ["The field fare must be between 2,5 and 9,9.",
          "The field toll must be between 0,5 and 1,5."] := by
  have hown : (rulesType Journey.journey (.object 1) Journey.engine).1 = .ok Journey.journey :=
    congrArg Prod.fst (eq_ok_of_toOption (by decide +kernel))
  refine ⟨validation_of_ambient .atOnce (Schema.faithful_nil _) (fun own h => ?_) _ _,
    by decide +kernel⟩
  obtain rfl := Except.ok.inj (hown.symm.trans h)
  exact Journey.hasCultures

end Validation
end
end MemberRules
