/-
# The plan of a validation

What a validation does besides asking the objects plays no part in what it finds.  It remembers
look-ups and members, writes to the log, gives identities to rules and registers types on the way,
but all of this comes to the same, whatever was done before.  So there is a plan to each validation,
which says what is asked and what is found, and knows nothing of the rest.

The plan of an engine goes by the rules that the engine holds for the types that it knows, and by the
declared rules of all others.  It leaves open in which order the members of an object come.  So
validations on all engines that hold the same rules, in whatever order their members stand, follow
the same plan.

* `Plan.ofObject`: the plan of the validation of an object.
* `Engine.Fits`: an engine for which the plan of another one is as good as its own.
* `Action.Follows`, `Action.Serves`: steps that do what a plan says.
* `visitObject_follows`: validating an object follows its plan.
-/
import MemberRules.Proofs.Message.Lookups
import MemberRules.Proofs.Registry.Growth
import MemberRules.Proofs.Validation.Plan

namespace MemberRules

open MemberRules.Computation

/-! ## 1. The rules of all types -/

open Classical in
/-- The groups that the declared rules of a type make, if its members can be read. -/
noncomputable def Schema.placed (s : Schema) (t : TypeId) : List RuleGroup :=
  if h : ∃ ms, s.Reads t ms then placedGroups s t h.choose else []

theorem Schema.placed_eq {s : Schema} {t : TypeId} {ms : List MemberInfo} (h : s.Reads t ms) :
    s.placed t = placedGroups s t ms := by
  have hms : ∃ ms, s.Reads t ms := ⟨ms, h⟩
  unfold placed
  rw [dif_pos hms, hms.choose_spec.unique h]

namespace Engine

/-- The groups of a type: those that an engine holds, or will hold when the type is registered. -/
noncomputable def planned (e : Engine) (t : TypeId) : List RuleGroup :=
  if e.registry.knows t then e.registry.shown t else e.world.schema.placed t

/-- The types whose rules a validation by the rules of a type can come to, registered or not. -/
inductive Meets (e : Engine) (t : TypeId) : TypeId → Prop
  | refl : e.Meets t t
  | step {u v : TypeId} {g : RuleGroup} {r : Rule} : e.Meets t u → g ∈ e.planned u → r ∈ g.rules →
      r.nestedType? = some v → e.Meets t v

/-- The cultures of the messages that a validation by the rules of a type can come to. -/
def Uses (e : Engine) (t : TypeId) (c : Option Culture) : Prop :=
  ∃ u, e.Meets t u ∧ ∃ g ∈ e.planned u, ∃ r ∈ g.rules, c = Message.cultureFor e.sources (some r)

end Engine

/-! ## 2. Plans of validations -/

/-- An evaluation that only looks at the world. -/
def Eval.look {β : Type} (f : World → β) : Eval β := fun w => (.ok (f w), w)

namespace Plan

/-- What comes next after a result that needs no world. -/
def given {α : Type} (r : Except Fault α) (next : α → Plan) : Plan :=
  match r with
  | .ok a => next a
  | .error _ => fails

theorem Steady.given {scene : World → Prop} {α : Type} {r : Except Fault α} {next : α → Plan}
    (h : ∀ a, (next a).Steady scene) : (given r next).Steady scene := by
  cases r with
  | ok a => exact h a
  | error f => trivial

/-- Several plans, one after the other. -/
def inOrder : List Plan → Plan
  | [] => finds []
  | p :: ps => both p (inOrder ps)

/-- The text of a computed message. -/
def ofComputedText (rule : Option Rule) (object : Value) (next : Option String → Plan) : Plan :=
  match rule.bind Rule.message with
  | some (.computed x) =>
    ask (x.eval (.of object)) fun v =>
      ask (Eval.look fun w => (w.captured v).printed?) fun text => given text fun s => next (some s)
  | _ => next none

/-- The message that is wanted, for an object. -/
def ofMessage (e : Engine) (w : Message.Wanted) (object : Value) (next : String → Plan) : Plan :=
  ofComputedText w.rule object fun computed =>
    ask (Eval.look fun world => { w with validator := w.validator.map (Attribute.captured world) })
      fun shown => given (Message.resolve e.sources shown computed e.lookups).1 next

/-- The message of a failed check. -/
def ofFailed (e : Engine) (r : Rule) (a : Attribute) (pos : Position) (own : Option String)
    (next : String → Plan) : Plan :=
  match Message.present own with
  | some text => next text
  | none =>
    ofMessage e { type := pos.type, member := r.member.name, validator := some a, rule := some r }
      pos.owner next

/-- A check of a value. -/
def ofCheck (e : Engine) (d : Drive) (r : Rule) (a : Attribute) (pos : Position) (v : Value) : Plan :=
  ask (a.check.runWith d v pos.owner) fun outcome =>
    if outcome.passed then finds []
    else ofFailed e r a pos outcome.message fun text =>
      given (Validation.failure r a.check pos.path text v) fun f => finds [f]

/-- A rule that is applied to a value; `nested` is the plan of a nested value. -/
def ofApplied (e : Engine) (nested : Value → TypeId → String → Plan) (d : Drive) (r : Rule)
    (a : Attribute) (pos : Position) (v : Value) : Plan :=
  match a.check.nestedType?, v with
  | none, v => ofCheck e d r a pos v
  | some _, .none => finds []
  | some t, v => nested v t pos.path

section

variable {e : Engine} {nested : Value → TypeId → String → Plan} {d : Drive} {r : Rule}
  {a : Attribute} {pos : Position} {v : Value} {u : TypeId}

theorem ofApplied_of_leaf (hu : a.check.nestedType? = none) :
    ofApplied e nested d r a pos v = ofCheck e d r a pos v := by
  unfold ofApplied
  rw [hu]

theorem ofApplied_missing (hu : a.check.nestedType? = some u) :
    ofApplied e nested d r a pos .none = finds [] := by
  unfold ofApplied
  rw [hu]

theorem ofApplied_of_nested (hu : a.check.nestedType? = some u) (hv : v ≠ .none) :
    ofApplied e nested d r a pos v = nested v u pos.path := by
  unfold ofApplied
  rw [hu]
  split
  · rename_i hnone
    cases hnone
  · exact absurd rfl hv
  · rename_i hsome _
    cases hsome
    rfl

end

/-- A rule of a member that holds a value. -/
def ofRule (e : Engine) (nested : Value → TypeId → String → Plan) (d : Drive) (pos : Position)
    (v : Value) (r : Rule) : Plan :=
  match r.validator with
  | none => finds []
  | some a =>
    ask (r.gate.isOpen d pos.owner) fun isOpen =>
      if !isOpen then finds []
      else if r.forEach then
        ask (Eval.look fun w => w.elements v) fun vs =>
          inOrder (vs.zipIdx.map fun x =>
            ofApplied e nested d r a { pos with path := Path.element pos.path x.2 } x.1)
      else ofApplied e nested d r a pos v

/-- The value of a member, after its value provider has replaced it. -/
def ofProvided (g : RuleGroup) (owner : Value) (next : Value → Plan) : Plan :=
  ask (g.member.read owner) fun v =>
    match g.rules.findSome? Rule.provider with
    | none => next v
    | some x =>
      ask (x.eval ⟨v, owner, .text g.member.name⟩) fun v =>
        ask (g.member.write owner v) fun _ => next v

/-- The rules of a member. -/
def ofMember (e : Engine) (nested : Value → TypeId → String → Plan) (d : Drive) (owner : Value)
    (t : TypeId) (path : String) (g : RuleGroup) : Plan :=
  if !g.rules.any Rule.hasCheck then finds []
  else ofProvided g owner fun v =>
    inOrder (g.rules.map (ofRule e nested d ⟨owner, t, Path.member path g.member.name⟩ v))

/-- **The plan of the validation of an object**; `depth` bounds the nesting. -/
noncomputable def ofObject (e : Engine) (d : Drive) : Nat → Value → TypeId → String → Plan
  | 0, _, _, _ => fails
  | depth + 1, owner, t, path =>
    members (e.planned t) (ofMember e (ofObject e d depth) d owner t path)

end Plan

/-! ## 3. Engines that a plan fits -/

/-- An engine for which the plan of another one is as good as its own: it looks messages up in the
same sources, remembers nothing wrongly, and holds the same rules, up to the order of the members. -/
structure Engine.Fits (base : Engine) (uses : Option Culture → Prop) (e : Engine) : Prop where
  sources : e.sources = base.sources
  faithful : base.world.schema.Faithful e.reflected
  memory : Lookups.Recalls base.resources uses base.lookups e.lookups
  /-- The types that were known are known. -/
  known : ∀ u, base.registry.knows u = true → e.registry.knows u = true
  rules : ∀ u, e.registry.knows u = true → (e.registry.shown u).Perm (base.planned u)

section

variable {α β : Type} {base e e₁ : Engine} {uses : Option Culture → Prop} {s : Schema}
  {t u : TypeId} {ms : List MemberInfo} {rs : List Rule}

theorem Engine.Fits.schema (he : base.Fits uses e) : e.world.schema = base.world.schema :=
  congrArg Message.Sources.schema he.sources

/-- The plan of an engine is its own plan. -/
theorem Engine.fits_self (hfaithful : e.world.schema.Faithful e.reflected) : e.Fits uses e where
  sources := rfl
  faithful := hfaithful
  memory _ _ _ _ := rfl
  known _ h := h
  rules u hu := by
    unfold planned
    rw [if_pos hu]

/-- Deriving the declared rules of a type changes nothing that messages are looked up in. -/
theorem Action.declaredRules_sources (h : declaredRules t e = (.ok rs, e₁)) :
    e₁.sources = e.sources ∧ e₁.lookups.known = e.lookups.known := by
  rw [declaredRules_apply] at h
  rcases hread : e.world.schema.reflect t e.reflected with ⟨f | ms, known⟩ <;> rw [hread] at h
  · cases h
  · obtain ⟨rs₀, e₂, hrs₀, h⟩ := bind_eq_ok.mp h
    obtain ⟨-, rfl⟩ := Prod.mk.inj hrs₀
    cases h
    exact ⟨rfl, rfl⟩

/-- An engine that holds the declared rules of one more type. -/
theorem Engine.Fits.register (he : base.Fits uses e) (hsources : e₁.sources = base.sources)
    (hfaithful : base.world.schema.Faithful e₁.reflected)
    (hmemory : e₁.lookups.known = e.lookups.known) (hnew : e.registry.knows u = false)
    (hread : base.world.schema.Reads u ms)
    (hrs : rs.map Rule.value = ms.flatMap (MemberInfo.placedRules base.world.schema u))
    (hregistry : e₁.registry = e.registry.registering (u, rs)) : base.Fits uses e₁ where
  sources := hsources
  faithful := hfaithful
  memory resource key culture hc := by
    rw [← he.memory resource key culture hc]
    unfold Lookups.answerFor
    rw [hmemory]
  known v hv := by
    have hkept := he.known v hv
    rw [hregistry, (Registry.keepsKnown_registering hnew rs v hkept).known, hkept]
  rules v hv := by
    rw [hregistry] at hv ⊢
    by_cases h : v = u
    · subst h
      have hunknown : ¬ base.registry.knows v = true := fun hbase => by
        rw [he.known v hbase] at hnew
        cases hnew
      have hplanned : base.planned v = placedGroups base.world.schema v ms := by
        unfold planned
        rw [if_neg hunknown, Schema.placed_eq hread]
      rw [Registry.shown_registering hnew hread hrs, hplanned]
    · have huntouched := Registry.untouched_registering h e.registry rs
      rw [huntouched.shown]
      exact he.rules v (huntouched.known ▸ hv)

/-- What registering types leaves: an engine that the plan fits, with the same world, and with all
types known that were known. -/
structure Engine.Goes (base : Engine) (uses : Option Culture → Prop) (e e₁ : Engine) : Prop where
  fits : base.Fits uses e₁
  world : e₁.world = e.world
  known : ∀ v, e.registry.knows v = true → e₁.registry.knows v = true

theorem Engine.Goes.trans {e₂ : Engine} (h : base.Goes uses e e₁) (h' : base.Goes uses e₁ e₂) :
    base.Goes uses e e₂ :=
  ⟨h'.fits, h'.world.trans h.world, fun v hv => h'.known v (h.known v hv)⟩

/-- **Registering a type, and the types nested in it.** -/
theorem Action.ensureWithin_goes {depth : Nat} (he : base.Fits uses e)
    (h : ensureWithin depth u e = (.ok (), e₁)) :
    base.Goes uses e e₁ ∧ e₁.registry.knows u = true := by
  induction depth generalizing u e e₁ with
  | zero => cases h
  | succ depth ih =>
    cases hknown : e.registry.knows u with
    | true =>
      rw [ensureWithin_of_knows hknown] at h
      cases h
      exact ⟨⟨he, rfl, fun _ hv => hv⟩, hknown⟩
    | false =>
      rw [ensureWithin_of_unknown hknown] at h
      obtain ⟨rs, e₂, hderive, h⟩ := bind_eq_ok.mp h
      obtain ⟨_, e₃, hadd, h⟩ := bind_eq_ok.mp h
      obtain ⟨ms, hread, -, hrs, hworld, hregistry⟩ := declaredRules_eq_ok hderive
      obtain ⟨hsources, hmemory⟩ := declaredRules_sources hderive
      rw [he.schema] at hread hrs
      obtain ⟨hfaithful, hreads⟩ := Schema.faithful_reflect base.world.schema u he.faithful
      rw [hread] at hfaithful hreads
      have hadded : base.Goes uses e e₃ ∧ e₃.registry.knows u = true := by
        cases hadd
        have hfits : base.Fits uses (addRules u rs true e₂).2 := by
          refine he.register (hsources.trans he.sources) hfaithful hmemory hknown (hreads ms rfl) hrs ?_
          show e₂.registry.registering (u, rs) = _
          rw [hregistry]
        refine ⟨⟨hfits, hworld, fun v hv => ?_⟩, ?_⟩
        · show (e₂.registry.registering (u, rs)).knows v = true
          rw [hregistry, (Registry.keepsKnown_registering hknown rs v hv).known, hv]
        · exact Registry.knows_of_isBuilt (Registry.isBuilt_registering e₂.registry u rs)
      obtain ⟨hgoes, hu⟩ := hadded
      -- The types that the new rules ask for are registered one after the other.
      have hnested : ∀ (us : List TypeId) e₃, base.Fits uses e₃ →
          us.forM (ensureWithin depth) e₃ = (.ok (), e₁) → base.Goes uses e₃ e₁ := by
        intro us
        induction us with
        | nil =>
          intro e₃ he₃ h
          cases h
          exact ⟨he₃, rfl, fun _ hv => hv⟩
        | cons v us ihus =>
          intro e₃ he₃ h
          obtain ⟨_, e₄, hfirst, h⟩ := bind_eq_ok.mp h
          obtain ⟨hgoes, -⟩ := ih he₃ hfirst
          exact hgoes.trans (ihus e₄ hgoes.fits h)
      have hrest := hnested _ e₃ hgoes.fits h
      exact ⟨hgoes.trans hrest, hrest.known u hu⟩

/-! ## 4. Steps that follow a plan -/

namespace Action

/-- A step that finds what a plan can find. -/
def Follows (base : Engine) (uses : Option Culture → Prop) (x : Finding) (p : Plan) (e : Engine) :
    Prop :=
  base.Fits uses e → ∀ fs e₁, x e = (.ok fs, e₁) → base.Fits uses e₁ ∧ p.Runs e.world fs e₁.world

/-- A step with whose result a plan goes on. -/
def Serves (base : Engine) (uses : Option Culture → Prop) (x : Action α) (plan : (α → Plan) → Plan)
    (e : Engine) : Prop :=
  base.Fits uses e → ∀ a e₁, x e = (.ok a, e₁) → base.Fits uses e₁ ∧
    ∀ next fs w, (next a).Runs e₁.world fs w → (plan next).Runs e.world fs w

namespace Serves

theorem pure (a : α) : Serves base uses (pure a) (fun next => next a) e := by
  intro he b e₁ h
  cases h
  exact ⟨he, fun _ _ _ hrun => hrun⟩

theorem lift (r : Except Fault α) : Serves base uses (Action.lift r) (Plan.given r) e := by
  intro he a e₁ h
  cases h
  exact ⟨he, fun _ _ _ hrun => hrun⟩

theorem eval {x : Eval α} (hx : x.KeepsTypes) : Serves base uses (Action.eval x) (Plan.ask x) e := by
  intro he a e₁ h
  obtain ⟨ha, rfl⟩ := Prod.mk.inj h
  refine ⟨{ he with sources := ?_ }, fun next fs w hrun => .ask (Prod.ext ha rfl) hrun⟩
  rw [← he.sources]
  unfold Engine.sources
  rw [show (x e.world).2.schema = e.world.schema from hx e.world]

theorem bind {x : Action α} {f : α → Action β} {plan : (α → Plan) → Plan}
    {plan' : α → (β → Plan) → Plan} (hx : Serves base uses x plan e)
    (hf : ∀ a e₁, Serves base uses (f a) (plan' a) e₁) :
    Serves base uses (x >>= f) (fun next => plan fun a => plan' a next) e := by
  intro he b e₂ h
  obtain ⟨a, e₁, hrunx, hrunf⟩ := bind_eq_ok.mp h
  obtain ⟨he₁, hplan⟩ := hx he a e₁ hrunx
  obtain ⟨he₂, hplan'⟩ := hf a e₁ he₁ b e₂ hrunf
  exact ⟨he₂, fun next fs w hrun => hplan _ fs w (hplan' next fs w hrun)⟩

/-- The text of a computed message. -/
theorem computedText (rule : Option Rule) (object : Value) :
    Serves base uses (Action.computedText rule object) (Plan.ofComputedText rule object) e := by
  unfold Action.computedText Plan.ofComputedText
  rcases rule.bind Rule.message with _ | (text | x)
  · exact pure none
  · exact pure none
  · refine bind (eval (Expr.eval_keepsTypes _ _)) fun v e₁ he₁ text e₂ h => ?_
    rw [bind_ok (get_apply e₁)] at h
    obtain ⟨s, e₃, hs, h⟩ := bind_eq_ok.mp h
    obtain ⟨hprinted, rfl⟩ := Prod.mk.inj hs
    cases h
    refine ⟨he₁, fun next fs w hrun => .ask rfl ?_⟩
    dsimp only
    rw [hprinted]
    exact hrun

/-- **The message that is wanted** does not depend on what was looked up before. -/
theorem message (hworded : ∀ c, uses c → Culture.IsWorded c)
    {w : Message.Wanted} (hc : uses (Message.cultureFor base.sources w.rule)) (object : Value) :
    Serves base uses (Action.message w object) (Plan.ofMessage base w object) e := by
  refine bind (computedText w.rule object) fun computed e₁ he₁ text e₂ h => ?_
  rw [bind_ok (get_apply e₁), he₁.sources, lookup_apply] at h
  obtain ⟨htext, rfl⟩ := Prod.mk.inj h
  have hself : Lookups.Recalls base.resources uses base.lookups base.lookups := fun _ _ _ _ => rfl
  obtain ⟨hsame, hmemory, -⟩ := Lookup.Respects.firstText (s := base.sources)
    (w := { w with validator := w.validator.map (Attribute.captured e₁.world) })
    (R := fun m m' => Lookups.Recalls base.resources uses base.lookups m ∧
      Lookups.Recalls base.resources uses base.lookups m')
    (fun _ _ _ hm => hm) (fun resource key => Lookups.respects_find hworded hc resource key)
    computed Message.Origin.all e₁.lookups base.lookups ⟨he₁.memory, hself⟩
  refine ⟨{ he₁ with memory := hmemory }, fun next fs w' hrun => .ask rfl ?_⟩
  unfold Message.resolve at htext ⊢
  rw [hsame.symm.trans htext]
  exact hrun

end Serves

/-- A plan goes on with the result of a step. -/
theorem Serves.andThen {x : Action α} {f : α → Finding} {plan : (α → Plan) → Plan}
    {next : α → Plan} (hx : Serves base uses x plan e)
    (hf : ∀ a e₁, Follows base uses (f a) (next a) e₁) :
    Follows base uses (x >>= f) (plan next) e := by
  intro he fs e₂ h
  obtain ⟨a, e₁, hrunx, hrunf⟩ := bind_eq_ok.mp h
  obtain ⟨he₁, hplan⟩ := hx he a e₁ hrunx
  obtain ⟨he₂, hrun⟩ := hf a e₁ he₁ fs e₂ hrunf
  exact ⟨he₂, hplan next fs _ hrun⟩

namespace Follows

theorem pure (fs : List Failure) : Follows base uses (pure fs) (Plan.finds fs) e := by
  intro he fs' e₁ h
  cases h
  exact ⟨he, .finds⟩

theorem throw (f : Fault) (p : Plan) : Follows base uses (throw f) p e := by
  intro he fs e₁ h
  cases h

/-- What comes after a type has been registered. -/
theorem ensure {f : Finding} {p : Plan}
    (hf : ∀ e₁, e₁.registry.knows u = true → Follows base uses f p e₁) :
    Follows base uses (Action.ensure u >>= fun _ => f) p e := by
  intro he fs e₂ h
  obtain ⟨_, e₁, hensure, hrun⟩ := bind_eq_ok.mp h
  unfold Action.ensure at hensure
  rw [bind_ok (show Action.schema e = (.ok e.world.schema, e) from rfl)] at hensure
  obtain ⟨hgoes, hknown⟩ := ensureWithin_goes he hensure
  obtain ⟨he₂, hrun⟩ := hf e₁ hknown hgoes.fits fs e₂ hrun
  exact ⟨he₂, hgoes.world ▸ hrun⟩

end Follows

end Action

/-! ## 5. Validations -/

namespace Validation

open Action (Follows Serves)

variable {own : TypeId} {d : Drive} {nested : Value → TypeId → String → Finding}
  {planned : Value → TypeId → String → Plan} {g : RuleGroup} {r : Rule} {a : Attribute}

theorem collect_follows {f : α → Finding} {plan : α → Plan} (as : List α)
    (h : ∀ a ∈ as, ∀ e, Follows base uses (f a) (plan a) e) :
    ∀ e, Follows base uses (collect f as) (Plan.inOrder (as.map plan)) e := by
  induction as with
  | nil => exact fun e => .pure []
  | cons a as ih =>
    intro e he fs e₂ hrun
    obtain ⟨first, e₁, hfirst, hrun⟩ := bind_eq_ok.mp hrun
    obtain ⟨others, e₃, hothers, hrun⟩ := bind_eq_ok.mp hrun
    cases hrun
    obtain ⟨he₁, hfirst⟩ := h a List.mem_cons_self e he _ _ hfirst
    obtain ⟨he₂, hothers⟩ := ih (fun b hb => h b (List.mem_cons_of_mem a hb)) e₁ he₁ _ _ hothers
    exact ⟨he₂, .both hfirst hothers⟩

/-- Members that are visited in their order follow a plan that says nothing of it. -/
theorem collect_follows_members {f : RuleGroup → Finding} {plan : RuleGroup → Plan}
    (gs : List RuleGroup) (h : ∀ g ∈ gs, ∀ e, Follows base uses (f g) (plan g) e) :
    ∀ e, Follows base uses (collect f gs) (.members gs plan) e := by
  induction gs with
  | nil =>
    intro e he fs e₁ hrun
    cases hrun
    exact ⟨he, .noMember⟩
  | cons g gs ih =>
    intro e he fs e₂ hrun
    obtain ⟨first, e₁, hfirst, hrun⟩ := bind_eq_ok.mp hrun
    obtain ⟨others, e₃, hothers, hrun⟩ := bind_eq_ok.mp hrun
    cases hrun
    obtain ⟨he₁, hfirst⟩ := h g List.mem_cons_self e he _ _ hfirst
    obtain ⟨he₂, hothers⟩ := ih (fun g' hg' => h g' (List.mem_cons_of_mem g hg')) e₁ he₁ _ _ hothers
    exact ⟨he₂, .member (.refl _) hfirst hothers⟩

theorem messageOf_serves (hworded : ∀ c, uses c → Culture.IsWorded c)
    (hc : uses (Message.cultureFor base.sources (some r))) (pos : Position) (text : Option String) :
    Serves base uses (messageOf r a pos text) (Plan.ofFailed base r a pos text) e := by
  unfold messageOf Plan.ofFailed
  cases Message.present text with
  | some text => exact .pure text
  | none => exact .message hworded hc pos.owner

theorem applyCheck_follows (hworded : ∀ c, uses c → Culture.IsWorded c)
    (hc : uses (Message.cultureFor base.sources (some r))) (pos : Position) (v : Value) :
    Follows base uses (applyCheck d r a pos v) (Plan.ofCheck base d r a pos v) e := by
  refine (Serves.eval (a.check.runWith_keepsTypes d v pos.owner)).andThen fun outcome e₁ => ?_
  cases hpassed : outcome.passed with
  | true =>
    simp only [if_true]
    exact .pure []
  | false =>
    simp only [Bool.false_eq_true, if_false]
    exact (messageOf_serves hworded hc pos _).andThen fun text e₂ =>
      (Serves.lift _).andThen fun f e₃ => .pure [f]

/-- What a plan needs of a rule: it allows for the culture of its messages, comes to the types that it
leads to, and goes by the rules that are registered for a type whose rules it carries. -/
structure Plannable (base : Engine) (uses : Option Culture → Prop) (own : TypeId) (r : Rule) :
    Prop where
  culture : uses (Message.cultureFor base.sources (some r))
  meets : ∀ u, r.nestedType? = some u → base.Meets own u
  carried : ∀ u, r.carriedType? = some u → base.registry.knows u = true

/-- A nested value is validated as its plan says, once its type is known. -/
def NestedFollows (base : Engine) (uses : Option Culture → Prop) (own : TypeId)
    (nested : Value → TypeId → String → Finding) (planned : Value → TypeId → String → Plan) : Prop :=
  ∀ v u path e, base.Meets own u → e.registry.knows u = true →
    Follows base uses (nested v u path) (planned v u path) e

theorem applyRule_follows (hworded : ∀ c, uses c → Culture.IsWorded c)
    (hr : Plannable base uses own r) (hn : NestedFollows base uses own nested planned)
    (ha : r.validator = some a) (pos : Position) (v : Value) :
    Follows base uses (applyRule nested d r a pos v) (Plan.ofApplied base planned d r a pos v) e := by
  have hcheck : r.check? = some a.check := by simp [Rule.check?, ha]
  cases hu : a.check.nestedType? with
  | none =>
    rw [applyRule_of_leaf hu, Plan.ofApplied_of_leaf hu]
    exact applyCheck_follows hworded hr.culture pos v
  | some u =>
    have htype : r.nestedType? = some u := by simp [Rule.nestedType?, hcheck, hu]
    by_cases hv : v = .none
    · subst hv
      rw [applyRule_missing hu, Plan.ofApplied_missing hu]
      exact .pure []
    · rw [applyRule_of_nested hu hv, Plan.ofApplied_of_nested hu hv]
      split
      · exact .ensure fun e₁ hknown => hn v u pos.path e₁ (hr.meets u htype) hknown
      · rename_i hmodel
        have hcarries : r.carriedType? = some u :=
          Rule.carriedType?_of_nestedType? htype (by simpa [Rule.nestedModel?, hcheck] using hmodel)
        exact fun he =>
          hn v u pos.path e (hr.meets u htype) (he.known u (hr.carried u hcarries)) he

theorem visitRule_follows (hworded : ∀ c, uses c → Culture.IsWorded c)
    (hr : Plannable base uses own r) (hn : NestedFollows base uses own nested planned)
    (pos : Position) (v : Value) :
    Follows base uses (visitRule nested d pos v r) (Plan.ofRule base planned d pos v r) e := by
  unfold visitRule Plan.ofRule
  cases ha : r.validator with
  | none => exact .pure []
  | some a =>
    refine (Serves.eval (r.gate.isOpen_keepsTypes d pos.owner)).andThen fun isOpen e₁ => ?_
    cases isOpen with
    | false => exact .pure []
    | true =>
      cases r.forEach with
      | false => exact applyRule_follows hworded hr hn ha pos v
      | true =>
        intro he₁ fs e₂ hrun
        obtain ⟨e₃, e₄, hget, hrun⟩ := bind_eq_ok.mp hrun
        cases hget
        obtain ⟨he₂, hruns⟩ := collect_follows (e₁.world.elements v).zipIdx
          (fun x _ e => applyRule_follows hworded hr hn ha
            { pos with path := Path.element pos.path x.2 } x.1) e₁ he₁ fs e₂ hrun
        exact ⟨he₂, .ask rfl hruns⟩

theorem provided_serves (g : RuleGroup) (owner : Value) :
    Serves base uses (provided g owner) (Plan.ofProvided g owner) e := by
  unfold provided Plan.ofProvided
  cases g.rules.findSome? Rule.provider with
  | none => exact .bind (.eval (g.member.read_keepsTypes owner)) fun v e₁ => .pure v
  | some x =>
    refine .bind (.eval (g.member.read_keepsTypes owner)) fun v e₁ => ?_
    refine .bind (.eval (Expr.eval_keepsTypes _ _)) fun given e₂ => ?_
    exact .bind (.eval (g.member.write_keepsTypes owner given)) fun _ e₃ => .pure given

theorem visitMember_follows (hworded : ∀ c, uses c → Culture.IsWorded c)
    (hg : ∀ r ∈ g.rules, Plannable base uses own r) (hn : NestedFollows base uses own nested planned)
    (owner : Value) (t : TypeId) (path : String) :
    Follows base uses (visitMember nested d owner t path g)
      (Plan.ofMember base planned d owner t path g) e := by
  unfold visitMember Plan.ofMember
  cases g.rules.any Rule.hasCheck with
  | false => exact .pure []
  | true =>
    exact (provided_serves g owner).andThen fun v e₁ =>
      collect_follows g.rules (fun r hr e => visitRule_follows hworded (hg r hr) hn _ v) e₁

/-- A type that is not complete is refused, and any other one is not. -/
theorem requireBuilt_eq_ok (h : requireBuilt t e = (.ok (), e₁)) : e₁ = e := by
  unfold requireBuilt at h
  rw [bind_ok (get_apply e)] at h
  split at h <;> cases h
  rfl

/-- **Validating an object follows its plan**, on every engine that the plan fits.  The induction is on
the depth; the members come in the order in which the engine holds them, which is one of those that
the plan allows for. -/
theorem visitObject_follows
    (hworded : ∀ c, base.Uses own c → Culture.IsWorded c)
    (hcarried : ∀ u, base.Meets own u → ∀ g ∈ base.planned u, ∀ r ∈ g.rules, ∀ v,
      r.carriedType? = some v → base.registry.knows v = true)
    (d : Drive) (depth : Nat) :
    NestedFollows base (base.Uses own) own (visitObject d depth) (Plan.ofObject base d depth) := by
  induction depth with
  | zero => exact fun _ _ _ _ _ _ => .throw _ _
  | succ depth ih =>
    intro owner u path e hmet hknown he fs e₂ hvisit
    obtain ⟨_, e₁, hbuilt, hrun⟩ := bind_eq_ok.mp hvisit
    obtain rfl := requireBuilt_eq_ok hbuilt
    rw [bind_ok (get_apply e₁), collect_visitMember_shown] at hrun
    have hperm := he.rules u hknown
    have hmembers : ∀ g ∈ e₁.registry.shown u, ∀ e, Follows base (base.Uses own)
        (visitMember (visitObject d depth) d owner u path g)
        (Plan.ofMember base (Plan.ofObject base d depth) d owner u path g) e := by
      intro g hg e
      have hplanned : g ∈ base.planned u := hperm.mem_iff.mp hg
      refine visitMember_follows hworded (fun r hr => ?_) ih owner u path
      exact ⟨⟨u, hmet, g, hplanned, r, hr, rfl⟩, fun v hv => hmet.step hplanned hr hv,
        hcarried u hmet g hplanned r hr⟩
    obtain ⟨he₂, hruns⟩ := collect_follows_members _ hmembers e₁ he fs e₂ hrun
    exact ⟨he₂, hruns.perm hperm.symm⟩

end Validation
end
end MemberRules
