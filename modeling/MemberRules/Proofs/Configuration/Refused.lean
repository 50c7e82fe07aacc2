/-
# Types that are being configured are not validated

A validation by the rules of a type is refused while the rules are incomplete.  This is to be so
whenever a check has been gathered for the type that has not been registered yet, whatever calls
have been made since.

It is so, unless another configuration of the type is built in between.  This does happen, since a
block of nested rules is a configuration of the type of the nested values.  And a check that has
been attached is not always gathered: a builder that its configuration no longer lists takes checks
all the same, which nothing will register, and does not mark the type.

* `Call.Attaches`: a call that attaches a check.
* `Engine.Refuses`: an engine that refuses to validate by the rules of a type.
* `attached_refused`: what is attached is gathered, and what is gathered is refused.
* `attached_not_refused`: the two ways in which an attached check is no reason to refuse.
-/
import MemberRules.Proofs.Configuration.Gathered
import MemberRules.Proofs.Configuration.Steps
import MemberRules.Proofs.Waiting.Agreement

namespace MemberRules

open MemberRules.Computation MemberRules.Engine

namespace Engine

variable {e e' : Engine} {c : Nat} {t : TypeId} {a : Attribute}

/-! ## 1. Attached checks are gathered -/

/-- A call that attaches a check through a configuration, or through a builder that it lists. -/
inductive Call.Attaches (e : Engine) (c : Nat) : Attribute → Call → Prop
  | step (a : Attribute) : Call.Attaches e c a (.step c (.check (.attach (.ok a))))
  | rule (sel : Selector) (x : Expr) (message : Option MessageSource) (replace : Bool) :
    Call.Attaches e c { check := .must x } (.step c (.rule sel (some x) message replace))
  | builder (b : Nat) (a : Attribute) (hlisted : b ∈ (e.configuration c).builders) :
    Call.Attaches e c a (.check b (.attach (.ok a)))

/-- A rule that a builder makes for a check has this check. -/
theorem validator_newRule {m : MemberRef} {forEach : Bool} {r : Rule}
    (h : Action.newRule t m a forEach e = (.ok r, e')) : r.validator = some a := by
  obtain ⟨display, e₁, -, h⟩ := bind_eq_ok.mp h
  obtain ⟨id, e₂, -, h⟩ := bind_eq_ok.mp h
  cases h
  rfl

theorem attach_gathers (h : Action.attach c a e = (.ok (), e')) : e'.HasGathered c a := by
  obtain ⟨p, e₁, hcurrent, hput⟩ := bind_eq_ok.mp h
  obtain ⟨cfg, e₂, hcfg, hstarted⟩ := bind_eq_ok.mp hcurrent
  cases hcfg
  cases hmember : (e.configuration c).current with
  | none =>
    rw [hmember] at hstarted
    cases hstarted
  | some p =>
    rw [hmember] at hstarted
    cases hstarted
    cases hput
    let attached (p : PendingRule) : PendingRule :=
      { p with checks := p.checks ++ [{ validator := a }] }
    refine .member ⟨attached p, .inl ?_, { validator := a }, by simp [attached], rfl⟩
    show ((e.updateConfiguration c fun cfg =>
      { cfg with current := cfg.current.map attached }).configuration c).current = _
    rcases updateConfiguration_self_or_default e c fun cfg =>
      { cfg with current := cfg.current.map attached } with heq | ⟨hdefault, -⟩
    · rw [heq, hmember]
      rfl
    · rw [hdefault] at hmember
      cases hmember

theorem attachTo_gathers {b : Nat} (hlisted : b ∈ (e.configuration c).builders)
    (hmade : b < e.builders.length) (h : Action.attachTo b a e = (.ok (), e')) :
    e'.HasGathered c a := by
  obtain ⟨x, e₁, hbuilder, hrest⟩ := bind_eq_ok.mp h
  cases hbuilder
  obtain ⟨t, e₁, htype, hattach⟩ := bind_eq_ok.mp hrest
  cases htype
  obtain ⟨r, e₁, hrule, hput⟩ := bind_eq_ok.mp hattach
  have hvalidator := validator_newRule hrule
  obtain ⟨-, reflected, rfl⟩ := newRule_eq_ok hrule
  cases hput
  refine .builder b hlisted ⟨r, ?_, hvalidator⟩
  rw [builder_updateBuilder, if_pos ⟨rfl, hmade⟩]
  exact List.mem_append_right _ (List.mem_singleton.mpr rfl)

open Action in
/-- A check that is attached to a member that has just been started. -/
theorem started_gathers (howned : e.Owned) {p : PendingRule} {x : Action Unit}
    (hx : ∀ P, Keeps (Holds P) x)
    (h : (do start c p; attach c a; x) e = (.ok (), e')) : e'.HasGathered c a := by
  obtain ⟨done, e₁, hstart, hrest⟩ := bind_eq_ok.mp h
  obtain ⟨done, e₂, hattach, hlast⟩ := bind_eq_ok.mp hrest
  have hfree : e.Holds fun _ _ => False := ⟨howned, fun _ _ hP => hP.elim⟩
  have hstarts : Keeps (Holds fun _ _ => False) (start c p) :=
    updateFree_holds (fun _ hP => hP) fun _ => List.Subset.refl _
  have hstarted := (hstarts e hfree).1
  rw [hstart] at hstarted
  have hattached := (attach_holds c a _ hstarted).1
  rw [hattach] at hattached
  have hholds : e₂.Holds fun c' a' => c' = c ∧ a' = a :=
    ⟨hattached.owned, fun _ _ heq => heq.1 ▸ heq.2 ▸ attach_gathers hattach⟩
  have hlast' := (hx _ e₂ hholds).1
  rw [hlast] at hlast'
  exact hlast'.gathers c a ⟨rfl, rfl⟩

open Action in
theorem startRule_gathers (howned : e.Owned) {sel : Selector} {x : Expr}
    {message : Option MessageSource} {replace : Bool}
    (h : startRule c sel (some x) message replace e = (.ok (), e')) :
    e'.HasGathered c { check := .must x } := by
  rw [startRule_eq] at h
  have hmessage (P : Nat → Attribute → Prop) : Keeps (Holds P) (furnish c none message) :=
    furnish_keeps (attach_holds c) (checkStep_holds c) none message
  have hfree : e.Holds fun _ _ => False := ⟨howned, fun _ _ hP => hP.elim⟩
  obtain ⟨m, e₁, hbegin, hrest⟩ := bind_eq_ok.mp h
  have hbegun := (begin_holds c sel e hfree).1
  rw [hbegin] at hbegun
  cases replace with
  | false => exact started_gathers hbegun.owned hmessage hrest
  | true =>
    obtain ⟨done, e₂, hdrop, hlast⟩ := bind_eq_ok.mp hrest
    have hdropped := (drop_holds (c := c) (fun _ hP => hP) m e₁ hbegun).1
    rw [hdrop] at hdropped
    exact started_gathers hdropped.owned hmessage hlast

/-- **A check that a call has attached is gathered.** -/
theorem Call.Attaches.gathers {call : Call} {n : Nat} (h : call.Attaches e c a)
    (howned : e.Owned) (hok : call.run e = (.ok n, e')) : e'.HasGathered c a := by
  cases h with
  | step =>
    obtain ⟨done, e₁, hcheck, hreturn⟩ := bind_eq_ok.mp hok
    cases hreturn
    obtain ⟨cfg, e₁, hcfg, hrest⟩ := bind_eq_ok.mp hcheck
    cases hcfg
    obtain ⟨a', e₁, husable, hattach⟩ := bind_eq_ok.mp hrest
    obtain ⟨rfl, rfl⟩ := usable_eq_ok husable
    exact attach_gathers hattach
  | rule sel x message replace =>
    obtain ⟨done, e₁, hstart, hreturn⟩ := bind_eq_ok.mp hok
    cases hreturn
    exact startRule_gathers howned hstart
  | builder b _ hlisted =>
    obtain ⟨done, e₁, hcheck, hreturn⟩ := bind_eq_ok.mp hok
    cases hreturn
    obtain ⟨t, e₁, htype, hrest⟩ := bind_eq_ok.mp hcheck
    cases htype
    obtain ⟨a', e₁, husable, hattach⟩ := bind_eq_ok.mp hrest
    obtain ⟨rfl, rfl⟩ := usable_eq_ok husable
    exact attachTo_gathers hlisted (howned c _ hlisted).1 hattach

/-! ## 2. Validations are refused -/

theorem visitObject_of_incomplete (h : e.registry.Incomplete t) (d : Drive) (depth : Nat)
    (owner : Value) (path : String) :
    Validation.visitObject d (depth + 1) owner t path e =
      (.error (.configuration (AppError.notBuilt t)), e) := by
  have hrefused : Validation.requireBuilt t e =
      (.error (.configuration (AppError.notBuilt t)), e) := by
    unfold Validation.requireBuilt
    rw [bind_ok (get_apply e), h.knows, h.isBuilt]
    rfl
  unfold Validation.visitObject
  rw [bind_error hrefused]

theorem run_of_incomplete (h : e.registry.Incomplete t) (d : Drive) (owner : Value) :
    Validation.run d owner t e = (.error (.configuration (AppError.notBuilt t)), e) :=
  bind_error (visitObject_of_incomplete h d (nestingLimit - 1) owner "")

theorem validatePatiently_of_incomplete (h : e.registry.Incomplete t) {u : TypeId} {v : Value}
    (hown : (Validation.rulesType u v e).1 = .ok t) (limit : Option Bool) :
    Validation.validatePatiently u v limit e =
      (.error (.configuration (AppError.notBuilt t)), e) := by
  unfold Validation.validatePatiently
  rw [bind_ok (Prod.ext hown (Validation.rulesType_snd u v e))]
  cases limit <;> exact run_of_incomplete h _ v

/-- A validation at once first searches for rules that wait, which may fail by itself. -/
theorem validate_of_incomplete (h : e.registry.Incomplete t) {u : TypeId} {v : Value}
    (hown : (Validation.rulesType u v e).1 = .ok t) {waits : Bool}
    (hwaits : e.registry.waits t = .ok waits) :
    (Validation.validate u v e).1 = .error (.configuration (AppError.notBuilt t)) := by
  rw [Validation.validate_apply hown, hwaits]
  cases waits with
  | false => exact congrArg Prod.fst (run_of_incomplete h _ v)
  | true => exact congrArg Prod.fst (run_of_incomplete (e := e.note _) h _ v)

/-- An engine that refuses to validate values by the rules of a type, before any of them is applied. A
validation at once searches for rules that wait before that, which may fail by itself. -/
structure Refuses (e : Engine) (t : TypeId) : Prop where
  object : ∀ d depth owner path, Validation.visitObject d (depth + 1) owner t path e =
    (.error (.configuration (AppError.notBuilt t)), e)
  patiently : ∀ u v limit, (Validation.rulesType u v e).1 = .ok t →
    Validation.validatePatiently u v limit e = (.error (.configuration (AppError.notBuilt t)), e)
  atOnce : ∀ u v waits, (Validation.rulesType u v e).1 = .ok t → e.registry.waits t = .ok waits →
    (Validation.validate u v e).1 = .error (.configuration (AppError.notBuilt t))

theorem refuses_of_incomplete (h : e.registry.Incomplete t) : e.Refuses t where
  object := visitObject_of_incomplete h
  patiently _ _ limit hown := validatePatiently_of_incomplete h hown limit
  atOnce _ _ _ hown hwaits := validate_of_incomplete h hown hwaits

/-- **A type is not validated as long as a check of one of its configurations is gathered**, after any
calls among which no other configuration of the type is built while this one is open.  A check is
gathered from the call that attached it on, along calls that neither drop nor register it. -/
theorem attached_refused {calls : List Call} (howned : e.Owned) (hstart : e.Shields c t)
    (hno : NotOvertaken c t calls e) (htype : ((e.afterCalls calls).configuration c).type = t) :
    (∀ a, (e.afterCalls calls).HasGathered c a → (e.afterCalls calls).Refuses t) ∧
    ∀ before call later a n, calls = before ++ call :: later →
      call.Attaches (e.afterCalls before) c a → (call.run (e.afterCalls before)).1 = .ok n →
      Spares c later (call.after (e.afterCalls before)) → (e.afterCalls calls).HasGathered c a := by
  refine ⟨fun a hgathers => ?_, ?_⟩
  · exact refuses_of_incomplete (hstart.afterCalls hno htype hgathers.isOpen)
  · rintro before call later a n rfl hattaches hok hspares
    have hbefore := howned.afterCalls before
    have hgathers : (call.after (e.afterCalls before)).HasGathered c a :=
      hattaches.gathers hbefore (Prod.ext hok rfl)
    rw [afterCalls_append]
    show ((call.after (e.afterCalls before)).afterCalls later).HasGathered c a
    exact hgathers.afterCalls (hbefore.afterCalls [call]) hspares

/-! ### Clubs and their teams

The teams of a club are validated with the club, and the rules of teams are configured as well. -/

namespace Clubs

def schema : Schema := ⟨[
  { name := "Team"
    members := [⟨"name", .field (.type (.builtin .text)) none none none⟩]
    line := [.declared "Team"] },
  { name := "Club"
    members := [⟨"teams", .field (.list (.type (.declared "Team"))) none none none⟩]
    line := [.declared "Club"] }]⟩

/-- An engine with a team without a name. -/
def root : Engine :=
  { world := { schema, objects := [⟨.declared "Team", [("name", .text "")]⟩] } }

def name : Selector := .ref ⟨.declared "Team", "name", .field⟩

def required : Attribute := { check := .required false }

/-- A block of nested rules for the teams of clubs. -/
def nested : List Call := [
  .configure (.declared "Club"),
  .step 0 (.builder (.ref ⟨.declared "Club", "teams", .field⟩) true none []),
  .nest 0 none, .build 1, .check 0 (.attach (.ok { check := .childRules (.declared "Team") }))]

/-- The nested rules are there, and the name of teams has been selected. -/
def selected : List Call :=
  nested ++ [.configure (.declared "Team"), .step 2 (.rule name none none false)]

/-- Requires the name of teams. -/
def require : Call := .step 2 (.check (.attach (.ok required)))

/-- The name of teams is required, and the nested rules come after that. -/
def overtaken : List Call := [
  .configure (.declared "Team"), .step 0 (.rule name none none false),
  .step 0 (.check (.attach (.ok required))), .configure (.declared "Club"),
  .step 1 (.builder (.ref ⟨.declared "Club", "teams", .field⟩) true none []),
  .nest 0 none, .build 2, .check 0 (.attach (.ok { check := .childRules (.declared "Team") }))]

/-- A builder for the name of teams, which are then built. -/
def built : List Call := [
  .configure (.declared "Team"), .step 0 (.builder name false none []), .build 0]

end Clubs

/-- Teams are not validated after their name has been required, though the nested rules have been
built. -/
theorem attached_refused_team :
    (Clubs.root.afterCalls (Clubs.selected ++ [Clubs.require])).Refuses (.declared "Team") := by
  have howned : Clubs.root.Owned := fun _ _ hb => by cases hb
  have hstart : Clubs.root.Shields 2 (.declared "Team") := fun _ hopen =>
    absurd hopen (by decide +kernel)
  have hno : NotOvertaken 2 (.declared "Team") (Clubs.selected ++ [Clubs.require]) Clubs.root := by
    decide +kernel
  have hok := eq_ok_of_toOption (r := Clubs.require.run (Clubs.root.afterCalls Clubs.selected))
    (a := 2) (by decide +kernel)
  obtain ⟨hrefused, hgathered⟩ := attached_refused howned hstart hno (by decide +kernel)
  exact hrefused _ (hgathered Clubs.selected Clubs.require [] Clubs.required 2 rfl
    (.step Clubs.required) (congrArg Prod.fst hok) trivial)

/-- **A check that has been attached is not always a reason to refuse**: not if another configuration
of the type has been built since, and not if it was attached by a builder that its configuration does
not list any more. -/
theorem attached_not_refused :
    (¬ ∀ (calls : List Call) (c : Nat) (t : TypeId) (a : Attribute),
      ((Clubs.root.afterCalls calls).configuration c).type = t →
      (Clubs.root.afterCalls calls).HasGathered c a →
      ∀ v, (Validation.run .immediate v t (Clubs.root.afterCalls calls)).1 =
        .error (.configuration (AppError.notBuilt t))) ∧
    ¬ ∀ (calls : List Call) (b : Nat) (a : Attribute) (t : TypeId),
      (Action.builderType b (Clubs.root.afterCalls calls)).1 = .ok t →
      ((Call.check b (.attach (.ok a))).run (Clubs.root.afterCalls calls)).1 = .ok b →
      ∀ v, (Validation.run .immediate v t
        ((Call.check b (.attach (.ok a))).after (Clubs.root.afterCalls calls))).1 =
          .error (.configuration (AppError.notBuilt t)) := by
  constructor
  · intro h
    have hchecks : ((Clubs.root.afterCalls Clubs.overtaken).configuration 0).current.map
        (fun p => p.checks.isEmpty) = some false := by decide +kernel
    obtain ⟨p, hcurrent, hp⟩ := Option.map_eq_some_iff.mp hchecks
    have hgathers : (Clubs.root.afterCalls Clubs.overtaken).HasGathered 0 _ :=
      .member ⟨p, .inl hcurrent, _, List.head_mem (List.isEmpty_eq_false_iff.mp hp), rfl⟩
    have hrefused := h Clubs.overtaken 0 (.declared "Team") _ (by decide +kernel) hgathers (.object 0)
    have hok : (Validation.run .immediate (.object 0) (.declared "Team")
        (Clubs.root.afterCalls Clubs.overtaken)).1.isOk = true := by decide +kernel
    rw [hrefused] at hok
    cases hok
  · intro h
    have htype := eq_ok_of_toOption (r := Action.builderType 0 (Clubs.root.afterCalls Clubs.built))
      (a := .declared "Team") (by decide +kernel)
    have hattached := eq_ok_of_toOption (r := (Call.check 0 (.attach (.ok Clubs.required))).run
      (Clubs.root.afterCalls Clubs.built)) (a := 0) (by decide +kernel)
    have hrefused := h Clubs.built 0 Clubs.required (.declared "Team") (congrArg Prod.fst htype)
      (congrArg Prod.fst hattached) (.object 0)
    have hok : (Validation.run .immediate (.object 0) (.declared "Team")
        ((Call.check 0 (.attach (.ok Clubs.required))).after
          (Clubs.root.afterCalls Clubs.built))).1.isOk = true := by decide +kernel
    rw [hrefused] at hok
    cases hok

end Engine
end MemberRules
