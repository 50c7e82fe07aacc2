/-
# Selectors that select nothing

A step on a type that selects a member fails when its selector selects none.  This is meant to change
nothing, so that a type that could be validated still can be.

But such a step marks the type as incomplete before it tries its selector, and the mark stays.  Most
of these steps also put away the member that was started before them.  If this is refused, because
that member has no check, the selector is not tried at all and the member is forgotten.

* `Schema.select_eq_error`: how selecting a member fails.
* `TypeStep.run_unselected`, `TypeStep.run_of_refused`: how such a step ends, and what it leaves.
* `unselected_unchanged_iff`: when it leaves everything as it was.
* `unselected_incomplete`: a complete type that is not validated any more.
-/
import MemberRules.Proofs.Configuration.Deeds
import MemberRules.Proofs.Configuration.Refused

namespace MemberRules

open MemberRules.Computation

/-! ## 1. Steps that select a member -/

namespace TypeStep

/-- Whether a step selects its member before it puts away what was started before. -/
def selectsFirst : TypeStep → Bool
  | .gate (some _) _ => true
  | _ => false

end TypeStep

/-- **A selector that selects nothing** is an error of the configuration, unless it is a value that
cannot even be shown in one. -/
theorem Schema.select_eq_error {s : Schema} {t : TypeId} {sel : Selector} {f : Fault}
    (h : s.select t sel = .error f) :
    (∃ err, f = .configuration err ∧ err.code = .unknownMember) ∨
      ∃ v, sel = .value v ∧ v.isShowable = false ∧ f = .badValue := by
  have hmember : ∀ n, s.member t n = .error f →
      ∃ err, f = .configuration err ∧ err.code = .unknownMember := fun n hn => by
    unfold Schema.member at hn
    split at hn
    · cases hn
    · cases hn
      exact ⟨_, rfl, rfl⟩
  have hunresolved : ∀ reason, f = sel.unresolved t reason →
      (∃ err, f = .configuration err ∧ err.code = .unknownMember) ∨
        ∃ v, sel = .value v ∧ v.isShowable = false ∧ f = .badValue := fun reason hf => by
    subst hf
    unfold Selector.unresolved
    cases hshown : sel.shown with
    | ok shown => exact .inl (by cases reason <;> exact ⟨_, rfl, rfl⟩)
    | error f =>
      refine .inr ?_
      cases sel with
      | value v =>
        change v.shown? = _ at hshown
        unfold Value.shown? at hshown
        split at hshown
        · cases hshown
        · cases hshown
          exact ⟨v, rfl, Bool.eq_false_iff.mpr ‹_›, rfl⟩
      | _ => cases hshown
  unfold Schema.select at h
  split at h
  · cases h
  · exact .inl (hmember _ h)
  · split at h
    · split at h
      · exact .inl (hmember _ h)
      · exact hunresolved _ (Except.error.inj h).symm
    · exact hunresolved _ (Except.error.inj h).symm
    · exact hunresolved _ (Except.error.inj h).symm
    · rename_i n called _
      cases hm : s.member t n with
      | error f' =>
        rw [hm] at h
        exact .inl (hmember n (hm.trans h))
      | ok m =>
        rw [hm] at h
        change (if (called && m.kind != .method) = true then _ else _) = _ at h
        split at h
        · cases h
          exact .inl ⟨_, rfl, rfl⟩
        · cases h

/-! ## 2. What they leave when they fail -/

theorem Registry.isBuilt_mark_false (reg : Registry) (t u : TypeId) :
    (reg.mark t false).isBuilt u = if u = t then false else reg.isBuilt u := by
  split
  · subst t
    exact isBuilt_mark false
  · exact congrArg (Option.getD · false) (lookup_updateEntry_of_ne ‹_› ..)

namespace Engine

variable {e e' : Engine} {c : Nat}

/-- Whether a step comes to try its selector: what was started before does not have to be put away,
or it can be. -/
def Tries (c : Nat) (s : TypeStep) (e : Engine) : Prop :=
  s.selectsFirst = true ∨ (Action.commit c e).1 = .ok ()

/-- What a step leaves that has tried its selector without success. -/
def unselected (c : Nat) (s : TypeStep) (e : Engine) : Engine :=
  if s.selectsFirst then e.touched c else (e.touched c).committed c

/-- A call that changed nothing: neither the registered rules, nor what a configuration gathers, nor
which types are complete. -/
structure Unchanged (c : Nat) (e e' : Engine) : Prop where
  registered : e'.registry.groups = e.registry.groups
  gathered : (e'.configuration c).gathered = (e.configuration c).gathered
  listed : (e'.configuration c).builders = (e.configuration c).builders
  builders : e'.builders = e.builders
  providers : (e'.configuration c).providers = (e.configuration c).providers
  complete : ∀ t, e'.registry.isBuilt t = e.registry.isBuilt t

theorem registry_unselected (c : Nat) (s : TypeStep) (e : Engine) :
    (e.unselected c s).registry = e.registry.mark (e.configuration c).type false := by
  unfold unselected
  split <;> rfl

/-- Where a selector has been tried, what was gathered is still gathered. -/
theorem configuration_unselected (c : Nat) (s : TypeStep) (e : Engine) :
    ((e.unselected c s).configuration c).gathered = (e.configuration c).gathered ∧
      ((e.unselected c s).configuration c).builders = (e.configuration c).builders ∧
      ((e.unselected c s).configuration c).providers = (e.configuration c).providers := by
  unfold unselected
  split
  · exact ⟨rfl, rfl, rfl⟩
  · rcases configuration_updateConfiguration (e := e.touched c) c c
      (fun cfg => { cfg with pending := cfg.gathered, current := none }) with h | h
    · rw [committed, h]
      exact ⟨rfl, rfl, rfl⟩
    · rw [committed, h]
      exact ⟨List.append_nil _, rfl, rfl⟩

/-- A type that was incomplete anyway is as it was. -/
theorem unchanged_unselected_iff (c : Nat) (s : TypeStep) (e : Engine) :
    e.Unchanged c (e.unselected c s) ↔ e.registry.isBuilt (e.configuration c).type = false := by
  obtain ⟨hgathered, hlisted, hproviders⟩ := configuration_unselected c s e
  constructor
  · intro h
    have hbuilt := h.complete (e.configuration c).type
    rw [registry_unselected, Registry.isBuilt_mark_false, if_pos rfl] at hbuilt
    exact hbuilt.symm
  · intro hincomplete
    refine ⟨?_, hgathered, hlisted, ?_, hproviders, fun t => ?_⟩
    · rw [registry_unselected]
      rfl
    · unfold unselected
      split <;> rfl
    · rw [registry_unselected, Registry.isBuilt_mark_false]
      split
      · subst t
        exact hincomplete.symm
      · rfl

end Engine

namespace TypeStep

variable {s : TypeStep} {sel : Selector} {f g : Fault} {e e' : Engine} {c : Nat}

/-- A step fails where it begins. -/
theorem run_of_begin (hsel : s.selector? = some sel) (hlast : s.selectsFirst = false)
    (h : Action.begin c sel e = (.error g, e')) : s.run c e = (.error g, e') := by
  cases s with
  | rule _ must message replace =>
    cases hsel
    exact bind_error (bind_error h)
  | builder _ forEach name steps =>
    cases hsel
    exact bind_error (bind_error h)
  | gate sel' g =>
    cases sel' with
    | none => cases hsel
    | some _ => cases hlast
  | exclude _ =>
    cases hsel
    exact bind_error (bind_error h)
  | always _ =>
    cases hsel
    exact bind_error (bind_error h)
  | dropMember _ kind =>
    cases hsel
    exact bind_error (bind_error h)
  | keepOnly _ =>
    cases hsel
    exact bind_error (bind_error h)
  | _ => cases hsel

/-- **A step whose selector selects nothing** fails with the error of the selector. -/
theorem run_unselected (hsel : s.selector? = some sel) (htries : e.Tries c s)
    (hnone : e.world.schema.select (e.configuration c).type (sel.captured e.world) = .error f) :
    s.run c e = (.error f, e.unselected c s) := by
  cases hfirst : s.selectsFirst with
  | false =>
    have hput : (Action.commit c e).1 = .ok () := htries.resolve_left (by simp [hfirst])
    have hbegin := Action.begin_of_commit sel hput
    rw [hnone] at hbegin
    rw [run_of_begin hsel hfirst hbegin, Engine.unselected, hfirst]
    rfl
  | true =>
    cases s with
    | gate sel' g =>
      cases sel' with
      | none => cases hsel
      | some _ =>
        cases hsel
        have hselect : Action.select ((e.touched c).configuration c).type sel (e.touched c) =
            (.error f, e.touched c) := by
          rw [← hnone]
          rfl
        have hgated : Action.startGated c (some sel) e = (.error f, e.touched c) := by
          unfold Action.startGated
          dsimp only
          rw [bind_ok (Action.touch_apply e), Action.configuration_bind, bind_error hselect]
        exact bind_error hgated
    | _ => cases hfirst

/-- **A step that does not come to try its selector** fails for the member that was started before,
and forgets it. -/
theorem run_of_refused (hsel : s.selector? = some sel) (htries : ¬ e.Tries c s) :
    ∃ p, (e.configuration c).current = some p ∧ s.run c e = (.error (.configuration
      (AppError.missingRule (e.configuration c).type p.member.name)), e.abandoned c) := by
  obtain ⟨hlast, hput⟩ := not_or.mp htries
  obtain ⟨p, hp, hcommit⟩ := Action.commit_eq_error hput
  exact ⟨p, hp, run_of_begin hsel (Bool.eq_false_iff.mpr hlast) (bind_error hcommit)⟩

end TypeStep

/-! ## 3. When nothing changes -/

variable {e : Engine} {c : Nat}

/-- A member that is forgotten is not gathered any more. -/
theorem Engine.not_unchanged_abandoned {p : PendingRule}
    (hp : (e.configuration c).current = some p) : ¬ e.Unchanged c (e.abandoned c) := fun h => by
  have hcurrent : (e.abandoned c).configuration c = { e.configuration c with current := none } := by
    rcases updateConfiguration_self_or_default e c
      (fun cfg => { cfg with current := none }) with heq | ⟨hdefault, -⟩
    · exact heq
    · rw [hdefault] at hp
      cases hp
  have hgathered := congrArg List.length h.gathered
  rw [hcurrent] at hgathered
  simp [Configuration.gathered, hp] at hgathered

/-- **When a step whose selector selects nothing changes nothing.**  It always fails, and the
registered rules stay.  If it comes to try its selector, what is gathered stays as well, but the type
is incomplete then, and refused by validations.  Otherwise the member that was started before is
lost.  So nothing changes only if the selector is tried and the type was incomplete before. -/
theorem unselected_unchanged_iff {s : TypeStep} {sel : Selector} {f : Fault}
    (hsel : s.selector? = some sel)
    (hnone : e.world.schema.select (e.configuration c).type (sel.captured e.world) = .error f) :
    ((∃ err, f = .configuration err ∧ err.code = .unknownMember) ∨
      ∃ v, sel.captured e.world = .value v ∧ v.isShowable = false ∧ f = .badValue) ∧
    (e.Tries c s → s.run c e = (.error f, e.unselected c s) ∧
      (e.unselected c s).Refuses (e.configuration c).type) ∧
    (¬ e.Tries c s → ∃ p, (e.configuration c).current = some p ∧ s.run c e =
      (.error (.configuration (AppError.missingRule (e.configuration c).type p.member.name)),
        e.abandoned c)) ∧
    (s.run c e).2.registry.groups = e.registry.groups ∧
    (e.Unchanged c (s.run c e).2 ↔
      e.Tries c s ∧ e.registry.isBuilt (e.configuration c).type = false) := by
  refine ⟨Schema.select_eq_error hnone, fun htries => ⟨s.run_unselected hsel htries hnone, ?_⟩,
    TypeStep.run_of_refused hsel, ?_, ?_⟩
  · refine Engine.refuses_of_incomplete ?_
    rw [Engine.registry_unselected]
    exact Registry.incomplete_mark _ _
  · by_cases htries : e.Tries c s
    · rw [s.run_unselected hsel htries hnone, Engine.registry_unselected]
      rfl
    · obtain ⟨p, -, hrun⟩ := TypeStep.run_of_refused hsel htries
      rw [hrun]
      rfl
  · by_cases htries : e.Tries c s
    · rw [s.run_unselected hsel htries hnone, Engine.unchanged_unselected_iff]
      exact (and_iff_right htries).symm
    · obtain ⟨p, hp, hrun⟩ := TypeStep.run_of_refused hsel htries
      rw [hrun]
      exact iff_of_false (Engine.not_unchanged_abandoned hp) fun h => htries h.1

/-! ## 4. A member that users do not have -/

namespace UserAddress

/-- A builder for a member that there is not. -/
def misnamed : TypeStep := .builder (.name "mail") false none []

/-- The error of its selector. -/
def unknown : AppError := AppError.unknownMember (engine.configuration 0).type "mail"

theorem misnamed_fails : engine.world.schema.select (engine.configuration 0).type
    ((Selector.name "mail").captured engine.world) = .error (.configuration unknown) := by
  have hnone : engine.world.schema.member? (engine.configuration 0).type "mail" = none := by
    decide +kernel
  show engine.world.schema.member (engine.configuration 0).type "mail" = _
  rw [Schema.member, hnone]
  rfl

theorem engine_complete : engine.registry.isBuilt (engine.configuration 0).type = true := by
  decide +kernel

end UserAddress

/-- Users are not validated any more after a builder for a member that they do not have. -/
theorem unselected_unchanged_iff_user :
    UserAddress.misnamed.run 0 UserAddress.engine = (.error (.configuration UserAddress.unknown),
      UserAddress.engine.unselected 0 UserAddress.misnamed) ∧
    (UserAddress.engine.unselected 0 UserAddress.misnamed).Refuses
      (UserAddress.engine.configuration 0).type ∧
    ¬ UserAddress.engine.Unchanged 0 (UserAddress.misnamed.run 0 UserAddress.engine).2 := by
  obtain ⟨-, htried, -, -, hunchanged⟩ := unselected_unchanged_iff (s := UserAddress.misnamed) rfl
    UserAddress.misnamed_fails
  obtain ⟨hrun, hrefuses⟩ := htried (.inr UserAddress.able)
  refine ⟨hrun, hrefuses, fun h => ?_⟩
  have hincomplete := (hunchanged.mp h).2
  rw [UserAddress.engine_complete] at hincomplete
  cases hincomplete

/-- **A complete type can be incomplete after a step whose selector selected nothing.** -/
theorem unselected_incomplete :
    ¬ ∀ {e : Engine} {c : Nat} {s : TypeStep} {sel : Selector} {err : AppError},
      s.selector? = some sel →
      e.world.schema.select (e.configuration c).type (sel.captured e.world) =
        .error (.configuration err) →
      (∃ err', (s.run c e).1 = .error (.configuration err')) ∧ e.Unchanged c (s.run c e).2 := by
  intro h
  obtain ⟨-, hunchanged⟩ := h (s := UserAddress.misnamed) rfl UserAddress.misnamed_fails
  rw [TypeStep.run_unselected (s := UserAddress.misnamed) rfl (.inr UserAddress.able)
    UserAddress.misnamed_fails, Engine.unchanged_unselected_iff, UserAddress.engine_complete] at hunchanged
  cases hunchanged

end MemberRules
