/-
# Obtaining a validator

A root hands out validators.  For a type that the registry does not know, the declared rules of the
type are registered on the way, and those of the types nested in it.  A validator of any type validates
a value by the rules of its own type if that is known, and by those of the validator's type otherwise.
So obtaining a validator is of no consequence for a type that is known, as long as it stays so; but
for a type that was not known, it takes the values of this type from the rules of its bases.

* `Root.Call`: what can be asked of a root.
* `Root.Call.run_obtained`: a call respects which validators have been obtained.
* `Root.KeepsUntilAsked`: no type is dropped before a validator of it is asked for again.
* `Root.validator_changes_only_unknown`: what obtaining a validator changes.
* `Root.not_validator_changes_nothing`: it may change what other validators find.
-/
import MemberRules.Proofs.Message.Memory
import MemberRules.Proofs.Obtaining.Steps
import MemberRules.Proofs.Registry.Growth
import MemberRules.Proofs.Registry.Representation

namespace MemberRules

open MemberRules.Computation
open Engine (Obtained)
open Action (Respects)

namespace Root

/-! ## 1. Calls -/

/-- How a value is validated: at once, or with time to wait and perhaps a limit, which may have run
out from the start. -/
inductive Mode
  | atOnce
  | patient (limit : Option Bool)

/-- Validates a value by a validator. -/
def Mode.validate (t : TypeId) (v : Value) : Mode → Action ValidationResult
  | atOnce => Validation.validate t v
  | patient limit => Validation.validatePatiently t v limit

/-- What can be asked of a root, and of what belongs to it. -/
inductive Call
  /-- Configures a type by steps, up to the first that fails. -/
  | configure (t : TypeId) (steps : List TypeStep)
  /-- Goes on with a builder. -/
  | extend (b : Nat) (steps : List BuilderStep)
  | build
  /-- Registers the declared rules of a type that is not known. -/
  | ensure (t : TypeId)
  | validator (t : TypeId)
  /-- Whether a validator takes values of a type. -/
  | accepts (t other : TypeId)
  | validate (t : TypeId) (v : Value) (mode : Mode)
  | resolver (c : Resolver.Call)
  | registry (w : Registry.Write)
  /-- Finds registered rules. -/
  | find (t : TypeId) (sel : Option Selector) (wanted : Option Expr)
  | members (t : TypeId)
  | forgetMembers
  /-- Evaluates something, which may change objects. -/
  | evaluate (x : Eval Value)
  /-- A call under a culture of the surroundings. -/
  | within (ambient : Option Culture) (c : Call)

/-- What a root answers. -/
inductive Answer
  | configured (failed : Option (Nat × Fault)) (reports : List Report)
  | extended (reports : List Report)
  | done
  | accepted (answer : Bool)
  | result (r : ValidationResult)
  | resolver (answer : Resolver.Answer)
  | written (count : Nat)
  | found (rs : List Rule)
  | members (ms : List MemberInfo)
  | value (v : Value)

namespace Call

/-- A call as a step of the engine. -/
def run : Call → Action Answer
  | configure t steps => do
    let c ← Action.configure t
    let _ ← Action.takeReports
    let failed ← configureUntilFault c 0 steps
    return .configured failed (← Action.takeReports)
  | extend b steps => do
    let _ ← Action.takeReports
    runBuilderSteps b steps
    return .extended (← Action.takeReports)
  | build => do
    Action.buildAll
    return .done
  | ensure t => do
    Action.ensure t
    return .done
  | validator t => do
    Validation.prepare t
    return .done
  | accepts t other => do
    Validation.prepare t
    return .accepted ((← Action.schema).isSubtype other t)
  | validate t v mode => do
    Validation.prepare t
    return .result (← mode.validate t v)
  | resolver c => return .resolver (← c.run)
  | registry w => return .written (← w.run)
  | find t sel wanted => return .found (← Action.findRules t sel wanted)
  | members t => return .members (← Action.members t)
  | forgetMembers => do
    Action.forgetReflected
    return .done
  | evaluate x => return .value (← Action.eval x)
  | within ambient c => Action.within ambient c.run

/-- The engine after a call, which may have failed. -/
def after (c : Call) (e : Engine) : Engine := (c.run e).2

/-- A call that makes a type unknown. -/
def Drops (t : TypeId) : Call → Prop
  | registry (.call (.forget u)) => u = t
  | registry (.call .clear) => True
  | within _ c => c.Drops t
  | _ => False

/-- A call that asks for a validator of a type. -/
def Asks (t : TypeId) : Call → Prop
  | validator u | accepts u _ | validate u _ _ => u = t
  | within _ c => c.Asks t
  | _ => False

end Call

/-- The engine after calls that were made one after the other. -/
def after (cs : List Call) (e : Engine) : Engine := cs.foldl (fun e c => c.after e) e

/-- The answers to calls that are made one after the other. -/
def answers : List Call → Engine → List (Except Fault Answer)
  | [], _ => []
  | c :: cs, e => (c.run e).1 :: answers cs (c.after e)

theorem after_append (cs ds : List Call) (e : Engine) : after (cs ++ ds) e = after ds (after cs e) :=
  List.foldl_append

theorem answers_append (cs ds : List Call) (e : Engine) :
    answers (cs ++ ds) e = answers cs e ++ answers ds (after cs e) := by
  induction cs generalizing e with
  | nil => rfl
  | cons c cs ih => exact congrArg _ (ih (c.after e))

/-- Calls none of which makes a type unknown before a validator of it is asked for. -/
def KeepsUntilAsked (t : TypeId) : List Call → Prop
  | [] => True
  | c :: cs => c.Asks t ∨ ¬ c.Drops t ∧ KeepsUntilAsked t cs

/-! ## 2. One call -/

section

variable {S S' : Set TypeId}

theorem within_agree {α : Type} {x : Action α} (ambient : Option Culture)
    (hx : ∀ e e', Obtained S e e' → Agree (Obtained S') (x e) (x e')) {e e' : Engine}
    (he : Obtained S e e') :
    Agree (Obtained S') (Action.within ambient x e) (Action.within ambient x e') := by
  have hwithin : Obtained S { e with ambient } { e' with ambient } :=
    he.change (f := fun e => { e with ambient }) (fun _ _ => rfl) he.known
  obtain ⟨hresult, hleft⟩ := hx _ _ hwithin
  have hback : Obtained S' { (x { e with ambient }).2 with ambient := e.ambient }
      { (x { e' with ambient }).2 with ambient := e.ambient } :=
    hleft.change (f := fun e' => { e' with ambient := e.ambient }) (fun _ _ => rfl) hleft.known
  have hambient : e'.ambient = e.ambient := by rw [he.same]; rfl
  rw [Resolver.within_apply, Resolver.within_apply, hambient]
  exact ⟨hresult, hback⟩

theorem Mode.validate_obtained (t : TypeId) (v : Value) (mode : Mode) :
    Respects (Obtained S) (mode.validate t v) := by
  cases mode with
  | atOnce => exact Validation.validate_obtained t v
  | patient limit => exact Validation.validatePatiently_obtained t v limit

theorem resolver_obtained (c : Resolver.Call) : Respects (Obtained S) c.run := by
  cases c with
  | message ambient w object =>
    exact .bind (fun _ _ he => within_agree ambient (Action.message_obtained w object) he) fun _ =>
      .pure _
  | string resource key culture =>
    exact Action.look_obtained (fun _ _ => rfl) fun _ => .bind (Action.lookup_obtained _) fun _ =>
      .pure _
  | clear =>
    exact .bind (Action.modify_obtained (fun _ _ => rfl) fun _ => rfl) fun _ => .pure _

theorem find_obtained (t : TypeId) (sel : Option Selector) (wanted : Option Expr) :
    Respects (Obtained S) (Action.findRules t sel wanted) := by
  have hselect : ∀ sel, Respects (Obtained S) (Action.select? t sel) := by
    refine fun sel => Action.look_obtained (fun _ _ => rfl) fun e => ?_
    dsimp only
    split
    · exact .pure _
    · exact .pure _
    · exact .throw _
  have hrules : ∀ sel, Respects (Obtained S) (Action.rulesAt t sel) := fun sel =>
    .bind (hselect sel) (.ofOption (.pure _) fun _ => Action.look_obtained (fun _ _ => rfl) fun _ =>
      .pure _)
  unfold Action.findRules
  split
  · exact .bind (hrules _) fun _ => Action.eval_obtained _
  · exact Action.look_obtained (fun _ _ => rfl) fun _ => .bind (.pure _) fun _ =>
      Action.eval_obtained _

/-- A call that writes to the registry, and drops no type of the set. -/
theorem write_obtained {w : Registry.Write} (hw : ∀ t ∈ S, ¬ (Call.registry w).Drops t) :
    Respects (Obtained S) w.run := by
  have hupdate {f : Registry → Registry} (hf : Registry.Retains f) (n : Nat) :
      Respects (Obtained S) (do Action.updateRegistry f; return n) :=
    .bind (Action.updateRegistry_obtained hf) fun _ => .pure _
  cases w with
  | set t m rs => exact hupdate (Registry.retains_updateGroups t _) 0
  | call c =>
    cases c with
    | add t r => exact hupdate (Registry.retains_updateGroups t _) 1
    | addAll t rs built => exact .bind (Action.addRules_obtained t rs built) fun _ => .pure _
    | remove t member kind wanted => exact Action.removeRules_obtained t member _
    | mark t built => exact hupdate (Registry.retains_mark t built) 0
    | forget t =>
      refine Action.look_obtained (fun _ _ => rfl) fun _ => .bind (.change fun e e' he => ?_)
        fun _ => .pure _
      refine he.change (f := fun e => { e with registry := e.registry.dropType t })
        (fun _ _ => rfl) fun u hu => Registry.knows_dropType ?_ (he.known u hu)
      exact fun heq => hw u hu heq.symm
    | clear =>
      refine .bind (.change fun e e' he => ?_) fun _ => .pure _
      exact he.change (f := fun e => { e with registry := {} }) (fun _ _ => rfl) fun t ht =>
        absurd trivial (hw t ht)

/-- **A call respects which validators have been obtained**, if it drops no type of the set. -/
theorem Call.run_obtained {c : Call} (hc : ∀ t ∈ S, ¬ c.Drops t) : Respects (Obtained S) c.run := by
  induction c with
  | configure t steps =>
    exact .bind (Action.configure_obtained t) fun c => .bind Action.takeReports_obtained fun _ =>
      .bind (configureUntilFault_obtained steps c 0) fun _ => .bind Action.takeReports_obtained
        fun _ => .pure _
  | extend b steps =>
    exact .bind Action.takeReports_obtained fun _ => .bind (runBuilderSteps_obtained steps b)
      fun _ => .bind Action.takeReports_obtained fun _ => .pure _
  | build => exact .bind Action.buildAll_obtained fun _ => .pure _
  | ensure t => exact .bind (Action.ensure_obtained t) fun _ => .pure _
  | validator t => exact .bind (Validation.prepare_obtained t) fun _ => .pure _
  | accepts t other =>
    exact .bind (Validation.prepare_obtained t) fun _ => .bind Action.schema_obtained fun _ => .pure _
  | validate t v mode =>
    exact .bind (Validation.prepare_obtained t) fun _ => .bind (mode.validate_obtained t v) fun _ =>
      .pure _
  | resolver c => exact .bind (resolver_obtained c) fun _ => .pure _
  | registry w => exact .bind (write_obtained hc) fun _ => .pure _
  | find t sel wanted => exact .bind (find_obtained t sel wanted) fun _ => .pure _
  | members t => exact .bind (Action.members_obtained t) fun _ => .pure _
  | forgetMembers =>
    exact .bind (Action.modify_obtained (fun _ _ => rfl) fun _ => rfl) fun _ => .pure _
  | evaluate x => exact .bind (Action.eval_obtained x) fun _ => .pure _
  | within ambient c ih => exact fun _ _ he => within_agree ambient (ih hc) he

end

/-! ## 3. All calls -/

section

variable {S : Set TypeId} {s : TypeId} {e e' : Engine} {cs : List Call}

theorem answers_agree (hcs : ∀ c ∈ cs, ∀ t ∈ S, ¬ c.Drops t) (he : Obtained S e e') :
    answers cs e = answers cs e' ∧ Obtained S (after cs e) (after cs e') := by
  induction cs generalizing e e' with
  | nil => exact ⟨rfl, he⟩
  | cons c cs ih =>
    obtain ⟨hanswer, hleft⟩ := c.run_obtained (hcs c List.mem_cons_self) e e' he
    obtain ⟨hanswers, hend⟩ := ih (fun c hc => hcs c (List.mem_cons_of_mem _ hc)) hleft
    exact ⟨congrArg₂ List.cons hanswer hanswers, hend⟩

theorem Call.not_drops_of_mem {c : Call} (hc : ¬ c.Drops s) : ∀ t ∈ ({s} : Set TypeId), ¬ c.Drops t := by
  intro t ht
  rwa [Set.mem_singleton_iff.mp ht]

/-- A type stays known through calls none of which drops it. -/
theorem knows_after (hcs : ∀ c ∈ cs, ¬ c.Drops s) (h : e.registry.knows s = true) :
    (after cs e).registry.knows s = true := by
  have hstart : Obtained {s} e e := .refl fun t ht => by rwa [Set.mem_singleton_iff.mp ht]
  obtain ⟨-, hend⟩ := answers_agree (fun c hc => Call.not_drops_of_mem (hcs c hc)) hstart
  exact hend.known s rfl

/-- Once a validator of the type is asked for, it has been obtained from both engines. -/
theorem prepare_settles (he : Obtained {s} e e') :
    Agree (Obtained ∅) (Validation.prepare s e) (Validation.prepare s e') := by
  have hknown : e'.registry.knows s = true := by
    rw [he.same]
    exact he.known s rfl
  obtain ⟨ts, hrun, hts⟩ := Validation.prepare_of_knows (he.known s rfl)
  obtain ⟨ts', hrun', hts'⟩ := Validation.prepare_of_knows hknown
  rw [hrun, hrun']
  refine ⟨rfl, he.having_eq ts', fun u _ => ?_, fun _ h => h.elim⟩
  refine (hts' u).trans (Iff.trans ?_ (hts u).symm)
  by_cases hu : u = s
  · simp only [hu, or_true]
  · exact or_congr_left (he.agree u hu)

/-- A call that asks for a validator of the type settles the difference. -/
theorem Call.asks_settles {c : Call} (hc : c.Asks s) (he : Obtained {s} e e') :
    Agree (Obtained ∅) (c.run e) (c.run e') := by
  induction c generalizing e e' with
  | validator t => exact hc ▸ (prepare_settles he).bind fun _ => Respects.pure _
  | accepts t other =>
    exact hc ▸ (prepare_settles he).bind fun _ => Respects.bind Action.schema_obtained fun _ => .pure _
  | validate t v mode =>
    exact hc ▸ (prepare_settles he).bind fun _ => Respects.bind (mode.validate_obtained s v) fun _ =>
      .pure _
  | within ambient c ih => exact within_agree ambient (fun _ _ he => ih hc he) he
  | _ => exact hc.elim

/-- **The type may even be dropped, once a validator of it has been asked for.**  The induction is on
the calls: up to this one the type is known, and from it on the engines agree. -/
theorem answers_of_keepsUntilAsked (hcs : KeepsUntilAsked s cs) (he : Obtained {s} e e') :
    answers cs e = answers cs e' ∧ ∃ S, Obtained S (after cs e) (after cs e') := by
  induction cs generalizing e e' with
  | nil => exact ⟨rfl, {s}, he⟩
  | cons c cs ih =>
    rcases hcs with hasks | ⟨hkeeps, hrest⟩
    · obtain ⟨hanswer, hleft⟩ := c.asks_settles hasks he
      obtain ⟨hanswers, hend⟩ := answers_agree (fun _ _ _ h => h.elim) hleft
      exact ⟨congrArg₂ List.cons hanswer hanswers, ∅, hend⟩
    · obtain ⟨hanswer, hleft⟩ := c.run_obtained (Call.not_drops_of_mem hkeeps) e e' he
      obtain ⟨hanswers, hend⟩ := ih hrest hleft
      exact ⟨congrArg₂ List.cons hanswer hanswers, hend⟩

end

end Root

/-! ## 4. A type that is not known -/

section

variable {s : Schema} {t : TypeId} {reg reg' : Registry} {ms : List MemberInfo} {rs : List Rule}
  {e e' : Engine}

/-- A registry that holds what another one holds, and beyond this the declared rules of a type and of
types that its rules lead to, which are complete. -/
structure Registry.Adopts (s : Schema) (t : TypeId) (reg reg' : Registry) : Prop where
  kept : reg.KeepsKnown reg'
  knows : reg'.knows t = true
  new : ∀ u, reg.knows u = false → reg'.knows u = true →
    (u = t ∨ reg'.Wants t u) ∧ reg'.isBuilt u = true ∧
      ∃ ms, s.Reads u ms ∧ Adapts s u ms (reg'.rulesOf u)

theorem Registry.Adopts.of_extends (hnew : reg.knows t = false) (hread : s.Reads t ms)
    (hrs : rs.map Rule.value = ms.flatMap (MemberInfo.placedRules s t))
    (h : (reg.registering (t, rs)).Extends s t reg') : reg.Adopts s t reg' := by
  have hbuilt := isBuilt_registering reg t rs
  have hkept := h.known t (knows_of_isBuilt hbuilt)
  refine ⟨(keepsKnown_registering hnew rs).trans h.known, ?_, fun u hu hu' => ?_⟩
  · rw [hkept.known]
    exact knows_of_isBuilt hbuilt
  · by_cases heq : u = t
    · subst heq
      refine ⟨.inl rfl, hkept.built.trans hbuilt, ms, hread, ?_⟩
      rw [hkept.rulesOf, rulesOf_registering hnew hread hrs]
      exact adapts_of_value hread.nodup hrs
    · have hother := (untouched_registering heq reg rs).known.trans hu
      obtain ⟨hwants, hcomplete, ms', hread', -, hadapts⟩ := h.new u hother hu'
      exact ⟨.inr hwants, hcomplete, ms', hread', hadapts⟩

/-- **Registering the declared rules of a type that is not known**, and of the types nested in it.  If
the rules of the type itself cannot be derived, nothing is registered; if those of a nested type cannot,
what comes before them is. -/
theorem Action.ensure_adopts (hfaithful : e.world.schema.Faithful e.reflected)
    (hnew : e.registry.knows t = false) :
    (Action.ensure t e).1 ≠ .ok () ∧ (Action.ensure t e).2.registry = e.registry ∨
      e.registry.Adopts e.world.schema t (Action.ensure t e).2.registry := by
  have hstart : e.Grown e.world.schema t e.registry := ⟨rfl, hfaithful, .refl⟩
  obtain ⟨hgrown, hregistry, hrules⟩ := declaredRules_grown t hstart
  rw [ensure_of_unknown hnew, bind_apply]
  rcases hderived : declaredRules t e with ⟨f | rs, e₁⟩ <;> rw [hderived] at hgrown hregistry hrules
  · exact .inl ⟨(by simp), hregistry⟩
  · obtain ⟨ms, hread, hrs⟩ := hrules rs rfl
    have hadd : addRules t rs true e₁ = (.ok (), (addRules t rs true e₁).2) := rfl
    have hadded := addRules_grown hgrown.start rs (u := t)
    rw [hregistry] at hadded
    have hnested := Registry.wants_registering hnew hread hrs
    obtain ⟨hend, -⟩ := Keeps.forM (fun v hv => ensureWithin_grown _ (hnested v hv)) _ hadded
    dsimp only
    rw [bind_ok hadd]
    exact .inr (.of_extends hnew hread hrs hend.grows.extends)

end

/-! ## 5. What obtaining a validator changes -/

namespace Validation

variable {t own : TypeId} {v : Value} {e : Engine}

/-- The type whose rules a value is validated by, if there is a value. -/
theorem rulesType_of_ne_none (hv : v ≠ .none) (h : e.world.typeOf v = own) :
    (rulesType t v e).1 = .ok (if e.registry.knows own then own else t) := by
  unfold rulesType
  split
  · exact absurd rfl hv
  · rw [bind_ok (get_apply e), h]
    rfl

end Validation

namespace Root

variable {s : TypeId} {e e' : Engine} {cs : List Call}

/-- A validator of a type that is known is obtained, and this is respected. -/
theorem validator_obtained (h : e.registry.knows s = true) :
    ((Call.validator s).run e).1 = .ok .done ∧ Obtained {s} e ((Call.validator s).after e) := by
  obtain ⟨ts, hrun, hts⟩ := Validation.prepare_of_knows h
  have hvalidator : (Call.validator s).run e = (.ok .done, e.having ts) := bind_ok hrun
  unfold Call.after
  rw [hvalidator]
  refine ⟨rfl, rfl, fun t ht => (hts t).trans (or_iff_left ht), fun t ht => ?_⟩
  rwa [Set.mem_singleton_iff.mp ht]

/-- A validator that was obtained before is at hand. -/
theorem validator_again (h : s ∈ e.validated) :
    (Call.validator s).run e = (.ok .done, e) := bind_ok (Validation.prepare_of_mem h)

/-- Obtaining a validator of a type that stays known is of no consequence. -/
theorem validator_of_known {later : List Call}
    (h : s ∈ e.validated ∨ e.registry.knows s = true ∧ KeepsUntilAsked s later) :
    ((Call.validator s).run e).1 = .ok .done ∧
      answers later ((Call.validator s).after e) = answers later e ∧
      ∃ S, Obtained S (after later e) (after later ((Call.validator s).after e)) := by
  rcases h with hmem | ⟨hknown, hlater⟩
  · unfold Call.after
    rw [validator_again hmem]
    exact ⟨rfl, rfl, ∅, .refl fun _ h => h.elim⟩
  · obtain ⟨hdone, hobtained⟩ := validator_obtained hknown
    obtain ⟨hanswers, hend⟩ := answers_of_keepsUntilAsked hlater hobtained
    exact ⟨hdone, hanswers.symm, hend⟩

/-- Obtaining the first validator of a type that is not known registers it, unless its rules cannot
be derived. -/
theorem validator_of_unknown (hfirst : s ∉ e.validated) (hnew : e.registry.knows s = false)
    (hfaithful : e.world.schema.Faithful e.reflected) :
    ((Call.validator s).run e).1 ≠ .ok .done ∧
        ((Call.validator s).after e).registry = e.registry ∨
      e.registry.Adopts e.world.schema s ((Call.validator s).after e).registry := by
  have hensured := Action.ensure_adopts hfaithful hnew
  have hprepare := Validation.prepare_of_notMem hfirst
  unfold Call.after
  rcases hensure : Action.ensure s e with ⟨f | _, e₁⟩ <;> rw [hensure] at hensured
  · have hrun : (Call.validator s).run e = (.error f, e₁) :=
      bind_error (hprepare.trans (bind_error hensure))
    rw [hrun]
    exact hensured.imp_left fun h => ⟨by simp, h.2⟩
  · have hrun : (Call.validator s).run e = (.ok .done, e₁.having (e₁.validated ++ [s])) :=
      bind_ok (hprepare.trans (bind_ok hensure))
    rw [hrun]
    exact hensured.imp_left fun h => absurd rfl h.1

/-- **What obtaining a validator changes.**  It is of no consequence if one has been obtained before,
or if the type is known and is not dropped before a validator of it is asked for again: all calls are
answered as without it, and any validator finds the same.  If the type is not known, its values were
validated by the rules of any validator's type.  Then the declared rules of the type are registered,
and those of the types nested in it, unless they cannot be derived, and nothing changes for the types
that were known; but the values of the type are validated by the rules of their own type from then
on. -/
theorem validator_changes_only_unknown (before later : List Call) (s : TypeId) (e : Engine) :
    (s ∈ (after before e).validated ∨
        (after before e).registry.knows s = true ∧ KeepsUntilAsked s later →
      answers (before ++ .validator s :: later) e =
          answers before e ++ .ok .done :: answers later (after before e) ∧
        answers (before ++ later) e = answers before e ++ answers later (after before e) ∧
        ∀ t v mode, ((Call.validate t v mode).run (after (before ++ .validator s :: later) e)).1 =
          ((Call.validate t v mode).run (after (before ++ later) e)).1) ∧
    (s ∉ (after before e).validated → (after before e).registry.knows s = false →
      (after before e).world.schema.Faithful (after before e).reflected →
      (∀ t v, v ≠ .none → (after before e).world.typeOf v = s →
        (Validation.rulesType t v (after before e)).1 = .ok t) ∧
      (((Call.validator s).run (after before e)).1 ≠ .ok .done ∧
          (after (before ++ [.validator s]) e).registry = (after before e).registry ∨
        (after before e).registry.Adopts (after before e).world.schema s
            (after (before ++ [.validator s]) e).registry ∧
          ((∀ c ∈ later, ¬ c.Drops s) →
            ∀ t v, v ≠ .none → (after (before ++ .validator s :: later) e).world.typeOf v = s →
              (Validation.rulesType t v (after (before ++ .validator s :: later) e)).1 =
                .ok s))) := by
  rw [answers_append, answers_append, after_append, after_append, after_append]
  generalize after before e = e
  constructor
  · intro h
    obtain ⟨hdone, hanswers, S, hend⟩ := validator_of_known h
    refine ⟨?_, rfl, fun t v mode => ?_⟩
    · show _ ++ ((Call.validator s).run e).1 :: answers later ((Call.validator s).after e) = _
      rw [hdone, hanswers]
    · exact ((Call.validate t v mode).run_obtained (fun _ _ h => h) _ _ hend).1.symm
  · intro hfirst hnew hfaithful
    refine ⟨fun t v hv hown => ?_, ?_⟩
    · rw [Validation.rulesType_of_ne_none hv hown, hnew]
      rfl
    · rcases validator_of_unknown hfirst hnew hfaithful with hfailed | hadopts
      · exact .inl hfailed
      · refine .inr ⟨hadopts, fun hlater t v hv hown => ?_⟩
        rw [Validation.rulesType_of_ne_none hv hown]
        exact congrArg Except.ok (if_pos (knows_after hlater hadopts.knows))

/-! ### An employee without a name

A person must have a name, which is configured; an employee is a person, and nothing is declared for
employees. -/

namespace Staff

def person : TypeId := .declared "Person"

def employee : TypeId := .declared "Employee"

def schema : Schema := ⟨[
  { name := "Person"
    members := [⟨"name", .field (.type (.builtin .text)) none none none⟩]
    line := [person] },
  { name := "Employee"
    members := [⟨"number", .field (.type (.builtin .text)) none none none⟩]
    line := [employee, person] }]⟩

def engine : Engine :=
  { world := { schema, objects := [⟨employee, [("name", .text ""), ("number", .text "")]⟩] } }

/-- A person must have a name. -/
def named : Call := .configure person [
  .rule (.ref ⟨person, "name", .field⟩) none none false,
  .check (.attach (.ok { check := .required false })),
  .build]

/-- Whether the employee passes for a person after some calls. -/
def passes (cs : List Call) : Bool :=
  match ((Call.validate person (.object 0) .atOnce).run (after cs engine)).1 with
  | .ok (.result r) => r.isValid
  | _ => false

end Staff

open Staff in
theorem staff_validator_changes_only_unknown :
    answers ([named, .ensure employee] ++ [.validator employee]) engine =
        answers [named, .ensure employee] engine ++ [.ok .done] ∧
      (after [named, .forgetMembers] engine).registry.Adopts
        (after [named, .forgetMembers] engine).world.schema employee
        (after [named, .forgetMembers, .validator employee] engine).registry ∧
      (Validation.rulesType person (.object 0) (after [named, .forgetMembers] engine)).1 =
        .ok person ∧
      (Validation.rulesType person (.object 0)
        (after [named, .forgetMembers, .validator employee] engine)).1 = .ok employee := by
  have hknown : (after [named, .ensure employee] engine).registry.knows employee = true := by
    decide +kernel
  have hunknown : employee ∉ (after [named, .forgetMembers] engine).validated ∧
      (after [named, .forgetMembers] engine).registry.knows employee = false := by decide +kernel
  have hfaithful : (after [named, .forgetMembers] engine).world.schema.Faithful
      (after [named, .forgetMembers] engine).reflected := Schema.faithful_nil _
  have hdone : ((Call.validator employee).run (after [named, .forgetMembers] engine)).1 = .ok .done :=
    congrArg Prod.fst (bind_ok (eq_ok_of_toOption (a := ()) (by decide +kernel)))
  obtain ⟨hanswers, -, -⟩ := (validator_changes_only_unknown [named, .ensure employee] [] employee
    engine).1 (.inr ⟨hknown, trivial⟩)
  obtain ⟨hbefore, hregistered⟩ := (validator_changes_only_unknown [named, .forgetMembers] []
    employee engine).2 hunknown.1 hunknown.2 hfaithful
  obtain ⟨hadopts, hafter⟩ := hregistered.resolve_left fun h => h.1 hdone
  refine ⟨hanswers, hadopts, hbefore person _ (by simp) (by decide +kernel), ?_⟩
  exact hafter (fun _ h => by cases h) person _ (by simp) (by decide +kernel)

open Staff in
/-- **Obtaining a validator may change what others find**: if the type was not known, and even if it
was, but has been dropped before a validator is asked for again. -/
theorem not_validator_changes_nothing :
    (¬ ∀ (e : Engine) (before later : List Call) (t s : TypeId) (v : Value) (mode : Mode),
      e.world.schema.isSubtype s t = true → e.world.typeOf v = s →
        ((Call.validate t v mode).run (after (before ++ .validator s :: later) e)).1 =
          ((Call.validate t v mode).run (after (before ++ later) e)).1) ∧
    ¬ ∀ (e : Engine) (before later : List Call) (t s : TypeId) (v : Value) (mode : Mode),
      e.world.schema.isSubtype s t = true → e.world.typeOf v = s →
        (after before e).registry.knows s = true →
          ((Call.validate t v mode).run (after (before ++ .validator s :: later) e)).1 =
            ((Call.validate t v mode).run (after (before ++ later) e)).1 := by
  have hpasses {cs cs' : List Call} (h : ((Call.validate person (.object 0) .atOnce).run
      (after cs engine)).1 = ((Call.validate person (.object 0) .atOnce).run (after cs' engine)).1) :
      passes cs = passes cs' := by
    unfold passes
    rw [h]
  have hsubtype : engine.world.schema.isSubtype employee person = true := by decide +kernel
  constructor
  · intro h
    have hsame := hpasses (h engine [named] [] person employee (.object 0) .atOnce hsubtype rfl)
    revert hsame
    decide +kernel
  · intro h
    have hknown : (after [named, .ensure employee] engine).registry.knows employee = true := by
      decide +kernel
    have hsame := hpasses (h engine [named, .ensure employee]
      [.registry (.call (.forget employee)), .validator employee] person employee (.object 0)
      .atOnce hsubtype rfl hknown)
    revert hsame
    decide +kernel

end Root
end MemberRules
