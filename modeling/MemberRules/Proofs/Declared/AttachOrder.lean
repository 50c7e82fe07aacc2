/-
# The order of attached checks

Checks of a member are attached by steps on the type, to the member that was started last, or by
builders.  Calls of both kinds may alternate before the type is built.

The build registers all of these checks behind those that the member has, but not in the order of the
calls.  First come the checks that steps on the type attached, and then those of the builders, in the
order in which the builders were made; only checks at the same place are in the order of the calls.
So all of them are exactly if no call attaches at a place in front of that of a call before it.

* `PlacedCheck.inPlaces`: checks in the order of their places.
* `Call.attached`, `attachments`: the checks that calls attach to a member.
* `Engine.Recorded`, `Recorded.afterCalls`: what is gathered for a member is what calls attached.
* `attached_in_places`: the order in which a build registers it.
* `attached_out_of_order`: checks that are not in the order of the calls.
-/
import Mathlib.Order.WithBot
import MemberRules.Proofs.Configuration.Turns
import MemberRules.Proofs.Declared.Rebuilt
import MemberRules.Proofs.Declared.Registered
import MemberRules.Validation.Run

namespace MemberRules

open MemberRules.Computation MemberRules.Engine

/-! ## 1. Places -/

/-- A check that was attached to a member, and its place: a builder, or the steps on the type, whose
place is in front of all builders. -/
structure PlacedCheck where
  place : WithBot Nat
  validator : Attribute
  forEach : Bool

/-- A list in the order of some keys is what has one key after what has another. -/
theorem flatMap_filter_of_pairwise {α κ : Type} [LinearOrder κ] {f : α → κ} {ks : List κ}
    (hks : ks.Pairwise (· < ·)) {xs : List α} (hsorted : xs.Pairwise fun x y => f x ≤ f y)
    (hmem : ∀ x ∈ xs, f x ∈ ks) : (ks.flatMap fun k => xs.filter fun x => f x = k) = xs := by
  induction xs with
  | nil => simp
  | cons x xs ih =>
    obtain ⟨hfirst, hrest⟩ := List.pairwise_cons.mp hsorted
    have hxs := ih hrest fun y hy => hmem y (List.mem_cons_of_mem x hy)
    obtain ⟨before, after, rfl⟩ := List.append_of_mem (hmem x List.mem_cons_self)
    obtain ⟨-, hkeys, hapart⟩ := List.pairwise_append.mp hks
    -- Nothing has a key in front of that of the first, and nothing behind it is the first.
    have hbefore : ∀ ys : List α, (∀ y ∈ ys, f x ≤ f y) →
        (before.flatMap fun k => ys.filter fun y => f y = k) = [] := fun ys hys => by
      refine List.flatMap_eq_nil_iff.mpr fun k hk => List.filter_eq_nil_iff.mpr fun y hy heq => ?_
      have hlt := hapart k hk (f x) List.mem_cons_self
      exact absurd (hys y hy) (not_le.mpr (of_decide_eq_true heq ▸ hlt))
    have hafter : (after.flatMap fun k => (x :: xs).filter fun y => f y = k) =
        after.flatMap fun k => xs.filter fun y => f y = k := by
      refine List.flatMap_congr fun k hk => List.filter_cons_of_neg ?_
      simpa using ((List.pairwise_cons.mp hkeys).1 k hk).ne
    rw [List.flatMap_append, List.flatMap_cons, hbefore xs hfirst, List.nil_append] at hxs
    rw [List.flatMap_append, List.flatMap_cons, hbefore (x :: xs)
      (List.forall_mem_cons.mpr ⟨le_rfl, hfirst⟩), hafter, List.nil_append,
      List.filter_cons_of_pos (by simp), List.cons_append, hxs]

namespace PlacedCheck

/-- What a rule for a check shows of it. -/
def shown (x : PlacedCheck) : Option Attribute × Bool := (some x.validator, x.forEach)

/-- Checks in the order of their places, those at the same place in the order that they have. -/
def inPlaces (log : List PlacedCheck) : List PlacedCheck :=
  log.mergeSort fun x y => decide (x.place ≤ y.place)

variable {log : List PlacedCheck}

theorem pairwise_inPlaces (log : List PlacedCheck) :
    (inPlaces log).Pairwise fun x y => x.place ≤ y.place := by
  have hsorted : (inPlaces log).Pairwise fun x y => decide (x.place ≤ y.place) = true := by
    refine List.pairwise_mergeSort (fun x y z hxy hyz => ?_) (fun x y => ?_) log
    · exact decide_eq_true ((of_decide_eq_true hxy).trans (of_decide_eq_true hyz))
    · simpa using le_total x.place y.place
  exact hsorted.imp of_decide_eq_true

/-- **Checks are in the order of their places already** if none is in front of the one before it. -/
theorem inPlaces_eq_self_iff : inPlaces log = log ↔ log.Pairwise fun x y => x.place ≤ y.place :=
  ⟨fun h => h ▸ pairwise_inPlaces log, fun h => List.mergeSort_of_pairwise (h.imp decide_eq_true)⟩

/-- Those at one place are in the order that they have. -/
theorem filter_inPlaces (log : List PlacedCheck) (p : WithBot Nat) :
    (inPlaces log).filter (fun x => x.place = p) = log.filter fun x => x.place = p := by
  have hsame : (log.filter fun x => x.place = p).Pairwise fun x y =>
      decide (x.place ≤ y.place) = true := List.pairwise_of_forall_mem_list fun x hx y hy => by
    have hx := of_decide_eq_true (List.mem_filter.mp hx).2
    have hy := of_decide_eq_true (List.mem_filter.mp hy).2
    exact decide_eq_true (hx.trans hy.symm).le
  have hsub : (log.filter fun x => x.place = p).Sublist (inPlaces log) :=
    List.sublist_mergeSort
      (fun x y z hxy hyz => decide_eq_true ((of_decide_eq_true hxy).trans (of_decide_eq_true hyz)))
      (fun x y => by simpa using le_total x.place y.place) hsame List.filter_sublist
  have hkept := hsub.filter fun x => x.place = p
  rw [List.filter_filter] at hkept
  simp only [Bool.and_self] at hkept
  exact (hkept.eq_of_length ((List.mergeSort_perm log _).filter _).length_eq.symm).symm

/-- Checks place by place. -/
theorem inPlaces_eq {ps : List (WithBot Nat)} (hps : ps.Pairwise (· < ·))
    (hmem : ∀ x ∈ log, x.place ∈ ps) :
    inPlaces log = ps.flatMap fun p => log.filter fun x => x.place = p := by
  have hplaces : ∀ x ∈ inPlaces log, x.place ∈ ps := fun x hx =>
    hmem x ((List.mergeSort_perm log _).mem_iff.mp hx)
  rw [← flatMap_filter_of_pairwise hps (pairwise_inPlaces log) hplaces]
  exact List.flatMap_congr fun p _ => filter_inPlaces log p

end PlacedCheck

/-! ## 2. Small changes that attach nothing -/

namespace PendingRule

variable {k : MemberKey}

/-- The checks that steps on the type gathered for a member. -/
def stepChecks (k : MemberKey) (ps : List PendingRule) : List PlacedCheck :=
  (ps.filter fun p => p.member.key == k).flatMap fun p =>
    (p.checks.map PendingCheck.validator).map fun a => ⟨⊥, a, false⟩

theorem stepChecks_append (ps qs : List PendingRule) :
    stepChecks k (ps ++ qs) = stepChecks k ps ++ stepChecks k qs := by
  unfold stepChecks
  rw [List.filter_append, List.flatMap_append]

theorem stepChecks_of_ne {p : PendingRule} (h : p.member.key ≠ k) : stepChecks k [p] = [] := by
  simp [stepChecks, h]

theorem stepChecks_of_eq {p : PendingRule} (h : p.member.key = k) : stepChecks k [p] =
    (p.checks.map PendingCheck.validator).map fun a => ⟨⊥, a, false⟩ := by
  simp [stepChecks, h]

theorem stepChecks_of_nil {p : PendingRule} (h : p.checks = []) : stepChecks k [p] = [] := by
  by_cases hk : p.member.key = k
  · rw [stepChecks_of_eq hk, h]
    rfl
  · exact stepChecks_of_ne hk

theorem Alike.stepChecks {p p' : PendingRule} (h : p.Alike p') :
    stepChecks k [p'] = stepChecks k [p] := by
  by_cases hk : p.member.key = k
  · rw [stepChecks_of_eq hk, stepChecks_of_eq (h.member ▸ hk), h.validators]
  · rw [stepChecks_of_ne hk, stepChecks_of_ne (h.member ▸ hk)]

end PendingRule

namespace Engine

/-- Something that is done to the checks that are gathered for a member. -/
def Deed.Alters (c : Nat) (k : MemberKey) : Deed → Prop
  | attach c' k' => c' = c ∧ k' = k
  | attachTo _ => True
  | drop c' _ => c' = c
  | _ => False

end Engine

namespace Configuration

open PendingRule

variable {A : Deed → Prop} {c : Nat} {k : MemberKey} {cfg cfg' : Configuration}

/-- The checks that steps on the type gathered for a member. -/
def stepChecks (k : MemberKey) (cfg : Configuration) : List PlacedCheck :=
  PendingRule.stepChecks k cfg.gathered

theorem stepChecks_eq (cfg : Configuration) : cfg.stepChecks k =
    PendingRule.stepChecks k cfg.pending ++ PendingRule.stepChecks k cfg.current.toList :=
  stepChecks_append _ _

/-- A small change that attaches nothing to a member, and drops nothing. -/
theorem Edit.keepsChecks (h : cfg.Edit A c cfg') (hA : ∀ d, A d → ¬ d.Alters c k) :
    cfg'.stepChecks k = cfg.stepChecks k ∧ cfg'.builders = cfg.builders := by
  constructor
  · refine h.reading stepChecks_append (fun p hnone _ => stepChecks_of_nil hnone)
      (fun p p' halike _ => halike.stepChecks) (fun p x hattach => ?_) fun doomed hdrop =>
        (hA _ hdrop rfl).elim
    have hne : p.member.key ≠ k := fun hk => hA _ hattach ⟨rfl, hk⟩
    rw [stepChecks_of_ne hne]
    exact stepChecks_of_ne hne
  · cases h with
    | setting hsame => exact hsame.builders
    | drop _ _ _ hdrop => exact (hA _ hdrop rfl).elim
    | _ => rfl

end Configuration

/-- The checks that a builder holds. -/
def Builder.checks (x : Builder) : List (Option Attribute × Bool) :=
  x.rules.map fun r => (r.validator, r.forEach)

namespace Engine

open Configuration

variable {A : Deed → Prop} {e e' : Engine} {b c : Nat} {t : TypeId} {k : MemberKey}
variable {log : List PlacedCheck}

/-- A small change that attaches nothing and drops nothing leaves the checks of builders. -/
theorem Edit.keepsBuilder (h : Edit A e e') (hA : ∀ d, A d → ¬ d.Alters c k) (howned : e.Owned)
    (hb : b ∈ (e.configuration c).builders) : (e'.builder b).member = (e.builder b).member ∧
      (e'.builder b).checks = (e.builder b).checks := by
  obtain ⟨hlt, howner⟩ := howned c b hb
  cases h with
  | aside hsame =>
    rw [hsame.builder]
    exact ⟨rfl, rfl⟩
  | @amend id f hf =>
    rw [builder_amend]
    refine ⟨rfl, (List.map_map ..).trans (List.map_congr_left fun r _ => ?_)⟩
    simp only [Function.comp_apply]
    split
    · rw [Rule.validator_of_place (hf r).place, (hf r).forEach]
    · rfl
  | list c' m forEach named =>
    have hbuilder := builder_newBuilder (e := e) { owner := c', member := m, forEach } named b
    rw [if_pos hlt] at hbuilder
    exact ⟨congrArg Builder.member hbuilder, congrArg Builder.checks hbuilder⟩
  | close b' last =>
    rw [builder_updateBuilder]
    split <;> exact ⟨rfl, rfl⟩
  | attachTo b' _ _ _ _ hattach => exact (hA _ hattach trivial).elim
  | dropRules c' b' hlisted hdrop =>
    have hne : c' ≠ c := fun heq => hA _ hdrop heq
    rw [builder_updateBuilder, if_neg fun heq => ?_]
    · exact ⟨rfl, rfl⟩
    · rw [heq.1] at hlisted
      exact hne ((howned c' b hlisted).2.symm.trans howner)
  | _ => exact ⟨rfl, rfl⟩

/-- A configuration of a type for which exactly some checks have been gathered for a member. -/
structure Recorded (c : Nat) (t : TypeId) (k : MemberKey) (log : List PlacedCheck) (e : Engine) :
    Prop where
  lt : c < e.configurations.length
  type : (e.configuration c).type = t
  owned : e.Owned
  ordered : (e.configuration c).builders.Pairwise (· < ·)
  places : ∀ x ∈ log, x.place = ⊥ ∨ ∃ b ∈ (e.configuration c).builders, x.place = (b : WithBot Nat)
  steps : (e.configuration c).stepChecks k = log.filter fun x => x.place = ⊥
  builders : ∀ b ∈ (e.configuration c).builders,
    (if (e.builder b).member.key = k then (e.builder b).checks else []) =
      (log.filter fun x => x.place = (b : WithBot Nat)).map PlacedCheck.shown

/-- **What is gathered stays** with a small change that attaches nothing and drops nothing. -/
theorem Edit.recorded (h : Edit A e e') (hA : ∀ d, A d → ¬ d.Alters c k)
    (he : e.Recorded c t k log) : e'.Recorded c t k log := by
  have hlt := he.lt.trans_le h.length_le
  have htype := (h.type he.lt).trans he.type
  have howned := h.owned he.owned
  have hbuilder : ∀ b ∈ (e.configuration c).builders,
      (if (e'.builder b).member.key = k then (e'.builder b).checks else []) =
        (log.filter fun x => x.place = (b : WithBot Nat)).map PlacedCheck.shown := fun b hb => by
    obtain ⟨hmember, hchecks⟩ := h.keepsBuilder hA he.owned hb
    rw [hmember, hchecks]
    exact he.builders b hb
  -- Unless a builder is listed, the same builders are.
  have hsame : (e'.configuration c).stepChecks k = (e.configuration c).stepChecks k →
      (e'.configuration c).builders = (e.configuration c).builders → e'.Recorded c t k log :=
    fun hsteps hbuilders => ⟨hlt, htype, howned, hbuilders ▸ he.ordered, hbuilders ▸ he.places,
      hsteps.trans he.steps, hbuilders ▸ hbuilder⟩
  rcases h.configuration he.lt with hgathered | hedit | ⟨hlisted, x, hrules, hnew⟩
  · refine hsame ?_ hgathered.builders
    rw [stepChecks_eq, stepChecks_eq, hgathered.pending, hgathered.current]
  · obtain ⟨hsteps, hbuilders⟩ := hedit.keepsChecks hA
    exact hsame hsteps hbuilders
  · have hmade : e'.builder e.builders.length = x := by
      rw [Engine.builder, hnew, List.getElem?_concat_length, Option.getD_some]
    have hbefore : ∀ b ∈ (e.configuration c).builders, b < e.builders.length := fun b hb =>
      (he.owned c b hb).1
    have hnone : (log.filter fun x => x.place = (e.builders.length : WithBot Nat)) = [] := by
      refine List.filter_eq_nil_iff.mpr fun y hy heq => ?_
      rcases he.places y hy with hplace | ⟨b, hb, hplace⟩ <;> rw [hplace] at heq
      · simp at heq
      · have hlt := hbefore b hb
        have heq : b = e.builders.length := by simpa using heq
        omega
    refine ⟨hlt, htype, howned, ?_, fun y hy => ?_, ?_, fun b hb => ?_⟩
    · rw [hlisted]
      exact List.pairwise_append.mpr ⟨he.ordered, List.pairwise_singleton .., fun b hb b' hb' =>
        List.mem_singleton.mp hb' ▸ hbefore b hb⟩
    · rw [hlisted]
      exact (he.places y hy).imp_right (Exists.imp fun b hb =>
        ⟨List.mem_append_left _ hb.1, hb.2⟩)
    · rw [hlisted]
      exact he.steps
    · rw [hlisted] at hb
      rcases List.mem_append.mp hb with hb | hb
      · exact hbuilder b hb
      · obtain rfl := List.mem_singleton.mp hb
        rw [hmade, hnone, Builder.checks, hrules]
        split <;> rfl

theorem Edits.recorded (h : Edits A e e') (hA : ∀ d, A d → ¬ d.Alters c k)
    (he : e.Recorded c t k log) : e'.Recorded c t k log := h.keep (fun hedit => hedit.recorded hA) he

theorem SameBooks.recorded (h : SameBooks e e') (he : e.Recorded c t k log) :
    e'.Recorded c t k log :=
  (Edit.aside (A := fun _ => False) h).recorded (fun _ hd => hd.elim) he

/-! ## 3. Calls that attach a check -/

/-- The check that a call is to attach to a member. -/
def Call.attaches? (c : Nat) (k : MemberKey) (e : Engine) : Call → Option PlacedCheck
  | step c' (.check (.attach (.ok a))) =>
    if c' = c ∧ (e.configuration c).current.any (fun p => p.member.key == k) = true then
      some ⟨⊥, a, false⟩
    else none
  | step c' (.rule sel (some x) _ _) =>
    if c' = c ∧ (e.world.schema.select (e.configuration c).type (sel.captured e.world)).toOption.any
      (fun m => m.key == k) = true then some ⟨⊥, { check := .must x }, false⟩
    else none
  | check b (.attach (.ok a)) =>
    if b ∈ (e.configuration c).builders ∧ (e.builder b).member.key = k then
      some ⟨(b : WithBot Nat), a, (e.builder b).forEach⟩
    else none
  | _ => none

/-- The checks that a call attaches to a member: one at most, if the call does not fail. -/
def Call.attached (c : Nat) (k : MemberKey) (call : Call) (e : Engine) : List PlacedCheck :=
  if (call.run e).1.isOk then (call.attaches? c k e).toList else []

/-- The checks that calls attach to a member, in the order of the calls. -/
def attachments (c : Nat) (k : MemberKey) : List Call → Engine → List PlacedCheck
  | [], _ => []
  | call :: rest, e => call.attached c k e ++ attachments c k rest (call.after e)

theorem Call.attaches?_of_current (a : Attribute) (h : e.IsCurrent c k) :
    (step c (.check (.attach (.ok a)))).attaches? c k e = some ⟨⊥, a, false⟩ := by
  obtain ⟨p, hp, hk⟩ := h
  refine if_pos ⟨rfl, ?_⟩
  rw [hp]
  exact beq_iff_eq.mpr hk

theorem Call.attaches?_of_selects {sel : Selector} (x : Expr) (message : Option MessageSource)
    (replace : Bool) (h : e.Selects c sel k) :
    (step c (.rule sel (some x) message replace)).attaches? c k e =
      some ⟨⊥, { check := .must x }, false⟩ := by
  obtain ⟨m, hm, hk⟩ := h
  refine if_pos ⟨rfl, ?_⟩
  rw [hm]
  exact beq_iff_eq.mpr hk

theorem Call.attaches?_check (b : Nat) (a : Attribute) (e : Engine) :
    (check b (.attach (.ok a))).attaches? c k e =
      if b ∈ (e.configuration c).builders ∧ (e.builder b).member.key = k then
        some ⟨(b : WithBot Nat), a, (e.builder b).forEach⟩
      else none := rfl

/-- **A call that is to attach a check** is a step on the type that attaches one, a step that starts
the member with one, or a check of a builder. -/
theorem Call.attaches?_cases {call : Call} {x : PlacedCheck}
    (h : call.attaches? c k e = some x) :
    (∃ a, call = .step c (.check (.attach (.ok a))) ∧ e.IsCurrent c k) ∨
    (∃ sel y message replace, call = .step c (.rule sel (some y) message replace) ∧
      e.Selects c sel k) ∨
    ∃ b a, call = .check b (.attach (.ok a)) := by
  unfold attaches? at h
  split at h
  · rename_i c' a
    obtain ⟨⟨rfl, hcurrent⟩, -⟩ := Option.ite_none_right_eq_some.mp h
    obtain ⟨p, hp, hk⟩ := (Option.any_eq_true _ _).mp hcurrent
    exact .inl ⟨a, rfl, p, hp, beq_iff_eq.mp hk⟩
  · rename_i c' sel y message replace
    obtain ⟨⟨rfl, hselects⟩, -⟩ := Option.ite_none_right_eq_some.mp h
    refine .inr (.inl ⟨sel, y, message, replace, rfl, ?_⟩)
    cases hselect : e.world.schema.select (e.configuration c').type (sel.captured e.world) with
    | error f =>
      rw [hselect] at hselects
      cases hselects
    | ok m =>
      rw [hselect] at hselects
      exact ⟨m, hselect, beq_iff_eq.mp hselects⟩
  · exact .inr (.inr ⟨_, _, rfl⟩)
  · cases h

theorem Call.drops_of_drops? {s : TypeStep} {sel : Selector} (h : s.drops? = some sel) :
    (step c s).Drops c := by
  cases s with
  | rule _ _ _ replace =>
    cases replace with
    | false => cases h
    | true => rfl
  | exclude => rfl
  | dropMember => rfl
  | _ => cases h

/-- A call that is to attach nothing to a member, and drops nothing, does nothing to its checks. -/
theorem Call.not_alters {call : Call} (hdrops : ¬ call.Drops c)
    (hnone : call.attaches? c k e = none) (hbuilder : ∀ b a, call ≠ .check b (.attach (.ok a)))
    (d : Deed) (hd : call.Does e d) : ¬ d.Alters c k := by
  intro halters
  cases hd with
  | step hd =>
    cases hd with
    | attach a hk =>
      obtain ⟨rfl, rfl⟩ := halters
      rw [attaches?_of_current a hk] at hnone
      cases hnone
    | must x message replace hk =>
      obtain ⟨rfl, rfl⟩ := halters
      rw [attaches?_of_selects x message replace hk] at hnone
      cases hnone
    | drop hs =>
      obtain rfl : _ = c := halters
      exact hdrops (drops_of_drops? hs)
    | keepOnly => exact hdrops halters
    | clear => exact hdrops halters
    | _ => exact halters
  | attachTo b a => exact hbuilder b a rfl
  | _ => exact halters

namespace Recorded

open PlacedCheck

variable {a : Attribute}

/-- A step on the type attaches a check. -/
theorem step (he : e.Recorded c t k log) {f : Configuration → Configuration}
    (htype : (f (e.configuration c)).type = (e.configuration c).type)
    (hbuilders : (f (e.configuration c)).builders = (e.configuration c).builders)
    (hsteps : (f (e.configuration c)).stepChecks k =
      (e.configuration c).stepChecks k ++ [⟨⊥, a, false⟩]) :
    (e.updateConfiguration c f).Recorded c t k (log ++ [⟨⊥, a, false⟩]) := by
  have hcfg := configuration_updateConfiguration_self he.lt f
  let x : PlacedCheck := ⟨⊥, a, false⟩
  have hfilter : ∀ b : Nat, (log ++ [x]).filter (fun x => x.place = (b : WithBot Nat)) =
      log.filter fun x => x.place = (b : WithBot Nat) := fun b => by
    simp [List.filter_append, x]
  have howned : (e.updateConfiguration c f).Owned := by
    refine he.owned.of_listed (fun c' b hb => ?_) rfl fun _ => rfl
    by_cases hne : c = c'
    · subst hne
      rwa [hcfg, hbuilders] at hb
    · rwa [configuration_updateConfiguration_of_ne hne] at hb
  refine ⟨(List.length_modify ..).symm ▸ he.lt, ?_, howned, ?_, fun x hx => ?_, ?_, fun b hb => ?_⟩
  · rw [hcfg, htype, he.type]
  · rw [hcfg, hbuilders]
    exact he.ordered
  · rw [hcfg, hbuilders]
    rcases List.mem_append.mp hx with hx | hx
    · exact he.places x hx
    · exact .inl (List.mem_singleton.mp hx ▸ rfl)
  · rw [hcfg, hsteps, he.steps]
    simp [List.filter_append]
  · rw [hcfg, hbuilders] at hb
    rw [hfilter]
    exact he.builders b hb

/-- A builder attaches a check, which counts if the builder is about the member and is listed. -/
theorem builder (he : e.Recorded c t k log) (b : Nat) {r : Rule} (hvalidator : r.validator = some a)
    (hforEach : r.forEach = (e.builder b).forEach) :
    (e.updateBuilder b fun x => { x with rules := x.rules ++ [r] }).Recorded c t k
      (log ++ ((Call.check b (.attach (.ok a))).attaches? c k e).toList) := by
  let f : Builder → Builder := fun x => { x with rules := x.rules ++ [r] }
  have howned : (e.updateBuilder b f).Owned := he.owned.updateBuilder b fun _ => rfl
  have hmember : ∀ b', ((e.updateBuilder b f).builder b').member = (e.builder b').member :=
    fun b' => by
      rw [builder_updateBuilder]
      split <;> rfl
  have hchecks : ∀ b', ((e.updateBuilder b f).builder b').checks =
      if b = b' ∧ b' < e.builders.length then
        (e.builder b').checks ++ [(some a, (e.builder b).forEach)]
      else (e.builder b').checks := fun b' => by
    rw [builder_updateBuilder]
    split
    · simp [f, Builder.checks, hvalidator, hforEach]
    · rfl
  rw [Call.attaches?_check]
  by_cases hfor : b ∈ (e.configuration c).builders ∧ (e.builder b).member.key = k
  · let added : PlacedCheck := ⟨(b : WithBot Nat), a, (e.builder b).forEach⟩
    rw [if_pos hfor, Option.toList_some]
    refine ⟨he.lt, he.type, howned, he.ordered, fun x hx => ?_, ?_, fun b' hb' => ?_⟩
    · rcases List.mem_append.mp hx with hx | hx
      · exact he.places x hx
      · exact .inr ⟨b, hfor.1, List.mem_singleton.mp hx ▸ rfl⟩
    · have hnone : [added].filter (fun x => x.place = ⊥) = [] := by simp [added]
      rw [List.filter_append, hnone, List.append_nil]
      exact he.steps
    · have hrecorded := he.builders b' hb'
      rw [hmember, hchecks, List.filter_append, List.map_append, ← hrecorded]
      by_cases heq : b = b'
      · subst heq
        rw [if_pos hfor.2, if_pos hfor.2, if_pos ⟨rfl, (he.owned c b hb').1⟩]
        simp [PlacedCheck.shown]
      · rw [if_neg fun h : b = b' ∧ _ => heq h.1]
        simp [heq]
  · rw [if_neg hfor, Option.toList_none, List.append_nil]
    refine ⟨he.lt, he.type, howned, he.ordered, he.places, he.steps, fun b' hb' => ?_⟩
    have hrecorded := he.builders b' hb'
    rw [hmember, hchecks, ← hrecorded]
    by_cases heq : b = b'
    · subst heq
      have hother : (e.builder b).member.key ≠ k := fun hk => hfor ⟨hb', hk⟩
      rw [if_neg hother, if_neg hother]
    · rw [if_neg fun h : b = b' ∧ _ => heq h.1]

theorem after_check (he : e.Recorded c t k log) (b : Nat) (a : Attribute) :
    ((Call.check b (.attach (.ok a))).after e).Recorded c t k
      (log ++ (Call.check b (.attach (.ok a))).attached c k e) := by
  have hrun : (Call.check b (.attach (.ok a))).run e =
      (Action.builderCheckStep b (.attach (.ok a)) >>= fun _ => pure b) e := rfl
  unfold Call.after Call.attached
  rcases Action.builderCheckStep_attach b a e with
    ⟨hfails, hsame⟩ | ⟨r, mid, hsame, -, hforEach, hvalidator, -, hattached⟩
  · rw [hrun, bind_apply]
    rcases hstep : Action.builderCheckStep b (.attach (.ok a)) e with ⟨f | done, e₁⟩ <;>
      rw [hstep] at hfails hsame
    · exact (List.append_nil log).symm ▸ hsame.recorded he
    · cases hfails
  · rw [hrun, bind_ok hattached]
    have hmid := hsame.recorded he
    rw [← hsame.builder] at hforEach
    have hrecorded := hmid.builder b hvalidator hforEach
    have hadds : (Call.check b (.attach (.ok a))).attaches? c k mid =
        (Call.check b (.attach (.ok a))).attaches? c k e := by
      rw [Call.attaches?_check, Call.attaches?_check, hsame.configuration, hsame.builder]
    rw [hadds] at hrecorded
    exact hrecorded

theorem after_step (he : e.Recorded c t k log) (hcurrent : e.IsCurrent c k) (a : Attribute) :
    ((Call.step c (.check (.attach (.ok a)))).after e).Recorded c t k
      (log ++ (Call.step c (.check (.attach (.ok a)))).attached c k e) := by
  have hrun : (Call.step c (.check (.attach (.ok a)))).run e =
      (Action.checkStep c (.attach (.ok a)) >>= fun _ => pure c) e := rfl
  unfold Call.after Call.attached
  rw [Call.attaches?_of_current a hcurrent, hrun]
  rcases Action.checkStep_attach c a e with ⟨f, hfails⟩ | hattached
  · rw [bind_error hfails]
    exact (List.append_nil log).symm ▸ he
  · rw [bind_ok hattached]
    refine he.step rfl rfl ?_
    obtain ⟨p, hp, hk⟩ := hcurrent
    rw [stepChecks_eq, stepChecks_eq, hp, List.append_assoc]
    refine congrArg _ ?_
    let p' : PendingRule := { p with checks := p.checks ++ [{ validator := a }] }
    show PendingRule.stepChecks k [p'] = PendingRule.stepChecks k [p] ++ _
    rw [PendingRule.stepChecks_of_eq (p := p') hk, PendingRule.stepChecks_of_eq hk]
    simp [p']

/-- A member that is started with a check. -/
theorem after_rule (he : e.Recorded c t k log) {sel : Selector} (hselects : e.Selects c sel k)
    (x : Expr) (message : Option MessageSource) :
    ((Call.step c (.rule sel (some x) message false)).after e).Recorded c t k
      (log ++ (Call.step c (.rule sel (some x) message false)).attached c k e) := by
  have hrun : (Call.step c (.rule sel (some x) message false)).run e =
      (Action.startRule c sel (some x) message false >>= fun _ => pure c) e := rfl
  have hattaches := Call.attaches?_of_selects x message false hselects
  obtain ⟨m, hm, hk⟩ := hselects
  unfold Call.after Call.attached
  rw [hattaches, hrun, Action.startRule_eq]
  simp only [Bool.false_eq_true, if_false]
  by_cases hput : (Action.commit c e).1 = .ok ()
  · let p : PendingRule := { member := m, checks := [{ validator := { check := .must x } }] }
    have hattach : Action.attach c { check := .must x } (e.opened c { member := m }) =
        (.ok (), e.opened c p) := by
      unfold Action.attach
      rw [bind_ok (Action.requireCurrent_opened he.lt _ _), Action.updateCurrent_opened]
      rfl
    -- A message is set for the check, which stays the only one.
    obtain ⟨p', hfurnish, halike⟩ : ∃ p', Action.furnish c (some x) message
        (e.opened c { member := m }) = (.ok (), e.opened c p') ∧ p.Alike p' := by
      unfold Action.furnish
      rw [Option.elim_some, bind_ok hattach]
      cases message with
      | none => exact ⟨p, rfl, .refl p⟩
      | some s =>
        refine ⟨p.setMessage (some s), ?_, (PendingRule.setMessage_alike (some s) p).1⟩
        rw [Option.elim_some]
        unfold Action.checkStep
        dsimp only
        rw [bind_ok (Action.requireCurrent_opened he.lt _ _), Action.updateCurrent_opened]
    rw [bind_assoc, bind_ok (Action.begin_apply hput hm), bind_assoc,
      bind_ok (Action.start_committed _), bind_ok hfurnish]
    have htouched : (e.touched c).Recorded c t k log :=
      (Edit.mark (A := fun _ => False) (e.configuration c).type false).recorded
        (fun _ hd => hd.elim) he
    refine htouched.step rfl rfl ?_
    rw [stepChecks_eq]
    refine congrArg (Configuration.stepChecks k (e.configuration c) ++ ·) ?_
    show PendingRule.stepChecks k [p'] = _
    rw [halike.stepChecks, PendingRule.stepChecks_of_eq hk]
    rfl
  · obtain ⟨p, -, hrefused⟩ := Action.commit_eq_error hput
    have hbegin : Action.begin c sel e = (_, e.abandoned c) := bind_error hrefused
    have hforgets := Action.commit_edits (e := e) (c := c) (A := fun d => ¬ d.Alters c k)
      fun _ _ _ h => h
    rw [hrefused] at hforgets
    rw [bind_assoc, bind_error hbegin]
    exact (List.append_nil log).symm ▸ hforgets.recorded (fun _ hd => hd) he

/-- What is registered for another configuration makes no difference. -/
theorem registers (he : e.Recorded c t k log) {c' : Nat} {rs : List Rule} (hne : c' ≠ c)
    (h : e.Registers c' rs e') : e'.Recorded c t k log := by
  have hsame := h.configuration_of_ne hne
  have hbuilder : ∀ b, e'.builder b = e.builder b := fun b => by
    rw [Engine.builder, h.builders, Engine.builder]
  have howned : e'.Owned := by
    refine he.owned.of_listed (fun c₁ b hb => ?_) (congrArg List.length h.builders)
      fun b => congrArg Builder.owner (hbuilder b)
    by_cases hc₁ : c' = c₁
    · subst hc₁
      rw [h.configuration] at hb
      cases hb
    · rwa [h.configuration_of_ne hc₁] at hb
  refine ⟨h.length ▸ he.lt, hsame ▸ he.type, howned, hsame ▸ he.ordered, hsame ▸ he.places,
    hsame ▸ he.steps, fun b hb => ?_⟩
  rw [hbuilder]
  exact he.builders b (hsame ▸ hb)

/-- **What is gathered for a member is what calls attached**: a call that drops nothing, and registers
nothing, adds what it attaches. -/
theorem after (he : e.Recorded c t k log) {call : Call} (hdrops : ¬ call.Drops c)
    (hspared : ¬ call.Registers e c) : (call.after e).Recorded c t k (log ++ call.attached c k e) := by
  by_cases hbuilder : ∃ b a, call = .check b (.attach (.ok a))
  · obtain ⟨b, a, rfl⟩ := hbuilder
    exact he.after_check b a
  cases hattaches : call.attaches? c k e with
  | none =>
    have hattached : call.attached c k e = [] := by
      unfold Call.attached
      rw [hattaches]
      split <;> rfl
    have hcall := call.not_alters hdrops hattaches fun b a heq => hbuilder ⟨b, a, heq⟩
    rw [hattached, List.append_nil]
    rcases Call.after_done (fun d (hd : call.Does e d) => hd) with
      hedits | ⟨c', mid, mid', rs, hbuilds, hok, hedits, hregisters, hafter⟩
    · exact hedits.recorded hcall he
    · have hne : c' ≠ c := by
        rintro rfl
        exact hspared ⟨hbuilds, by rw [hok]; rfl⟩
      exact hafter.recorded hcall ((hedits.recorded hcall he).registers hne hregisters)
  | some x =>
    rcases Call.attaches?_cases hattaches with
      ⟨a, rfl, hcurrent⟩ | ⟨sel, y, message, replace, rfl, hselects⟩ | hcheck
    · exact he.after_step hcurrent a
    · cases replace with
      | true => exact absurd rfl hdrops
      | false => exact he.after_rule hselects y message
    · exact absurd hcheck hbuilder

/-- **Along calls that drop nothing and register nothing**, what they attach is gathered. -/
theorem afterCalls {calls : List Call} (he : e.Recorded c t k log) (hspares : Spares c calls e) :
    (e.afterCalls calls).Recorded c t k (log ++ attachments c k calls e) := by
  induction calls generalizing e log with
  | nil => exact (List.append_nil log).symm ▸ he
  | cons call rest ih =>
    obtain ⟨hdrops, hspared, hrest⟩ := hspares
    have hrecorded := ih (he.after hdrops hspared) hrest
    rwa [List.append_assoc] at hrecorded

/-- Nothing is gathered in a configuration that is not open. -/
theorem of_closed (hc : c < e.configurations.length) (howned : e.Owned)
    (hclosed : ¬ (e.configuration c).IsOpen) (k : MemberKey) :
    e.Recorded c (e.configuration c).type k [] := by
  obtain ⟨hcurrent, hpending, hbuilders⟩ : (e.configuration c).current = none ∧
      (e.configuration c).pending = [] ∧ (e.configuration c).builders = [] := by
    simpa [Configuration.IsOpen, not_or] using hclosed
  refine ⟨hc, rfl, howned, hbuilders ▸ List.Pairwise.nil, fun x hx => (by cases hx), ?_,
    fun b hb => ?_⟩
  · rw [stepChecks_eq, hcurrent, hpending]
    rfl
  · rw [hbuilders] at hb
    cases hb

/-- **What has been gathered for a member, place by place**, is what it gets when it is built. -/
theorem newChecks (he : e.Recorded c t k log) (hnumbered : e.Numbered) :
    (e.newChecks c k).map (fun r => (r.validator, r.forEach)) =
      (PlacedCheck.inPlaces log).map PlacedCheck.shown := by
  let cfg := e.configuration c
  let builderPlaces : List (WithBot Nat) := cfg.builders.map WithBot.some
  have hplaces : inPlaces log = (⊥ :: builderPlaces).flatMap fun p =>
      log.filter fun x => x.place = p := by
    refine inPlaces_eq (List.pairwise_cons.mpr ⟨fun p hp => ?_, ?_⟩) fun x hx => ?_
    · obtain ⟨b, -, rfl⟩ := List.mem_map.mp hp
      exact WithBot.bot_lt_coe b
    · exact List.pairwise_map.mpr (he.ordered.imp WithBot.coe_lt_coe.mpr)
    · rcases he.places x hx with hplace | ⟨b, hb, hplace⟩ <;> rw [hplace]
      · exact List.mem_cons_self
      · exact List.mem_cons_of_mem _ (List.mem_map_of_mem hb)
  have hsteps : ((cfg.gathered.filter fun p => p.member.key == k).flatMap fun p => p.checks.map
      fun x => p.checkRule cfg (e.displayed cfg.type p.member.name) x 0).map
        (fun r => (r.validator, r.forEach)) = (log.filter fun x => x.place = ⊥).map shown := by
    rw [← he.steps, Configuration.stepChecks, PendingRule.stepChecks, List.map_flatMap,
      List.map_flatMap]
    refine List.flatMap_congr fun p _ => ?_
    rw [List.map_map, List.map_map, List.map_map]
    rfl
  have hbuilder : ∀ b ∈ cfg.builders, (((e.builder b).rules.filter fun r =>
      r.member.key == k).map fun r => (cfg.complete r).look).map (fun r => (r.validator, r.forEach)) =
        (log.filter fun x => x.place = (b : WithBot Nat)).map shown := fun b hb => by
    rw [← he.builders b hb, List.map_map]
    have hhome : ∀ r ∈ (e.builder b).rules, r.member.key = (e.builder b).member.key := fun r hr =>
      congrArg MemberRef.key (hnumbered.home b r hr).1
    split
    · rename_i hk
      rw [List.filter_eq_self.mpr fun r hr => beq_iff_eq.mpr ((hhome r hr).trans hk)]
      rfl
    · rename_i hk
      rw [List.filter_eq_nil_iff.mpr fun r hr heq => hk ((hhome r hr).symm.trans (beq_iff_eq.mp heq))]
      rfl
  unfold Engine.newChecks listedRules
  dsimp only
  rw [List.map_append, hsteps, hplaces, List.flatMap_cons, List.map_append, List.flatMap_map,
    List.filter_flatMap, List.map_flatMap, List.map_flatMap, List.map_flatMap]
  exact congrArg _ (List.flatMap_congr hbuilder)

end Recorded

end Engine

/-! ## 4. The order in which checks are registered -/

/-- A build leaves the checks of the rules that are registered. -/
theorem Configuration.checked_renewed (cfg : Configuration) (block : Option PendingRule) (r : Rule) :
    ((cfg.renewed block r).look.validator, (cfg.renewed block r).look.forEach) =
      (r.validator, r.forEach) := by
  unfold renewed refreshed
  split
  · rfl
  · split <;> rfl

namespace Validation

/-- Things that a step finds nothing for make no difference. -/
theorem collect_filter {α : Type} {f : α → Finding} {p : α → Bool}
    (h : ∀ a, p a = false → f a = pure []) (as : List α) : collect f (as.filter p) = collect f as := by
  induction as with
  | nil => rfl
  | cons a as ih =>
    by_cases ha : p a = true
    · rw [List.filter_cons_of_pos ha, collect, collect, ih]
    · funext e
      have hfirst : f a e = (.ok [], e) := congrFun (h a (Bool.eq_false_iff.mpr ha)) e
      rw [List.filter_cons_of_neg ha, ih, collect, bind_ok hfirst, bind_apply]
      rcases collect f as e with ⟨fault | others, e'⟩ <;> rfl

/-- **The rules of a member are applied in the order of its checks**, since those without a check find
nothing. -/
theorem collect_checksAt {reg : Registry} (hreg : reg.Keyed) {t : TypeId} {g : RuleGroup}
    (hg : g ∈ reg.groupsOf t) (nested : Value → TypeId → String → Finding) (d : Drive)
    (pos : Position) (v : Value) : collect (visitRule nested d pos v) g.rules =
      collect (visitRule nested d pos v) (reg.checksAt t g.member.key) := by
  have hrules : reg.rulesOfMember t g.member.key = g.rules :=
    Registry.rulesAt_of_mem (hreg.members t) (List.mem_filter.mp hg).1
  rw [Registry.checksAt, hrules]
  refine (collect_filter (fun r hr => ?_) g.rules).symm
  unfold visitRule
  cases hvalidator : r.validator with
  | none => rfl
  | some a => simp [Rule.hasCheck, hvalidator] at hr

end Validation

variable {e₀ e₁ e₂ : Engine} {c : Nat} {calls : List Call} {out out' : List Rule}

/-- **The order in which attached checks are registered.**  Take any calls between two builds of a
configuration that end well, none of which drops what the configuration has gathered.  The second
build leaves each check that the member has at its place, and behind them come those that the calls
attached to the member: place by place, and at each place in the order of the calls.  So they come in
the order of the calls if no call attaches at a place in front of that of a call before it.
Validations apply the checks, and find their failures, in the order in which they are registered. -/
theorem attached_in_places (he : e₀.Tidy) (hc : c < e₀.configurations.length)
    (hfirst : Action.build c e₀ = (.ok out, e₁)) (hspares : Spares c calls e₁)
    (hsecond : Action.build c (e₁.afterCalls calls) = (.ok out', e₂)) (k : MemberKey) :
    (e₂.registry.checksAt (e₀.configuration c).type k).map (fun r => (r.validator, r.forEach)) =
      ((e₁.afterCalls calls).registry.checksAt (e₀.configuration c).type k).map
          (fun r => (r.validator, r.forEach)) ++
        (PlacedCheck.inPlaces (attachments c k calls e₁)).map PlacedCheck.shown ∧
    (PlacedCheck.inPlaces (attachments c k calls e₁) = attachments c k calls e₁ ↔
      (attachments c k calls e₁).Pairwise fun x y => x.place ≤ y.place) ∧
    ∀ g ∈ e₂.registry.groupsOf (e₀.configuration c).type, g.member.key = k → ∀ nested d pos v,
      Validation.collect (Validation.visitRule nested d pos v) g.rules =
        Validation.collect (Validation.visitRule nested d pos v)
          (e₂.registry.checksAt (e₀.configuration c).type k) := by
  have htidy : e₁.Tidy := by
    have hkept := (Action.build_tidy c e₀ he).1
    rwa [hfirst] at hkept
  have hends : Ends c e₀ e₁ := by
    have hends := Action.build_ends c e₀
    rw [hfirst] at hends
    exact (hends.resolve_right fun h => by cases h.1).2
  have hlt : c < e₁.configurations.length := by
    have hstays := ((Action.StaysIn.build c : Action.StaysIn ⟨0, 0⟩ (Action.build c))
      e₀ e₀.inArea_zero).2.1.configurations
    rw [hfirst] at hstays
    exact hc.trans_le hstays
  -- Nothing is gathered after the first build, so what is gathered for the second one was attached.
  have hrecorded := (Recorded.of_closed hlt htidy.numbered.owned hends.closed k).afterCalls hspares
  rw [List.nil_append, hends.types] at hrecorded
  have htidy' := htidy.afterCalls calls
  have htidy₂ : e₂.Tidy := by
    have hkept := (Action.build_tidy c (e₁.afterCalls calls) htidy').1
    rwa [hsecond] at hkept
  have hregisters := congrArg (List.map fun r : Rule => (r.validator, r.forEach))
    (Action.build_registers htidy' hrecorded.lt hsecond k)
  rw [checksToCome, List.map_append, hrecorded.newChecks htidy'.numbered, hrecorded.type,
    List.map_map, List.map_map] at hregisters
  refine ⟨?_, PlacedCheck.inPlaces_eq_self_iff, ?_⟩
  · exact hregisters.trans (congrArg (· ++ _) (List.map_congr_left fun r _ =>
      Configuration.checked_renewed _ _ r))
  · rintro g hg rfl nested d pos v
    exact Validation.collect_checksAt htidy₂.keyed.registry hg nested d pos v

/-! ## 5. Checks of the role of a user

Users are built before anything is asked of the role.  Then a step on the type and a builder attach a
check each, in one order or in the other. -/

namespace UserAddress

/-- Users when they have been built. -/
def built : Engine := (Action.build 0 engine).2

theorem engine_builds : ∃ out, Action.build 0 engine = (.ok out, built) := by
  obtain ⟨out, hout⟩ := Option.isSome_iff_exists.mp
    (show (Action.build 0 engine).1.toOption.isSome = true by decide +kernel)
  exact ⟨out, eq_ok_of_toOption hout⟩

/-- A step on the type that attaches a check of the role. -/
def byStep : List Call := [
  .step 0 (.rule (.ref role) none none false),
  .step 0 (.check (.attach (.ok { check := .required false })))]

/-- A builder that attaches a check of the role. -/
def byBuilder : List Call := [
  .step 0 (.builder (.ref role) false none []),
  .check 0 (.attach (.ok { check := .email }))]

/-- None of these calls drops or registers anything. -/
theorem spares_of_mem {calls : List Call} (h : ∀ call ∈ calls, call ∈ byStep ++ byBuilder)
    (e : Engine) : Spares 0 calls e := by
  induction calls generalizing e with
  | nil => trivial
  | cons call rest ih =>
    have hcall := h call List.mem_cons_self
    simp only [byStep, byBuilder, List.cons_append, List.nil_append, List.mem_cons,
      List.not_mem_nil, or_false] at hcall
    refine ⟨?_, fun hregisters => ?_, ih (fun x hx => h x (List.mem_cons_of_mem call hx)) _⟩
    · rcases hcall with rfl | rfl | rfl | rfl <;> exact id
    · rcases hcall with rfl | rfl | rfl | rfl <;> cases hregisters.1

/-- What checks are named after. -/
def names (xs : List (Option Attribute × Bool)) : List String :=
  xs.map fun x => (x.1.map fun a => a.check.shortName).getD ""

end UserAddress

/-- The checks of the role are registered in the order of the calls if the step comes first. -/
theorem attached_in_places_user : ∃ out e₂,
    Action.build 0 (UserAddress.built.afterCalls (UserAddress.byStep ++ UserAddress.byBuilder)) =
      (.ok out, e₂) ∧
    UserAddress.names ((e₂.registry.checksAt (UserAddress.engine.configuration 0).type
      UserAddress.role.key).map fun r => (r.validator, r.forEach)) = ["Required", "EmailAddress"] := by
  obtain ⟨first, hfirst⟩ := UserAddress.engine_builds
  obtain ⟨out, hout⟩ := Option.isSome_iff_exists.mp
    (show (Action.build 0 (UserAddress.built.afterCalls
      (UserAddress.byStep ++ UserAddress.byBuilder))).1.toOption.isSome = true by decide +kernel)
  obtain ⟨horder, hinPlaces, -⟩ := attached_in_places UserAddress.engine_tidy
    UserAddress.configured hfirst (UserAddress.spares_of_mem (fun _ h => h) _)
    (eq_ok_of_toOption hout) UserAddress.role.key
  -- The places are those of the step and of the builder, in this order.
  have hplaces : (attachments 0 UserAddress.role.key (UserAddress.byStep ++ UserAddress.byBuilder)
      UserAddress.built).Pairwise fun x y => x.place ≤ y.place := by decide +kernel
  refine ⟨out, _, eq_ok_of_toOption hout, ?_⟩
  rw [horder, hinPlaces.mpr hplaces]
  decide +kernel

/-- **Checks can be registered in another order** than that of the calls that attached them. -/
theorem attached_out_of_order :
    ¬ ∀ {e₀ e₁ e₂ : Engine} {c : Nat} {calls : List Call} {out out' : List Rule}, e₀.Tidy →
      c < e₀.configurations.length → Action.build c e₀ = (.ok out, e₁) → Spares c calls e₁ →
      Action.build c (e₁.afterCalls calls) = (.ok out', e₂) → ∀ k,
      (e₂.registry.checksAt (e₀.configuration c).type k).map (fun r => (r.validator, r.forEach)) =
        ((e₁.afterCalls calls).registry.checksAt (e₀.configuration c).type k).map
            (fun r => (r.validator, r.forEach)) ++
          (attachments c k calls e₁).map PlacedCheck.shown := by
  intro h
  obtain ⟨first, hfirst⟩ := UserAddress.engine_builds
  obtain ⟨out, hout⟩ := Option.isSome_iff_exists.mp
    (show (Action.build 0 (UserAddress.built.afterCalls
      (UserAddress.byBuilder ++ UserAddress.byStep))).1.toOption.isSome = true by decide +kernel)
  have horder := congrArg UserAddress.names (h UserAddress.engine_tidy UserAddress.configured
    hfirst (UserAddress.spares_of_mem (fun _ hx => List.mem_append.mpr (List.mem_append.mp hx).symm) _)
    (eq_ok_of_toOption hout) UserAddress.role.key)
  have hregistered : UserAddress.names (((Action.build 0 (UserAddress.built.afterCalls
      (UserAddress.byBuilder ++ UserAddress.byStep))).2.registry.checksAt
        (UserAddress.engine.configuration 0).type UserAddress.role.key).map
          fun r => (r.validator, r.forEach)) = ["Required", "EmailAddress"] := by decide +kernel
  rw [hregistered] at horder
  revert horder
  decide +kernel

end MemberRules
