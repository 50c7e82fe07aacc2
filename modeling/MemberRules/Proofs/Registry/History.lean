/-
# What a registry remembers of its history

A registry is changed by calls: rules are added, removed and forgotten, types are marked, everything
is cleared.  What it lists afterwards can be said without the registry, from the calls alone.  A rule
is listed if it was the last one to be added under its key and nothing has removed it since.  The
rules of a member stand in the order in which their keys came in, where a key that was removed and
added again comes in anew.  The members of a type stand in the order in which they received their
first rule; a member keeps its place until the type is forgotten, also while it has no rules.

Calls are taken apart into events, so that a time is a place in the list of events.  What holds since
when is then a matter of the events before that place, and one argument serves both orders: a list
that only loses elements, or gains new ones at its end, is ordered by when they came in.

* `Call.run`, `Call.events`: calls on a registry, and the events that they consist of.
* `Stays`, `KeyHeld`, `Received`, `Since`: the history view.
* `Remembers`: what a registry lists, in terms of its history.
* `registry_remembers`: every registry that calls lead to lists just that, calls on one type leave
  the others alone, and a removal says by how much the registry gets smaller.
-/
import Mathlib.Data.List.Induction
import Mathlib.Order.Nat
import MemberRules.Proofs.Computation
import MemberRules.Proofs.Registry.Contents
import MemberRules.Rule.Search

namespace MemberRules
namespace Registry

open MemberRules.Computation

/-! ## 1. Calls and events -/

/-- A call that changes a registry. -/
inductive Call
  | add (t : TypeId) (r : Rule)
  /-- Adds rules in order and marks the type as complete if `built`. -/
  | addAll (t : TypeId) (rs : List Rule) (built : Bool)
  /-- Removes rules of a type: of a member, with a check of a kind, and of which something holds. -/
  | remove (t : TypeId) (member : Option MemberRef) (kind : Option String) (wanted : Rule → Bool)
  | forget (t : TypeId)
  | mark (t : TypeId) (built : Bool)
  | clear

/-- Whether a call can change what there is for a type. -/
def Call.IsAbout (t : TypeId) : Call → Prop
  | add u _ | addAll u _ _ | remove u _ _ _ | forget u | mark u _ => u = t
  | clear => True

/-- Runs a call on the registry of an engine; a call that removes rules gives their number. -/
def Call.run : Call → Action Nat
  | add t r => do
    Action.updateRegistry fun reg => reg.add t r
    return 1
  | addAll t rs built => do
    Action.addRules t rs built
    return rs.length
  | remove t member kind wanted =>
    Action.removeRules t member fun r => kind.all r.checkIsOfKind && wanted r
  | forget t => Action.forget t
  | mark t built => do
    Action.updateRegistry fun reg => reg.mark t built
    return 0
  | clear => do
    Action.updateRegistry fun _ => {}
    return 0

/-- Runs calls one after the other. -/
def runCalls (calls : List Call) : Action Unit := calls.forM fun call => do
  let _ ← call.run

/-- What happens to the rules of a registry. -/
inductive Event
  | added (t : TypeId) (r : Rule)
  | removed (t : TypeId) (member : Option MemberKey) (doomed : Rule → Bool)
  | dropped (t : TypeId)
  | cleared

/-- The events of a call. -/
def Call.events : Call → List Event
  | add t r => [.added t r]
  | addAll t rs _ => rs.map (.added t)
  | remove t member kind wanted =>
    [.removed t (member.map MemberRef.key) fun r => kind.all r.checkIsOfKind && wanted r]
  | forget t => [.dropped t]
  | mark _ _ => []
  | clear => [.cleared]

/-- The events of calls, in order. -/
def history (calls : List Call) : List Event := calls.flatMap Call.events

/-! ## 2. The history view -/

/-- An event that drops a type with all its members. -/
def Event.Drops (t : TypeId) : Event → Prop
  | added _ _ | removed _ _ _ => False
  | dropped u => u = t
  | cleared => True

/-- An event that takes a rule of a type away. -/
def Event.Takes (t : TypeId) (r : Rule) : Event → Prop
  | added _ _ => False
  | removed u member doomed => u = t ∧ (∀ k, member = some k → r.member.key = k) ∧ doomed r = true
  | dropped u => u = t
  | cleared => True

/-- An event that adds a rule under the key that a rule of a type has. -/
def Event.Replaces (t : TypeId) (r : Rule) : Event → Prop
  | added u r' => u = t ∧ r'.member.key = r.member.key ∧ r'.uniqueKey = r.uniqueKey
  | _ => False

/-- What one event started and no later one has stopped. -/
def Lasts (start stop : Event → Prop) (es : List Event) : Prop :=
  ∃ before ev after, es = before ++ ev :: after ∧ start ev ∧ ∀ ev' ∈ after, ¬ stop ev'

/-- A rule that was the last one to be added under its key, and has not been removed since. -/
def Stays (t : TypeId) (r : Rule) : List Event → Prop :=
  Lasts (fun ev => ev = .added t r) fun ev => ev.Replaces t r ∨ ev.Takes t r

/-- A key of a member under which there is a rule. -/
def KeyHeld (t : TypeId) (k : MemberKey) (u : UniqueKey) (es : List Event) : Prop :=
  ∃ r : Rule, r.member.key = k ∧ r.uniqueKey = u ∧ Stays t r es

/-- A member that has received a rule since the type was last dropped. -/
def Received (t : TypeId) (k : MemberKey) : List Event → Prop :=
  Lasts (fun ev => ∃ r : Rule, ev = .added t r ∧ r.member.key = k) (Event.Drops t)

/-- What has held ever since the event at a place, and did not hold before it. -/
def Since (P : List Event → Prop) (es : List Event) (i : Nat) : Prop :=
  i < es.length ∧ ¬ P (es.take i) ∧ ∀ j, i < j → j ≤ es.length → P (es.take j)

/-- Of two things that hold, the first has held since an earlier event. -/
def Earlier {κ : Type} (P : κ → List Event → Prop) (es : List Event) (a b : κ) : Prop :=
  ∃ i j, Since (P a) es i ∧ Since (P b) es j ∧ i < j

/-- **What a registry lists, in terms of its history.** -/
structure Remembers (es : List Event) (reg : Registry) : Prop where
  /-- The rules of a member are those that were the last ones under their keys and are not removed. -/
  mem_rules : ∀ t k r, r ∈ reg.rulesOfMember t k ↔ r.member.key = k ∧ Stays t r es
  /-- There is one rule for each key. -/
  keys_nodup : ∀ t k, ((reg.rulesOfMember t k).map Rule.uniqueKey).Nodup
  /-- The rules of a member stand in the order in which their keys came in. -/
  keys_ordered : ∀ t k,
    ((reg.rulesOfMember t k).map Rule.uniqueKey).Pairwise (Earlier (KeyHeld t k) es)
  /-- The members of a type are listed with their rules. -/
  rules_of_group : ∀ t, ∀ g ∈ reg.groupsOf t, g.rules = reg.rulesOfMember t g.member.key
  /-- The members that have a rule are listed. -/
  mem_members : ∀ t k,
    k ∈ (reg.groupsOf t).map (fun g => g.member.key) ↔ reg.rulesOfMember t k ≠ []
  /-- The members stand in the order in which they received their first rule. -/
  members_ordered : ∀ t,
    ((reg.groupsOf t).map fun g => g.member.key).Pairwise (Earlier (Received t) es)

/-! ## 3. Lists that are ordered by when their elements came in -/

variable {κ : Type} {es : List Event} {ev : Event}

/-- An event at the end either starts something, or leaves it as it is, or stops it. -/
theorem lasts_snoc {start stop : Event → Prop} :
    Lasts start stop (es ++ [ev]) ↔ start ev ∨ Lasts start stop es ∧ ¬ stop ev := by
  constructor
  · rintro ⟨before, first, after, heq, hfirst, hafter⟩
    rcases List.eq_nil_or_concat after with rfl | ⟨after, last, rfl⟩
    · obtain ⟨-, hlast⟩ := List.append_inj' heq rfl
      exact .inl ((List.cons.inj hlast).1 ▸ hfirst)
    · rw [List.concat_eq_append] at heq hafter
      rw [← List.cons_append, ← List.append_assoc] at heq
      obtain ⟨rfl, hlast⟩ := List.append_inj' heq rfl
      obtain rfl := (List.cons.inj hlast).1
      exact .inr ⟨⟨before, first, after, rfl, hfirst,
        fun ev' hev => hafter ev' (List.mem_append_left _ hev)⟩,
        hafter _ (List.mem_append_right _ (.head _))⟩
  · rintro (hev | ⟨⟨before, first, after, rfl, hfirst, hafter⟩, hlast⟩)
    · exact ⟨es, ev, [], rfl, hev, fun ev' hev => absurd hev List.not_mem_nil⟩
    · refine ⟨before, first, after ++ [ev], by simp, hfirst, fun ev' hev => ?_⟩
      rcases List.mem_append.mp hev with hev | hev
      · exact hafter ev' hev
      · exact List.mem_singleton.mp hev ▸ hlast

theorem not_lasts_nil {start stop : Event → Prop} : ¬ Lasts start stop [] := by
  rintro ⟨before, first, after, heq, -⟩
  simp at heq

/-- What held before an event and holds after it has held since the same time. -/
theorem Since.snoc {P : List Event → Prop} {i : Nat} (h : Since P es i) (hP : P (es ++ [ev])) :
    Since P (es ++ [ev]) i := by
  obtain ⟨hlt, hbefore, hafter⟩ := h
  refine ⟨by simp only [List.length_append, List.length_singleton]; omega, ?_, fun j hij hj => ?_⟩
  · rwa [List.take_append_of_le_length hlt.le]
  · rcases Nat.lt_or_ge es.length j with hlast | hle
    · have hlen : (es ++ [ev]).length = es.length + 1 := by simp
      rwa [List.take_of_length_le (by omega)]
    · rw [List.take_append_of_le_length hle]
      exact hafter j hij hle

/-- What holds after an event and did not hold before it holds since the event. -/
theorem since_last {P : List Event → Prop} (hnot : ¬ P es) (hP : P (es ++ [ev])) :
    Since P (es ++ [ev]) es.length := by
  refine ⟨by simp, ?_, fun j hij hj => ?_⟩
  · rwa [List.take_left]
  · have hlen : (es ++ [ev]).length = es.length + 1 := by simp
    rwa [List.take_of_length_le (by omega)]

/-- What holds has come to hold at some time. -/
theorem exists_since {P : List Event → Prop} (hnil : ¬ P []) (hP : P es) : ∃ i, Since P es i := by
  induction es using List.reverseRecOn with
  | nil => exact absurd hP hnil
  | append_singleton es ev ih =>
    by_cases hbefore : P es
    · obtain ⟨i, hi⟩ := ih hbefore
      exact ⟨i, hi.snoc hP⟩
    · exact ⟨es.length, since_last hbefore hP⟩

theorem Earlier.snoc {P : κ → List Event → Prop} {a b : κ} (h : Earlier P es a b)
    (ha : P a (es ++ [ev])) (hb : P b (es ++ [ev])) : Earlier P (es ++ [ev]) a b := by
  obtain ⟨i, j, hi, hj, hlt⟩ := h
  exact ⟨i, j, hi.snoc ha, hj.snoc hb, hlt⟩

/-- What an event can do to a list: it takes elements away, or adds one at the end. -/
def Evolves (before after : List κ) : Prop :=
  after.Sublist before ∨ ∃ k, k ∉ before ∧ after = before ++ [k]

theorem Evolves.refl (l : List κ) : Evolves l l := .inl (.refl l)

/-- **A list that only loses elements, or gains new ones at its end, is ordered by when they came
in**: the induction is on the events, and an element that is still there came in when it did
before. -/
theorem pairwise_earlier {P : κ → List Event → Prop} (keys : List Event → List κ)
    (hmem : ∀ es k, k ∈ keys es ↔ P k es) (hnil : keys [] = [])
    (hstep : ∀ es ev, Evolves (keys es) (keys (es ++ [ev]))) (es : List Event) :
    (keys es).Pairwise (Earlier P es) := by
  induction es using List.reverseRecOn with
  | nil => exact hnil ▸ .nil
  | append_singleton es ev ih =>
    rcases hstep es ev with hsub | ⟨k, hk, heq⟩
    · refine (ih.sublist hsub).imp_of_mem fun ha hb h => ?_
      exact h.snoc ((hmem _ _).mp ha) ((hmem _ _).mp hb)
    · have hthere : ∀ a ∈ keys es, P a (es ++ [ev]) := fun a ha =>
        (hmem _ _).mp (heq ▸ List.mem_append_left [k] ha)
      have hnew : P k (es ++ [ev]) := (hmem _ _).mp (heq ▸ List.mem_append_right _ (.head _))
      rw [heq, List.pairwise_append]
      refine ⟨ih.imp_of_mem fun ha hb h => h.snoc (hthere _ ha) (hthere _ hb),
        List.pairwise_singleton _ _, fun a ha b hb => ?_⟩
      obtain rfl := List.mem_singleton.mp hb
      have hempty : ¬ P a [] := fun h => by simpa [hnil] using (hmem [] a).mpr h
      obtain ⟨i, hi⟩ := exists_since hempty ((hmem es a).mp ha)
      exact ⟨i, es.length, hi.snoc (hthere a ha), since_last (fun h => hk ((hmem es b).mpr h)) hnew,
        hi.1⟩

/-! ## 4. What an event does to the members of a type -/

variable {t u : TypeId} {k : MemberKey} {gs : List RuleGroup}

/-- The rules of a member without those that are doomed; other members are left alone. -/
def withoutDoomed (member : Option MemberKey) (doomed : Rule → Bool) (g : RuleGroup) : RuleGroup :=
  if member.all fun k => g.member.key == k then
    { g with rules := g.rules.filter fun r => !doomed r }
  else g

/-- The members of a type after an event. -/
def Event.onGroups (t : TypeId) : Event → List RuleGroup → List RuleGroup
  | added u r, gs => if u = t then RuleGroup.update r.member (RuleGroup.put r) gs else gs
  | removed u member doomed, gs => if u = t then gs.map (withoutDoomed member doomed) else gs
  | dropped u, gs => if u = t then [] else gs
  | cleared, _ => []

/-- The members of a type after events. -/
def groupsAfter (t : TypeId) (es : List Event) : List RuleGroup :=
  es.foldl (fun gs ev => ev.onGroups t gs) []

theorem groupsAfter_snoc (t : TypeId) (es : List Event) (ev : Event) :
    groupsAfter t (es ++ [ev]) = ev.onGroups t (groupsAfter t es) := by
  unfold groupsAfter
  rw [List.foldl_append]
  rfl

theorem lookup_filter_ne {α β : Type} [DecidableEq α] (es : List (α × β)) (a b : α) :
    (es.filter fun e => e.1 != b).lookup a = if b = a then none else es.lookup a := by
  induction es with
  | nil => simp
  | cons e es ih =>
    obtain ⟨a', v⟩ := e
    rw [List.filter_cons, List.lookup_cons]
    by_cases h : a' = b
    · subst h
      rw [if_neg (by simp), ih]
      by_cases ha : a' = a
      · rw [if_pos ha, if_pos ha]
      · rw [if_neg ha, if_neg ha, beq_eq_false_iff_ne.mpr (Ne.symm ha)]
    · rw [if_pos (by simpa using h), List.lookup_cons, ih]
      by_cases ha : a = a'
      · subst ha
        simp [Ne.symm h]
      · rw [beq_eq_false_iff_ne.mpr ha]

theorem groups_removeWhere (reg : Registry) (u : TypeId) (member : Option MemberKey)
    (doomed : Rule → Bool) : (reg.removeWhere u member doomed).groups = reg.groups.map fun e =>
      (e.1, if e.1 = u then e.2.map (withoutDoomed member doomed) else e.2) := by
  refine List.map_congr_left fun e _ => ?_
  by_cases h : e.1 = u <;> simp [h, withoutDoomed]

theorem lookup_removeWhere (reg : Registry) (u : TypeId) (member : Option MemberKey)
    (doomed : Rule → Bool) : (reg.removeWhere u member doomed).groups.lookup t =
      (reg.groups.lookup t).map fun gs =>
        if t = u then gs.map (withoutDoomed member doomed) else gs := by
  rw [groups_removeWhere, lookup_map_entry]

theorem allGroups_removeWhere (reg : Registry) (u : TypeId) (member : Option MemberKey)
    (doomed : Rule → Bool) : (reg.removeWhere u member doomed).allGroups t =
      if u = t then (reg.allGroups t).map (withoutDoomed member doomed) else reg.allGroups t := by
  unfold allGroups
  rw [lookup_removeWhere]
  by_cases h : u = t
  · cases reg.groups.lookup t <;> simp [h]
  · cases reg.groups.lookup t <;> simp [h, Ne.symm h]

theorem allGroups_dropType (reg : Registry) (u : TypeId) :
    (reg.dropType u).allGroups t = if u = t then [] else reg.allGroups t := by
  unfold dropType allGroups
  rw [lookup_filter_ne]
  by_cases h : u = t <;> simp [h]

/-! ### What calls do to a registry -/

/-- The registry after a call. -/
def Call.apply : Call → Registry → Registry
  | add t r, reg => reg.add t r
  | addAll t rs built, reg => if built then (reg.addAll t rs).mark t else reg.addAll t rs
  | remove t member kind wanted, reg =>
    reg.removeWhere t (member.map MemberRef.key) fun r => kind.all r.checkIsOfKind && wanted r
  | forget t, reg => reg.dropType t
  | mark t built, reg => reg.mark t built
  | clear, _ => {}

/-- How many rules a call removes, if it is one that removes rules. -/
def Call.count : Call → Registry → Nat
  | remove t member kind wanted, reg =>
    reg.countWhere t (member.map MemberRef.key) fun r => kind.all r.checkIsOfKind && wanted r
  | _, _ => 0

theorem noteRemoved_apply (t : TypeId) (member : Option MemberRef) (n : Nat) (e : Engine) :
    ∃ e', Action.noteRemoved t member n e = (.ok (), e') ∧ e'.registry = e.registry := by
  unfold Action.noteRemoved
  split <;> exact ⟨_, rfl, rfl⟩

theorem removeRules_apply (t : TypeId) (member : Option MemberRef) (doomed : Rule → Bool)
    (e : Engine) : ∃ e', Action.removeRules t member doomed e =
        (.ok (e.registry.countWhere t (member.map MemberRef.key) doomed), e') ∧
      e'.registry = e.registry.removeWhere t (member.map MemberRef.key) doomed := by
  have hupdate : Action.updateRegistry
      (fun reg => reg.removeWhere t (member.map MemberRef.key) doomed) e = (.ok (),
        { e with registry := e.registry.removeWhere t (member.map MemberRef.key) doomed }) := rfl
  obtain ⟨e', hnote, hreg⟩ := noteRemoved_apply t member
    (e.registry.countWhere t (member.map MemberRef.key) doomed)
    { e with registry := e.registry.removeWhere t (member.map MemberRef.key) doomed }
  refine ⟨e', ?_, hreg⟩
  unfold Action.removeRules
  rw [bind_ok (get_apply e), bind_ok hupdate, bind_ok hnote]
  rfl

theorem addRules_apply (t : TypeId) (rs : List Rule) (built : Bool) (e : Engine) :
    ∃ e', Action.addRules t rs built e = (.ok (), e') ∧ e'.registry =
      if built then (e.registry.addAll t rs).mark t else e.registry.addAll t rs := by
  have hupdate : Action.updateRegistry (fun reg => reg.addAll t rs) e =
      (.ok (), { e with registry := e.registry.addAll t rs }) := rfl
  unfold Action.addRules
  rw [bind_ok hupdate]
  cases built with
  | true => exact ⟨_, rfl, rfl⟩
  | false => exact ⟨_, rfl, rfl⟩

/-- **Every call ends well**, and what it does to the registry is `Call.apply`. -/
theorem Call.run_apply (call : Call) (e : Engine) :
    ∃ n e', call.run e = (.ok n, e') ∧ e'.registry = call.apply e.registry ∧
      ∀ u member kind wanted, call = .remove u member kind wanted → n = call.count e.registry := by
  cases call with
  | add t r =>
    exact ⟨1, { e with registry := e.registry.add t r }, rfl, rfl, fun _ _ _ _ h => by cases h⟩
  | addAll t rs built =>
    obtain ⟨e', hrun, hreg⟩ := addRules_apply t rs built e
    exact ⟨rs.length, e', bind_ok hrun, hreg, fun _ _ _ _ h => by cases h⟩
  | remove t member kind wanted =>
    obtain ⟨e', hrun, hreg⟩ := removeRules_apply t member
      (fun r => kind.all r.checkIsOfKind && wanted r) e
    exact ⟨_, e', hrun, hreg, fun _ _ _ _ _ => rfl⟩
  | forget t =>
    exact ⟨_, { e with registry := e.registry.dropType t }, rfl, rfl, fun _ _ _ _ h => by cases h⟩
  | mark t built =>
    exact ⟨0, { e with registry := e.registry.mark t built }, rfl, rfl, fun _ _ _ _ h => by cases h⟩
  | clear => exact ⟨0, { e with registry := {} }, rfl, rfl, fun _ _ _ _ h => by cases h⟩

theorem allGroups_add_eq (reg : Registry) (u : TypeId) (r : Rule) : (reg.add u r).allGroups t =
    if u = t then RuleGroup.update r.member (RuleGroup.put r) (reg.allGroups t)
    else reg.allGroups t := by
  split
  · rename_i h
    rw [h, allGroups_add]
  · rename_i h
    rw [allGroups_add_of_ne (Ne.symm h)]

theorem allGroups_addAll (reg : Registry) (u : TypeId) (rs : List Rule) :
    (reg.addAll u rs).allGroups t =
      (rs.map (Event.added u)).foldl (fun gs ev => ev.onGroups t gs) (reg.allGroups t) := by
  induction rs generalizing reg with
  | nil => rfl
  | cons r rs ih =>
    have hcons : reg.addAll u (r :: rs) = (reg.add u r).addAll u rs := rfl
    rw [hcons, ih, allGroups_add_eq, List.map_cons, List.foldl_cons]
    rfl

/-- **What a call does to the members of a type** is what its events do. -/
theorem allGroups_apply (call : Call) (reg : Registry) : (call.apply reg).allGroups t =
    call.events.foldl (fun gs ev => ev.onGroups t gs) (reg.allGroups t) := by
  cases call with
  | add u r => exact allGroups_add_eq reg u r
  | addAll u rs built => cases built <;> exact allGroups_addAll reg u rs
  | remove u member kind wanted => exact allGroups_removeWhere reg u _ _
  | forget u => exact allGroups_dropType reg u
  | mark u built => rfl
  | clear => rfl

/-- The registry after calls. -/
def afterCalls (calls : List Call) (reg : Registry) : Registry :=
  calls.foldl (fun reg call => call.apply reg) reg

theorem runCalls_apply (calls : List Call) (e : Engine) :
    ∃ e', runCalls calls e = (.ok (), e') ∧ e'.registry = afterCalls calls e.registry := by
  induction calls generalizing e with
  | nil => exact ⟨e, rfl, rfl⟩
  | cons call calls ih =>
    obtain ⟨n, e₁, hrun, hreg, -⟩ := call.run_apply e
    obtain ⟨e', hruns, hafter⟩ := ih e₁
    have hfirst : (do let _ ← call.run : Action Unit) e = (.ok (), e₁) := bind_ok hrun
    refine ⟨e', (bind_ok hfirst).trans hruns, ?_⟩
    rw [hafter, hreg]
    rfl

/-- **The members of a type after calls** are those after their events. -/
theorem allGroups_afterCalls (calls : List Call) (reg : Registry) :
    (afterCalls calls reg).allGroups t =
      (history calls).foldl (fun gs ev => ev.onGroups t gs) (reg.allGroups t) := by
  induction calls generalizing reg with
  | nil => rfl
  | cons call calls ih =>
    have hhistory : history (call :: calls) = call.events ++ history calls := rfl
    have hafter : afterCalls (call :: calls) reg = afterCalls calls (call.apply reg) := rfl
    rw [hafter, ih, allGroups_apply, hhistory, List.foldl_append]

/-! ## 5. What an event does to the rules of a member -/

/-- The rules of a member among the members of a type. -/
def rulesAt (k : MemberKey) (gs : List RuleGroup) : List Rule :=
  match gs.find? fun g => g.member.key == k with
  | some g => g.rules
  | none => []

/-- The rules of a member after an event. -/
def Event.onRules (t : TypeId) (k : MemberKey) : Event → List Rule → List Rule
  | added u r, rs => if u = t ∧ r.member.key = k then RuleGroup.put r rs else rs
  | removed u member doomed, rs =>
    if u = t ∧ (member.all fun k' => k == k') then rs.filter fun r => !doomed r else rs
  | dropped u, rs => if u = t then [] else rs
  | cleared, _ => []

/-- The rules of a member after events. -/
def rulesAfter (t : TypeId) (k : MemberKey) (es : List Event) : List Rule :=
  es.foldl (fun rs ev => ev.onRules t k rs) []

theorem rulesAfter_snoc (t : TypeId) (k : MemberKey) (es : List Event) (ev : Event) :
    rulesAfter t k (es ++ [ev]) = ev.onRules t k (rulesAfter t k es) := by
  unfold rulesAfter
  rw [List.foldl_append]
  rfl

theorem rulesAt_cons (g : RuleGroup) (gs : List RuleGroup) :
    rulesAt k (g :: gs) = if g.member.key = k then g.rules else rulesAt k gs := by
  unfold rulesAt
  rw [List.find?_cons]
  by_cases h : g.member.key = k
  · simp [h]
  · rw [beq_eq_false_iff_ne.mpr h, if_neg h]

theorem rulesAt_update (m : MemberRef) (f : List Rule → List Rule) (gs : List RuleGroup) :
    rulesAt k (RuleGroup.update m f gs) = if m.key = k then f (rulesAt k gs) else rulesAt k gs := by
  induction gs with
  | nil => exact rulesAt_cons _ _
  | cons g gs ih =>
    unfold RuleGroup.update
    by_cases hg : g.member.key = m.key
    · rw [if_pos (by simpa using hg), rulesAt_cons, rulesAt_cons, hg]
      split <;> rfl
    · rw [if_neg (by simpa using hg), rulesAt_cons, rulesAt_cons, ih]
      by_cases hm : m.key = k
      · simp [hm, hm ▸ hg]
      · simp [hm]

theorem rulesAt_withoutDoomed (member : Option MemberKey) (doomed : Rule → Bool)
    (gs : List RuleGroup) : rulesAt k (gs.map (withoutDoomed member doomed)) =
      if member.all fun k' => k == k' then (rulesAt k gs).filter fun r => !doomed r
      else rulesAt k gs := by
  induction gs with
  | nil => simp [rulesAt]
  | cons g gs ih =>
    have hkey : (withoutDoomed member doomed g).member = g.member := by
      unfold withoutDoomed
      split <;> rfl
    rw [List.map_cons, rulesAt_cons, rulesAt_cons, hkey, ih]
    by_cases hg : g.member.key = k
    · subst hg
      simp only [if_true, withoutDoomed]
      split <;> rfl
    · simp only [hg, if_false]

/-- **What an event does to the rules of a member**, read off what it does to the members. -/
theorem rulesAt_onGroups (t : TypeId) (k : MemberKey) (ev : Event) (gs : List RuleGroup) :
    rulesAt k (ev.onGroups t gs) = ev.onRules t k (rulesAt k gs) := by
  cases ev with
  | added u r =>
    unfold Event.onGroups Event.onRules
    by_cases h : u = t
    · simp only [h, if_true, true_and]
      exact rulesAt_update _ _ _
    · simp [h]
  | removed u member doomed =>
    unfold Event.onGroups Event.onRules
    by_cases h : u = t
    · simp only [h, if_true, true_and]
      exact rulesAt_withoutDoomed _ _ _
    · simp [h]
  | dropped u => by_cases h : u = t <;> simp [Event.onGroups, Event.onRules, h, rulesAt]
  | cleared => rfl

theorem rulesAt_groupsAfter (t : TypeId) (k : MemberKey) (es : List Event) :
    rulesAt k (groupsAfter t es) = rulesAfter t k es := by
  induction es using List.reverseRecOn with
  | nil => rfl
  | append_singleton es ev ih => rw [groupsAfter_snoc, rulesAfter_snoc, rulesAt_onGroups, ih]

/-! ## 6. The rules of a member -/

theorem Evolves.nodup {l l' : List κ} (h : Evolves l l') (hl : l.Nodup) : l'.Nodup := by
  rcases h with hsub | ⟨k, hk, rfl⟩
  · exact hl.sublist hsub
  · exact List.nodup_append.mpr ⟨hl, by simp, fun a ha b hb heq =>
      hk (List.mem_singleton.mp hb ▸ heq ▸ ha)⟩

/-- The keys of rules after a rule has been put among them. -/
theorem map_uniqueKey_put (r : Rule) (rs : List Rule) :
    (RuleGroup.put r rs).map Rule.uniqueKey =
      if r.uniqueKey ∈ rs.map Rule.uniqueKey then rs.map Rule.uniqueKey
      else rs.map Rule.uniqueKey ++ [r.uniqueKey] := by
  induction rs with
  | nil => simp [RuleGroup.put]
  | cons x rs ih =>
    unfold RuleGroup.put
    by_cases h : x.uniqueKey = r.uniqueKey
    · simp [h]
    · rw [if_neg (by simpa using h), List.map_cons, ih]
      split <;> simp_all [Ne.symm h]

/-- A rule that is put among rules takes the place of the one with its key. -/
theorem mem_put {r x : Rule} {rs : List Rule} (hrs : (rs.map Rule.uniqueKey).Nodup) :
    x ∈ RuleGroup.put r rs ↔ x = r ∨ x ∈ rs ∧ x.uniqueKey ≠ r.uniqueKey := by
  induction rs with
  | nil => simp [RuleGroup.put]
  | cons y rs ih =>
    obtain ⟨hy, hnodup⟩ := List.nodup_cons.mp hrs
    unfold RuleGroup.put
    by_cases h : y.uniqueKey = r.uniqueKey
    · have hother : ∀ z ∈ rs, z.uniqueKey ≠ r.uniqueKey := fun z hz heq =>
        hy (h ▸ heq ▸ List.mem_map_of_mem hz)
      rw [if_pos (by simpa using h), List.mem_cons, List.mem_cons]
      constructor
      · rintro (rfl | hx)
        · exact .inl rfl
        · exact .inr ⟨.inr hx, hother x hx⟩
      · rintro (rfl | ⟨rfl | hx, hne⟩)
        · exact .inl rfl
        · exact absurd h hne
        · exact .inr hx
    · rw [if_neg (by simpa using h), List.mem_cons, ih hnodup, List.mem_cons]
      constructor
      · rintro (rfl | rfl | ⟨hx, hne⟩)
        · exact .inr ⟨.inl rfl, h⟩
        · exact .inl rfl
        · exact .inr ⟨.inr hx, hne⟩
      · rintro (rfl | ⟨rfl | hx, hne⟩)
        · exact .inr (.inl rfl)
        · exact .inl rfl
        · exact .inr (.inr ⟨hx, hne⟩)

theorem keysAfter_evolves (t : TypeId) (k : MemberKey) (es : List Event) (ev : Event) :
    Evolves ((rulesAfter t k es).map Rule.uniqueKey)
      ((rulesAfter t k (es ++ [ev])).map Rule.uniqueKey) := by
  rw [rulesAfter_snoc]
  cases ev with
  | added u r =>
    rw [Event.onRules]
    split
    · rw [map_uniqueKey_put]
      split
      · exact .refl _
      · rename_i hnew
        exact .inr ⟨_, hnew, rfl⟩
    · exact .refl _
  | removed u member doomed =>
    rw [Event.onRules]
    split
    · exact .inl (List.filter_sublist.map _)
    · exact .refl _
  | dropped u =>
    rw [Event.onRules]
    split
    · exact .inl (List.nil_sublist _)
    · exact .refl _
  | cleared => exact .inl (List.nil_sublist _)

theorem keysAfter_nodup (t : TypeId) (k : MemberKey) (es : List Event) :
    ((rulesAfter t k es).map Rule.uniqueKey).Nodup := by
  induction es using List.reverseRecOn with
  | nil => exact List.nodup_nil
  | append_singleton es ev ih => exact (keysAfter_evolves t k es ev).nodup ih

/-- **The rules of a member are those that stay**: by induction on the events, one kind of event
after the other. -/
theorem mem_rulesAfter {r : Rule} : r ∈ rulesAfter t k es ↔ r.member.key = k ∧ Stays t r es := by
  induction es using List.reverseRecOn with
  | nil => simp [rulesAfter, Stays, not_lasts_nil]
  | append_singleton es ev ih =>
    rw [rulesAfter_snoc, Stays, lasts_snoc, ← Stays]
    cases ev with
    | added u r' =>
      simp only [Event.onRules, Event.Replaces, Event.Takes, Event.added.injEq]
      split
      · rename_i h
        obtain ⟨rfl, rfl⟩ := h
        rw [mem_put (keysAfter_nodup _ _ _), ih]
        grind
      · grind
    | removed u member doomed =>
      cases member with
      | none =>
        simp only [Event.onRules, Event.Replaces, Event.Takes, Option.all_none]
        grind
      | some k' =>
        simp only [Event.onRules, Event.Replaces, Event.Takes, Option.all_some]
        grind
    | dropped u =>
      simp only [Event.onRules, Event.Replaces, Event.Takes]
      grind
    | cleared => simp [Event.onRules, Event.Takes]

/-! ## 7. The members of a type -/

/-- The members of a type after events, also those that have lost their rules. -/
def membersAfter (t : TypeId) (es : List Event) : List MemberKey :=
  (groupsAfter t es).map fun g => g.member.key

theorem members_update (m : MemberRef) (f : List Rule → List Rule) (gs : List RuleGroup) :
    (RuleGroup.update m f gs).map (fun g => g.member.key) =
      if m.key ∈ gs.map fun g => g.member.key then gs.map fun g => g.member.key
      else (gs.map fun g => g.member.key) ++ [m.key] := by
  induction gs with
  | nil => simp [RuleGroup.update]
  | cons g gs ih =>
    unfold RuleGroup.update
    by_cases h : g.member.key = m.key
    · simp [h]
    · rw [if_neg (by simpa using h), List.map_cons, ih]
      split <;> simp_all [Ne.symm h]

theorem members_withoutDoomed (member : Option MemberKey) (doomed : Rule → Bool)
    (gs : List RuleGroup) : (gs.map (withoutDoomed member doomed)).map (fun g => g.member.key) =
      gs.map fun g => g.member.key := by
  rw [List.map_map]
  refine List.map_congr_left fun g _ => ?_
  show (withoutDoomed member doomed g).member.key = g.member.key
  unfold withoutDoomed
  split <;> rfl

/-- The members of a type after one more event. -/
theorem membersAfter_snoc (t : TypeId) (es : List Event) (ev : Event) :
    membersAfter t (es ++ [ev]) = match ev with
      | .added u r =>
        if u = t ∧ r.member.key ∉ membersAfter t es then membersAfter t es ++ [r.member.key]
        else membersAfter t es
      | .removed _ _ _ => membersAfter t es
      | .dropped u => if u = t then [] else membersAfter t es
      | .cleared => [] := by
  unfold membersAfter
  rw [groupsAfter_snoc]
  cases ev with
  | added u r =>
    by_cases h : u = t
    · simp only [Event.onGroups, h, if_true, members_update, true_and]
      split <;> simp_all
    · simp [Event.onGroups, h]
  | removed u member doomed =>
    by_cases h : u = t
    · simp only [Event.onGroups, h, if_true, members_withoutDoomed]
    · simp [Event.onGroups, h]
  | dropped u => by_cases h : u = t <;> simp [Event.onGroups, h]
  | cleared => rfl

theorem membersAfter_evolves (t : TypeId) (es : List Event) (ev : Event) :
    Evolves (membersAfter t es) (membersAfter t (es ++ [ev])) := by
  rw [membersAfter_snoc]
  cases ev with
  | added u r =>
    dsimp only
    split
    · rename_i h
      exact .inr ⟨_, h.2, rfl⟩
    · exact .refl _
  | removed u member doomed => exact .refl _
  | dropped u =>
    dsimp only
    split
    · exact .inl (List.nil_sublist _)
    · exact .refl _
  | cleared => exact .inl (List.nil_sublist _)

theorem membersAfter_nodup (t : TypeId) (es : List Event) : (membersAfter t es).Nodup := by
  induction es using List.reverseRecOn with
  | nil => exact List.nodup_nil
  | append_singleton es ev ih => exact (membersAfter_evolves t es ev).nodup ih

/-- **The members of a type are those that have received a rule.** -/
theorem mem_membersAfter : k ∈ membersAfter t es ↔ Received t k es := by
  induction es using List.reverseRecOn with
  | nil => simp [membersAfter, groupsAfter, Received, not_lasts_nil]
  | append_singleton es ev ih =>
    rw [membersAfter_snoc, Received, lasts_snoc, ← Received]
    cases ev with
    | added u r =>
      simp only [Event.Drops, Event.added.injEq]
      grind
    | removed u member doomed => simp [Event.Drops, ih]
    | dropped u =>
      simp only [Event.Drops]
      grind
    | cleared => simp [Event.Drops]

theorem rulesAt_of_mem {g : RuleGroup} (hgs : (gs.map fun g => g.member.key).Nodup) (hg : g ∈ gs) :
    rulesAt g.member.key gs = g.rules := by
  induction gs with
  | nil => cases hg
  | cons x gs ih =>
    obtain ⟨hx, hnodup⟩ := List.nodup_cons.mp hgs
    rw [rulesAt_cons]
    rcases List.mem_cons.mp hg with rfl | hg
    · rw [if_pos rfl]
    · have hne : x.member.key ≠ g.member.key := fun heq =>
        hx (List.mem_map.mpr ⟨g, hg, heq.symm⟩)
      rw [if_neg hne, ih hnodup hg]

theorem mem_of_rulesAt_ne_nil (h : rulesAt k gs ≠ []) :
    ∃ g ∈ gs, g.member.key = k ∧ g.rules = rulesAt k gs := by
  induction gs with
  | nil => exact absurd rfl h
  | cons g gs ih =>
    rw [rulesAt_cons] at h ⊢
    split at h
    · rename_i hg
      exact ⟨g, List.mem_cons_self, hg, by rw [if_pos hg]⟩
    · rename_i hg
      obtain ⟨g', hmem, hkey, hrules⟩ := ih h
      exact ⟨g', List.mem_cons_of_mem g hmem, hkey, by rw [if_neg hg, hrules]⟩

/-- **A registry whose types have the members that events lead to remembers these events.** -/
theorem remembers_of_allGroups {reg : Registry} (h : ∀ t, reg.allGroups t = groupsAfter t es) :
    Remembers es reg := by
  have hrules : ∀ t k, reg.rulesOfMember t k = rulesAfter t k es := fun t k => by
    have hat : reg.rulesOfMember t k = rulesAt k (reg.allGroups t) := rfl
    rw [hat, h, rulesAt_groupsAfter]
  have hnodup : ∀ t, ((reg.allGroups t).map fun g => g.member.key).Nodup := fun t =>
    h t ▸ membersAfter_nodup t es
  refine ⟨fun t k r => ?_, fun t k => ?_, fun t k => ?_, fun t g hg => ?_, fun t k => ?_,
    fun t => ?_⟩
  · rw [hrules, mem_rulesAfter]
  · exact hrules t k ▸ keysAfter_nodup t k es
  · rw [hrules]
    refine pairwise_earlier (fun es => (rulesAfter t k es).map Rule.uniqueKey)
      (fun es u => ?_) rfl (keysAfter_evolves t k) es
    constructor
    · intro hu
      obtain ⟨r, hr, rfl⟩ := List.mem_map.mp hu
      obtain ⟨hk, hstays⟩ := mem_rulesAfter.mp hr
      exact ⟨r, hk, rfl, hstays⟩
    · rintro ⟨r, hk, rfl, hstays⟩
      exact List.mem_map_of_mem (mem_rulesAfter.mpr ⟨hk, hstays⟩)
  · exact (rulesAt_of_mem (hnodup t) (List.mem_filter.mp hg).1).symm
  · constructor
    · intro hk
      obtain ⟨g, hg, rfl⟩ := List.mem_map.mp hk
      obtain ⟨hmem, hrule⟩ := List.mem_filter.mp hg
      have hat : reg.rulesOfMember t g.member.key = g.rules := rulesAt_of_mem (hnodup t) hmem
      rw [hat]
      simpa using hrule
    · intro hne
      obtain ⟨g, hg, rfl, hat⟩ := mem_of_rulesAt_ne_nil hne
      refine List.mem_map_of_mem (f := fun g : RuleGroup => g.member.key)
        (List.mem_filter.mpr ⟨hg, ?_⟩)
      rw [hat, Bool.not_eq_true', List.isEmpty_eq_false_iff]
      exact hne
  · have hall : ((reg.allGroups t).map fun g => g.member.key).Pairwise (Earlier (Received t) es) :=
      h t ▸ pairwise_earlier _ (fun es k => mem_membersAfter) rfl (membersAfter_evolves t) es
    exact hall.sublist (List.filter_sublist.map _)

/-! ## 8. What calls leave alone, and what they count -/

/-- A registry in which nothing has changed for a type: neither its members and their rules, in
their order, nor whether it is complete or known. -/
structure Untouched (t : TypeId) (reg reg' : Registry) : Prop where
  groups : reg'.allGroups t = reg.allGroups t
  built : reg'.isBuilt t = reg.isBuilt t
  known : reg'.knows t = reg.knows t

theorem allGroups_addAll_of_ne (h : t ≠ u) (reg : Registry) (rs : List Rule) :
    (reg.addAll u rs).allGroups t = reg.allGroups t := by
  induction rs generalizing reg with
  | nil => rfl
  | cons r rs ih => exact (ih (reg.add u r)).trans (allGroups_add_of_ne h r)

/-- **A call leaves alone every type that it is not about.** -/
theorem untouched_apply {call : Call} (h : ¬ call.IsAbout t) (reg : Registry) :
    Untouched t reg (call.apply reg) := by
  cases call with
  | add u r =>
    have hne : t ≠ u := Ne.symm h
    exact ⟨allGroups_add_of_ne hne r, rfl, by simp [Call.apply, knows_add, hne]⟩
  | addAll u rs built =>
    have hne : t ≠ u := Ne.symm h
    have hadded : Same t reg (reg.addAll u rs) := same_addAll hne rs
    have hmarked : Same t (reg.addAll u rs) ((reg.addAll u rs).mark u) := same_mark hne true
    have hgroups := allGroups_addAll_of_ne hne reg rs
    cases built with
    | true => exact ⟨hgroups, hmarked.built.trans hadded.built, hmarked.known.trans hadded.known⟩
    | false => exact ⟨hgroups, hadded.built, hadded.known⟩
  | remove u member kind wanted =>
    have hne : u ≠ t := h
    refine ⟨by rw [Call.apply, allGroups_removeWhere, if_neg hne], rfl, ?_⟩
    unfold knows
    rw [Call.apply, lookup_removeWhere]
    simp [removeWhere]
  | forget u =>
    have hne : u ≠ t := h
    refine ⟨by rw [Call.apply, allGroups_dropType, if_neg hne], ?_, ?_⟩
    · simp [Call.apply, dropType, isBuilt, lookup_filter_ne, hne]
    · simp [Call.apply, dropType, knows, lookup_filter_ne, hne]
  | mark u built =>
    have hmarked : Same t reg (reg.mark u built) := same_mark (Ne.symm h) built
    exact ⟨rfl, hmarked.built, hmarked.known⟩
  | clear => exact absurd trivial h

theorem countP_add_length_filter (doomed : Rule → Bool) (rs : List Rule) :
    rs.countP doomed + (rs.filter fun r => !doomed r).length = rs.length := by
  rw [← List.countP_eq_length_filter, List.length_eq_countP_add_countP doomed]
  congr 2
  funext r
  cases doomed r <;> rfl

/-- The rules that members lose and those that they keep are all that they had. -/
theorem count_withoutDoomed (member : Option MemberKey) (doomed : Rule → Bool)
    (gs : List RuleGroup) :
    ((gs.filter fun g => member.all fun k => g.member.key == k).flatMap RuleGroup.rules).countP doomed +
        ((gs.map (withoutDoomed member doomed)).flatMap RuleGroup.rules).length =
      (gs.flatMap RuleGroup.rules).length := by
  induction gs with
  | nil => rfl
  | cons g gs ih =>
    have hrules := countP_add_length_filter doomed g.rules
    rw [List.map_cons, List.flatMap_cons, List.flatMap_cons, List.length_append, List.length_append,
      List.filter_cons, ← ih]
    by_cases h : member.all fun k => g.member.key == k
    · rw [if_pos h, List.flatMap_cons, List.countP_append, withoutDoomed, if_pos h]
      dsimp only
      omega
    · rw [if_neg h, withoutDoomed, if_neg h]
      omega

/-- The same for all types, of which one loses rules. -/
theorem count_entries (u : TypeId) (member : Option MemberKey) (doomed : Rule → Bool)
    {es : List (TypeId × List RuleGroup)} (hes : (es.map Prod.fst).Nodup) :
    ((((es.lookup u).getD []).filter fun g => member.all fun k => g.member.key == k).flatMap
        RuleGroup.rules).countP doomed +
      ((es.map fun e => (e.1, if e.1 = u then e.2.map (withoutDoomed member doomed) else e.2)).flatMap
        fun e => e.2.flatMap RuleGroup.rules).length =
      (es.flatMap fun e => e.2.flatMap RuleGroup.rules).length := by
  induction es with
  | nil => rfl
  | cons e es ih =>
    obtain ⟨he, hnodup⟩ := List.nodup_cons.mp hes
    rw [List.map_cons, List.flatMap_cons, List.flatMap_cons, List.length_append, List.length_append,
      List.lookup_cons]
    by_cases h : e.1 = u
    · subst h
      have hrest : es.map (fun e' => (e'.1,
          if e'.1 = e.1 then e'.2.map (withoutDoomed member doomed) else e'.2)) = es := by
        refine (List.map_congr_left fun e' he' => ?_).trans (List.map_id es)
        rw [if_neg fun heq : e'.1 = e.1 => he (List.mem_map.mpr ⟨e', he', heq⟩)]
        rfl
      have hgroups := count_withoutDoomed member doomed e.2
      rw [hrest, if_pos rfl, beq_self_eq_true]
      simp only [Option.getD_some]
      omega
    · rw [beq_eq_false_iff_ne.mpr (Ne.symm h), if_neg h, ← ih hnodup]
      simp only
      omega

/-- **A removal says by how much the registry gets smaller.** -/
theorem count_add_size {reg : Registry} (h : reg.types.Nodup) (u : TypeId)
    (member : Option MemberKey) (doomed : Rule → Bool) :
    reg.countWhere u member doomed + (reg.removeWhere u member doomed).size = reg.size := by
  unfold size countWhere allGroups
  rw [groups_removeWhere]
  exact count_entries u member doomed h

theorem types_nodup_add {reg : Registry} (h : reg.types.Nodup) (u : TypeId) (r : Rule) :
    (reg.add u r).types.Nodup := by
  rw [types_add]
  split
  · exact h
  · rename_i hu
    exact Evolves.nodup (.inr ⟨u, by simpa using hu, rfl⟩) h

theorem types_nodup_addAll {reg : Registry} (h : reg.types.Nodup) (u : TypeId) (rs : List Rule) :
    (reg.addAll u rs).types.Nodup := by
  induction rs generalizing reg with
  | nil => exact h
  | cons r rs ih => exact ih (types_nodup_add h u r)

/-- The types of a registry stand once each. -/
theorem types_nodup_apply (call : Call) {reg : Registry} (h : reg.types.Nodup) :
    (call.apply reg).types.Nodup := by
  cases call with
  | add u r => exact types_nodup_add h u r
  | addAll u rs built => cases built <;> exact types_nodup_addAll h u rs
  | remove u member kind wanted =>
    have htypes : ((Call.remove u member kind wanted).apply reg).types = reg.types := by
      unfold types Call.apply
      rw [groups_removeWhere, List.map_map]
      rfl
    exact htypes ▸ h
  | forget u => exact h.sublist (List.filter_sublist.map _)
  | mark u built => exact h
  | clear => exact List.nodup_nil

theorem types_nodup_afterCalls (calls : List Call) {reg : Registry} (h : reg.types.Nodup) :
    (afterCalls calls reg).types.Nodup := by
  induction calls generalizing reg with
  | nil => exact h
  | cons call calls ih => exact ih (types_nodup_apply call h)

/-- **Every registry that calls lead to lists what its history says.**  The next call leaves alone
what it is not about, and says how many rules it removes. -/
theorem registry_remembers (calls : List Call) (e : Engine) :
    ∃ e', runCalls calls { e with registry := {} } = (.ok (), e') ∧
      Remembers (history calls) e'.registry ∧
      ∀ call : Call, ∃ n e'', call.run e' = (.ok n, e'') ∧
        (∀ t, ¬ call.IsAbout t → Untouched t e'.registry e''.registry) ∧
        ∀ u member kind wanted, call = .remove u member kind wanted →
          n + e''.registry.size = e'.registry.size := by
  obtain ⟨e', hruns, hafter⟩ := runCalls_apply calls { e with registry := {} }
  have hgroups : ∀ t, e'.registry.allGroups t = groupsAfter t (history calls) := fun t => by
    rw [hafter, allGroups_afterCalls]
    rfl
  refine ⟨e', hruns, remembers_of_allGroups hgroups, fun call => ?_⟩
  obtain ⟨n, e'', hrun, hreg, hcount⟩ := call.run_apply e'
  refine ⟨n, e'', hrun, fun t ht => hreg ▸ untouched_apply ht _, ?_⟩
  rintro u member kind wanted rfl
  rw [hcount u member kind wanted rfl, hreg]
  exact count_add_size (hafter ▸ types_nodup_afterCalls calls List.nodup_nil) _ _ _

end Registry
end MemberRules
