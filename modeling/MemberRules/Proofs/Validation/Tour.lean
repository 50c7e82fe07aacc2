/-
# Tours of tasks

A traversal is a recursion, and says nothing of the states in between.  Here it is a machine: an
agenda of tasks, of which the first is performed and the ones that it leaves are put in front.
Every task on the agenda has a place, the list of the indices that lead to it, and every task that
has been performed is a visit: where it stood, the engines before and after it, and what came of it.

* `Tour`: the machine, from one agenda to a later one, with the visits in between.
* `traverse_tour`: a traversal ends as the tour of its task does, at the end of the agenda or at the
  first task that fails.
* `Tour.places_sorted`: the places of the visits are in lexicographic order.
* `Tour.unfailing`: a tour that came to its end has met no task that fails.
-/
import Mathlib.Data.List.Lex
import Mathlib.Data.List.Infix
import MemberRules.Proofs.Validation.Task

namespace MemberRules
namespace Validation

open MemberRules.Computation

/-! ## 1. The machine -/

/-- A task on the agenda, with the indices that lead to it. -/
structure Entry where
  place : List Nat
  task : Task

/-- A task that has been performed. -/
structure Visit extends Entry where
  /-- The engine that the task was performed in, and the one that it left. -/
  before : Engine
  after : Engine
  /-- The tasks that it left. -/
  next : List Task
  found : List Failure

/-- The tasks that are left at a place, with places of their own. -/
def entriesAt (place : List Nat) (tasks : List Task) : List Entry :=
  tasks.zipIdx.map fun (task, i) => ⟨place ++ [i], task⟩

/-- The machine: from an agenda and an engine, through visits, to an agenda and an engine. -/
inductive Tour (d : Drive) : List Entry → Engine → List Visit → List Entry → Engine → Prop
  | done {agenda : List Entry} {e : Engine} : Tour d agenda e [] agenda e
  | visit {x : Entry} {rest agenda : List Entry} {e e₁ e' : Engine} {next : List Task}
      {found : List Failure} {visits : List Visit} :
      x.task.perform d e = (.ok (next, found), e₁) →
      Tour d (entriesAt x.place next ++ rest) e₁ visits agenda e' →
      Tour d (x :: rest) e (⟨x, e, e₁, next, found⟩ :: visits) agenda e'

variable {d : Drive} {agenda agenda' rest : List Entry} {e e' : Engine} {visits : List Visit}

theorem Tour.trans {agenda'' : List Entry} {e'' : Engine} {visits' : List Visit}
    (h : Tour d agenda e visits agenda' e') (h' : Tour d agenda' e' visits' agenda'' e'') :
    Tour d agenda e (visits ++ visits') agenda'' e'' := by
  induction h with
  | done => exact h'
  | visit hperform _ ih => exact .visit hperform (ih h')

/-- Every visit performed its task. -/
theorem Tour.performed (h : Tour d agenda e visits agenda' e') {x : Visit} (hx : x ∈ visits) :
    x.task.perform d x.before = (.ok (x.next, x.found), x.after) := by
  induction h with
  | done => exact absurd hx List.not_mem_nil
  | visit hperform _ ih =>
    rcases List.mem_cons.mp hx with rfl | hx
    · exact hperform
    · exact ih hx

/-- Every visit finds the registry as it was at the start. -/
theorem Tour.registry_before (h : Tour d agenda e visits agenda' e') {x : Visit} (hx : x ∈ visits) :
    x.before.registry = e.registry := by
  induction h with
  | done => exact absurd hx List.not_mem_nil
  | @visit y rest agenda e e₁ e' next found visits hperform _ ih =>
    have hkept : e₁.registry = e.registry := by
      have hsecond := (Task.perform_alike (d := d) y.task e (Eq.refl e.registry)).2
      rwa [hperform] at hsecond
    rcases List.mem_cons.mp hx with rfl | hx
    · rfl
    · exact (ih hx).trans hkept

/-! ## 2. A traversal is a tour -/

/-- How a tour of the front of an agenda ends: with failures and the rest of the agenda, or at a
task that fails. -/
def Ends (d : Drive) (agenda rest : List Entry) (e : Engine) :
    Except Fault (List Failure) × Engine → Prop
  | (.ok found, e') => ∃ visits, Tour d agenda e visits rest e' ∧ visits.flatMap Visit.found = found
  | (.error f, e') => ∃ visits x rest' e₁, Tour d agenda e visits (x :: rest') e₁ ∧
      x.task.perform d e₁ = (.error f, e')

/-- What is performed leaves only tasks of less height. -/
theorem Task.perform_height {task : Task} {next : List Task} {found : List Failure}
    (h : task.perform d e = (.ok (next, found), e')) : ∀ x ∈ next, x.height < task.height := by
  cases performs_of_perform h with
  | object =>
    simp only [List.mem_map]
    rintro _ ⟨g, -, rfl⟩
    simp only [Task.height]
    omega
  | member =>
    simp only [List.mem_map]
    rintro _ ⟨r, -, rfl⟩
    simp only [Task.height]
    omega
  | opened =>
    unfold Task.targets
    split
    · simp only [List.mem_map]
      rintro _ ⟨p, -, rfl⟩
      simp only [Task.height]
      omega
    · simp only [List.mem_singleton]
      rintro _ rfl
      simp only [Task.height]
      omega
  | nested =>
    unfold Task.below
    split
    · simp
    · simp only [List.mem_singleton]
      rintro _ rfl
      simp only [Task.height]
      omega
  | unchecked | carrier | closed | passed | rejected => simp

/-- Several traversals in order are a tour, if each of them is. -/
theorem collect_ends {f : Task → Finding} {xs : List Entry}
    (h : ∀ x ∈ xs, ∀ rest e, Ends d (x :: rest) rest e (f x.task e)) (rest : List Entry)
    (e : Engine) : Ends d (xs ++ rest) rest e (collect f (xs.map Entry.task) e) := by
  induction xs generalizing e with
  | nil => exact ⟨[], .done, rfl⟩
  | cons x xs ih =>
    have hx := h x List.mem_cons_self (xs ++ rest) e
    have hxs := ih fun y hy => h y (List.mem_cons_of_mem x hy)
    show Ends d _ rest e ((do return (← f x.task) ++ (← collect f (xs.map Entry.task)) : Finding) e)
    rcases hfirst : f x.task e with ⟨flt | found, e₁⟩ <;> rw [hfirst] at hx
    · rw [bind_error hfirst]
      exact hx
    · obtain ⟨visits, htour, hfound⟩ := hx
      rw [bind_ok hfirst]
      have hxs' := hxs e₁
      rcases hothers : collect f (xs.map Entry.task) e₁ with ⟨flt | found', e₂⟩ <;>
        rw [hothers] at hxs'
      · obtain ⟨visits', y, rest', e₃, htour', hfails⟩ := hxs'
        rw [bind_error hothers]
        exact ⟨visits ++ visits', y, rest', e₃, htour.trans htour', hfails⟩
      · obtain ⟨visits', htour', hfound'⟩ := hxs'
        rw [bind_ok hothers]
        exact ⟨visits ++ visits', htour.trans htour', by rw [List.flatMap_append, hfound, hfound']⟩

theorem entriesAt_map_task (place : List Nat) (tasks : List Task) :
    (entriesAt place tasks).map Entry.task = tasks := by
  rw [entriesAt, List.map_map]
  exact List.zipIdx_map_fst 0 tasks

theorem mem_entriesAt {place : List Nat} {tasks : List Task} {y : Entry} :
    y ∈ entriesAt place tasks ↔ ∃ i, tasks[i]? = some y.task ∧ y.place = place ++ [i] := by
  unfold entriesAt
  simp only [List.mem_map, Prod.exists, List.mk_mem_zipIdx_iff_getElem?]
  constructor
  · rintro ⟨task, i, hi, rfl⟩
    exact ⟨i, hi, rfl⟩
  · rintro ⟨i, hi, hplace⟩
    exact ⟨y.task, i, hi, by rw [← hplace]⟩

/-- **A traversal ends as a tour does**: with the failures of its visits, or at a task that
fails. -/
theorem traverse_tour {fuel : Nat} {x : Entry} (h : x.task.height ≤ fuel) (rest : List Entry)
    (e : Engine) : Ends d (x :: rest) rest e (traverse d fuel x.task e) := by
  induction fuel generalizing x rest e with
  | zero =>
    obtain ⟨place, task⟩ := x
    cases task <;> simp [Task.height] at h
  | succ fuel ih =>
    show Ends d _ rest e ((x.task.perform d >>= fun p =>
      return p.2 ++ (← collect (traverse d fuel) p.1)) e)
    rcases hperform : x.task.perform d e with ⟨flt | ⟨next, found⟩, e₁⟩
    · rw [bind_error hperform]
      exact ⟨[], x, rest, e, .done, hperform⟩
    · rw [bind_ok hperform]
      have hall : ∀ y ∈ entriesAt x.place next, ∀ rest e,
          Ends d (y :: rest) rest e (traverse d fuel y.task e) := by
        intro y hy rest e
        obtain ⟨i, hi, -⟩ := mem_entriesAt.mp hy
        have hlt := Task.perform_height hperform y.task (List.mem_of_getElem? hi)
        exact ih (by omega) rest e
      have hothers := collect_ends hall rest e₁
      rw [entriesAt_map_task] at hothers
      rcases hend : collect (traverse d fuel) next e₁ with ⟨flt | found', e₂⟩ <;>
        rw [hend] at hothers
      · obtain ⟨visits, y, rest', e₃, htour, hfails⟩ := hothers
        rw [bind_error hend]
        exact ⟨_, y, rest', e₃, .visit hperform htour, hfails⟩
      · obtain ⟨visits, htour, hfound⟩ := hothers
        rw [bind_ok hend]
        exact ⟨_, .visit hperform htour, by rw [List.flatMap_cons, hfound]⟩

/-! ## 3. The order of the visits -/

/-- One place comes before another one, and so does everything below it. -/
def Apart (p q : List Nat) : Prop :=
  ∃ common i j s t, i < j ∧ p = common ++ i :: s ∧ q = common ++ j :: t

theorem Apart.lt {p q : List Nat} (h : Apart p q) (s t : List Nat) : p ++ s < q ++ t := by
  obtain ⟨common, i, j, s', t', hij, rfl, rfl⟩ := h
  simp only [List.append_assoc, List.cons_append]
  exact List.append_left_lt (List.Lex.rel hij)

theorem Apart.below {p q : List Nat} (h : Apart p q) (s : List Nat) : Apart (p ++ s) q := by
  obtain ⟨common, i, j, s', t', hij, rfl, rfl⟩ := h
  exact ⟨common, i, j, s' ++ s, t', hij, by simp, rfl⟩

theorem entriesAt_apart (place : List Nat) (tasks : List Task) :
    (entriesAt place tasks).Pairwise fun x y => Apart x.place y.place := by
  unfold entriesAt
  rw [List.pairwise_map, List.pairwise_iff_getElem]
  intro i j hi hj hij
  simp only [List.getElem_zipIdx, Nat.zero_add]
  exact ⟨place, i, j, [], [], hij, rfl, rfl⟩

theorem lt_append_of_ne_nil {p s : List Nat} (hs : s ≠ []) : p < p ++ s := by
  obtain ⟨i, s, rfl⟩ := List.exists_cons_of_ne_nil hs
  have h : p ++ [] < p ++ i :: s := List.append_left_lt List.Lex.nil
  rwa [List.append_nil] at h

/-- **Visits follow the lexicographic order of their places**: from an agenda whose places are
apart, every visit stands below one of them. -/
theorem Tour.places_sorted (h : Tour d agenda e visits agenda' e')
    (hagenda : agenda.Pairwise fun x y => Apart x.place y.place) :
    (visits.Pairwise fun x y => x.place < y.place) ∧
      ∀ x ∈ visits, ∃ y ∈ agenda, y.place <+: x.place := by
  induction h with
  | done => exact ⟨.nil, fun x hx => absurd hx List.not_mem_nil⟩
  | @visit x rest agenda e e₁ e' next found visits _ _ ih =>
    obtain ⟨hx, hrest⟩ := List.pairwise_cons.mp hagenda
    have hbelow : ∀ y ∈ entriesAt x.place next, ∀ z ∈ rest, Apart y.place z.place := by
      intro y hy z hz
      obtain ⟨i, -, hplace⟩ := mem_entriesAt.mp hy
      exact hplace ▸ (hx z hz).below [i]
    obtain ⟨hsorted, hstand⟩ :=
      ih (List.pairwise_append.mpr ⟨entriesAt_apart _ _, hrest, hbelow⟩)
    refine ⟨List.pairwise_cons.mpr ⟨fun v hv => ?_, hsorted⟩, fun v hv => ?_⟩
    · obtain ⟨y, hy, s, hs⟩ := hstand v hv
      rw [← hs]
      rcases List.mem_append.mp hy with hy | hy
      · obtain ⟨i, -, hplace⟩ := mem_entriesAt.mp hy
        rw [hplace, List.append_assoc]
        exact lt_append_of_ne_nil (by simp)
      · have hlt := (hx y hy).lt [] s
        rwa [List.append_nil] at hlt
    · rcases List.mem_cons.mp hv with rfl | hv
      · exact ⟨x, List.mem_cons_self, List.prefix_rfl⟩
      · obtain ⟨y, hy, hpre⟩ := hstand v hv
        rcases List.mem_append.mp hy with hy | hy
        · obtain ⟨i, -, hplace⟩ := mem_entriesAt.mp hy
          exact ⟨x, List.mem_cons_self, (hplace ▸ List.prefix_append _ _).trans hpre⟩
        · exact ⟨y, List.mem_cons_of_mem x hy, hpre⟩

/-! ## 4. What is on the agenda is visited -/

/-- A task on the agenda is visited, or is still on the agenda. -/
theorem Tour.visited (h : Tour d agenda e visits agenda' e') {y : Entry} (hy : y ∈ agenda) :
    (∃ x ∈ visits, x.toEntry = y) ∨ y ∈ agenda' := by
  induction h with
  | done => exact .inr hy
  | @visit x rest agenda e e₁ e' next found visits _ _ ih =>
    rcases List.mem_cons.mp hy with rfl | hy
    · exact .inl ⟨_, List.mem_cons_self, rfl⟩
    · refine (ih (List.mem_append_right _ hy)).imp_left ?_
      rintro ⟨v, hv, heq⟩
      exact ⟨v, List.mem_cons_of_mem _ hv, heq⟩

/-- What a visit left is visited, or is still on the agenda. -/
theorem Tour.next_visited (h : Tour d agenda e visits agenda' e') {x : Visit} (hx : x ∈ visits)
    {y : Entry} (hy : y ∈ entriesAt x.place x.next) :
    (∃ x ∈ visits, x.toEntry = y) ∨ y ∈ agenda' := by
  induction h with
  | done => exact absurd hx List.not_mem_nil
  | @visit x' rest agenda e e₁ e' next found visits _ htour ih =>
    have hvisited : (∃ x ∈ visits, x.toEntry = y) ∨ y ∈ agenda := by
      rcases List.mem_cons.mp hx with rfl | hx
      · exact htour.visited (List.mem_append_left _ hy)
      · exact ih hx
    refine hvisited.imp_left ?_
    rintro ⟨v, hv, heq⟩
    exact ⟨v, List.mem_cons_of_mem _ hv, heq⟩

/-! ## 5. Tours without a fault -/

/-- Nothing that a validation comes to from a task on fails: no member read, no gate, no check and
no message; and values are not nested too deep. -/
def Unfailing (d : Drive) (root : Task) (e : Engine) : Prop :=
  ∀ visits x rest e₁, Tour d [⟨[], root⟩] e visits (x :: rest) e₁ →
    (x.task.perform d e₁).1.isOk = true

/-- A tour that came to its end has met no task that fails: a task has only one end. -/
theorem Tour.unfailing {visits' : List Visit} {x : Entry} {e₁ : Engine}
    (h : Tour d agenda e visits [] e') (h' : Tour d agenda e visits' (x :: rest) e₁) :
    (x.task.perform d e₁).1.isOk = true := by
  generalize hend : x :: rest = agenda' at h'
  induction h' generalizing visits with
  | done =>
    subst hend
    cases h with
    | visit hperform _ =>
      rw [hperform]
      rfl
  | visit hperform' _ ih =>
    cases h with
    | visit hperform htour =>
      rw [hperform] at hperform'
      cases hperform'
      exact ih htour hend

/-- A traversal ends well exactly if nothing on the way fails. -/
theorem traverse_isOk_iff {fuel : Nat} {root : Task} (h : root.height ≤ fuel) :
    (traverse d fuel root e).1.isOk = true ↔ Unfailing d root e := by
  have hends := traverse_tour (d := d) (x := ⟨[], root⟩) h [] e
  rcases hend : traverse d fuel root e with ⟨f | found, e'⟩ <;> simp only [hend] at hends
  · obtain ⟨visits, x, rest, e₁, htour, hfails⟩ := hends
    refine ⟨fun hok => (by cases hok), fun hall => ?_⟩
    have hok := hall visits x rest e₁ htour
    rw [hfails] at hok
    cases hok
  · obtain ⟨visits, htour, -⟩ := hends
    exact ⟨fun _ visits' x rest e₁ htour' => htour.unfailing htour', fun _ => rfl⟩

end Validation
end MemberRules
