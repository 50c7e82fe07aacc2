/-
# The failures that a validation finds

The failures of a validation are, one each, those of the positions that it reaches and whose check
rejects the value.  A position is reached through rules whose gates are open, through nested values
that are there and through the elements of collections; this file says so without the executor, as a
relation over places, and matches it with the visits of a tour in both directions.

A gate or a check may leave its marks on the objects, so what a gate answers depends on when it is
asked.  Each step of the relation therefore speaks of the engine that the step was taken in, which
the visits record.

* `Leads`: what stands directly below a task.
* `Reachable`: what stands below the start of a validation.
* `Fails`: a value whose check rejects it.
* `run_finds_failing`: the visits of a validation are what is reachable, in lexicographic order, and
  the failures are those of the visits that fail.
-/
import MemberRules.Configuration.Gathering
import MemberRules.Proofs.Validation.Tour

namespace MemberRules
namespace Validation

open MemberRules.Computation

variable {d : Drive} {reg : Registry} {e e' : Engine}

/-! ## 1. Reachable positions -/

/-- What stands directly below a task that is performed in one engine and leaves another one, and at
which index: the members of an object in the order of the registry, the rules of a member in their
order, the value or the elements that a rule with an open gate is applied to, and a nested value that
is there. -/
inductive Leads (d : Drive) (reg : Registry) (e e' : Engine) : Task → Nat → Task → Prop
  | member {depth i : Nat} {owner : Value} {t : TypeId} {path : String} {g : RuleGroup} :
      (reg.groupsOf t)[i]? = some g →
      Leads d reg e e' (.object (depth + 1) owner t path) i (.member depth owner t path g)
  | rule {depth i : Nat} {owner v : Value} {t : TypeId} {path : String} {g : RuleGroup} {r : Rule} :
      g.rules.any Rule.hasCheck = true → (g.member.read owner e.world).1 = .ok v →
      g.rules[i]? = some r →
      Leads d reg e e' (.member depth owner t path g) i
        (.rule depth ⟨owner, t, Path.member path g.member.name⟩ v r)
  | whole {depth : Nat} {pos : Position} {v : Value} {r : Rule} {a : Attribute} :
      r.validator = some a → (r.gate.isOpen d pos.owner e.world).1 = .ok true → r.forEach = false →
      Leads d reg e e' (.rule depth pos v r) 0 (.value depth pos v r a)
  | element {depth i : Nat} {pos : Position} {v x : Value} {r : Rule} {a : Attribute} :
      r.validator = some a → (r.gate.isOpen d pos.owner e.world).1 = .ok true → r.forEach = true →
      (e'.world.elements v)[i]? = some x →
      Leads d reg e e' (.rule depth pos v r) i
        (.value depth { pos with path := Path.element pos.path i } x r a)
  | nested {depth : Nat} {pos : Position} {v : Value} {r : Rule} {a : Attribute} {u : TypeId} :
      a.check.nestedType? = some u → v ≠ .none →
      Leads d reg e e' (.value depth pos v r a) 0 (.object depth v u pos.path)

/-- What stands below the start of a validation, and at which place, where the engines are those of
some visits. -/
inductive Reachable (d : Drive) (reg : Registry) (root : Task) (visits : List Visit) :
    List Nat → Task → Prop
  | root : Reachable d reg root visits [] root
  | step {x : Visit} {i : Nat} {task : Task} : x ∈ visits →
      Reachable d reg root visits x.place x.task → Leads d reg x.before x.after x.task i task →
      Reachable d reg root visits (x.place ++ [i]) task

/-- A value that the check of a rule rejects; nested values are not checked themselves. -/
inductive Fails (d : Drive) (e : Engine) : Task → Prop
  | rejected {depth : Nat} {pos : Position} {v : Value} {r : Rule} {a : Attribute}
      {outcome : Outcome} : a.check.nestedType? = none →
      (a.check.runWith d v pos.owner e.world).1 = .ok outcome → outcome.passed = false →
      Fails d e (.value depth pos v r a)

/-- A failure that tells of the value of a task, its path, its rule and its check. -/
def Reports (f : Failure) : Task → Prop
  | .value _ pos v r a => f.path = pos.path ∧ f.attempted = v ∧ f.member = some r.member ∧
      f.kind = some a.check.kind ∧ f.code = some (codeOf r a.check)
  | _ => False

/-! ## 2. What performing a task leaves -/

theorem targets_getElem? {depth i : Nat} {pos : Position} {v : Value} {r : Rule} {a : Attribute}
    {task : Task} (ha : r.validator = some a)
    (hopen : (r.gate.isOpen d pos.owner e.world).1 = .ok true) :
    (Task.targets depth pos v r a e'.world)[i]? = some task ↔
      Leads d reg e e' (.rule depth pos v r) i task := by
  unfold Task.targets
  cases hf : r.forEach with
  | true =>
    rw [if_pos rfl, List.getElem?_map, Option.map_eq_some_iff]
    constructor
    · rintro ⟨⟨x, j⟩, hx, rfl⟩
      rw [List.getElem?_zipIdx, Option.map_eq_some_iff] at hx
      obtain ⟨x', hx', heq⟩ := hx
      cases heq
      rw [Nat.zero_add]
      exact .element ha hopen hf hx'
    · intro h
      cases h with
      | whole _ _ hf' => rw [hf] at hf'; cases hf'
      | element ha' _ _ hx =>
        rw [ha] at ha'
        cases ha'
        exact ⟨_, by rw [List.getElem?_zipIdx, hx]; rfl, by simp⟩
  | false =>
    rw [if_neg (by simp)]
    constructor
    · intro h
      cases i with
      | zero => cases h; exact .whole ha hopen hf
      | succ i => cases h
    · intro h
      cases h with
      | whole ha' _ _ => rw [ha] at ha'; cases ha'; rfl
      | element _ _ hf' _ => rw [hf] at hf'; cases hf'

/-- **What a task leaves is what stands directly below it.** -/
theorem next_getElem?_iff {task task' : Task} {next : List Task} {found : List Failure} {i : Nat}
    (h : task.perform d e = (.ok (next, found), e')) (hreg : e.registry = reg) :
    next[i]? = some task' ↔ Leads d reg e e' task i task' := by
  subst hreg
  have hnone : (([] : List Task)[i]? = some task') ↔ False := by simp
  cases performs_of_perform h with
  | object =>
    rw [List.getElem?_map, Option.map_eq_some_iff]
    constructor
    · rintro ⟨g, hg, rfl⟩
      exact .member hg
    · rintro ⟨hg⟩
      exact ⟨_, hg, rfl⟩
  | unchecked hcheck =>
    rw [hnone, false_iff]
    intro h
    cases h with
    | rule hcheck' _ _ => rw [hcheck] at hcheck'; cases hcheck'
  | member hcheck hread =>
    rw [List.getElem?_map, Option.map_eq_some_iff]
    constructor
    · rintro ⟨r, hr, rfl⟩
      exact .rule hcheck hread hr
    · intro h
      cases h with
      | rule _ hread' hr =>
        rw [hread] at hread'
        cases hread'
        exact ⟨_, hr, rfl⟩
  | carrier ha =>
    rw [hnone, false_iff]
    intro h
    cases h with
    | whole ha' _ _ => rw [ha] at ha'; cases ha'
    | element ha' _ _ _ => rw [ha] at ha'; cases ha'
  | closed _ hopen =>
    rw [hnone, false_iff]
    intro h
    cases h with
    | whole _ hopen' _ => rw [hopen] at hopen'; cases hopen'
    | element _ hopen' _ _ => rw [hopen] at hopen'; cases hopen'
  | opened ha hopen => exact targets_getElem? ha hopen
  | nested hu =>
    unfold Task.below
    split
    · rw [hnone, false_iff]
      intro h
      cases h with
      | nested _ hv => exact absurd rfl hv
    · rename_i hv
      constructor
      · intro h
        cases i with
        | zero => cases h; exact .nested hu hv
        | succ i => cases h
      · intro h
        cases h with
        | nested hu' _ => rw [hu] at hu'; cases hu'; rfl
  | passed hleaf | rejected hleaf =>
    rw [hnone, false_iff]
    intro h
    cases h with
    | nested hu _ => rw [hleaf] at hu; cases hu

/-- **A task finds a failure exactly if it is a value that its check rejects**, and then one. -/
theorem found_of_perform {task : Task} {next : List Task} {found : List Failure}
    (h : task.perform d e = (.ok (next, found), e')) :
    (Fails d e task ∧ ∃ f, found = [f] ∧ Reports f task) ∨ (¬ Fails d e task ∧ found = []) := by
  cases performs_of_perform h with
  | object | unchecked | member | carrier | closed | opened => exact .inr ⟨nofun, rfl⟩
  | nested hu =>
    refine .inr ⟨?_, rfl⟩
    rintro ⟨hleaf, -, -⟩
    rw [hu] at hleaf
    cases hleaf
  | passed _ hrun hpassed =>
    refine .inr ⟨?_, rfl⟩
    rintro ⟨-, hrun', hfailed⟩
    rw [hrun] at hrun'
    cases hrun'
    rw [hpassed] at hfailed
    cases hfailed
  | @rejected depth pos v r a outcome message f hleaf hrun hfailed hf =>
    refine .inl ⟨.rejected hleaf hrun hfailed, f, rfl, ?_⟩
    unfold failure at hf
    rcases hi : Path.indices pos.path with flt | ⟨index, parent⟩ <;> rw [hi] at hf <;> cases hf
    exact ⟨rfl, rfl, rfl, rfl, rfl⟩

/-! ## 3. Visits and reachable positions -/

variable {root : Task} {visits : List Visit}

/-- Every visit is of something reachable, if the agenda is. -/
theorem Tour.reachable {agenda agenda' : List Entry} {visits' : List Visit}
    (h : Tour d agenda e visits' agenda' e') (hreg : e.registry = reg) (hall : visits' ⊆ visits)
    (hagenda : ∀ y ∈ agenda, Reachable d reg root visits y.place y.task) :
    ∀ x ∈ visits', Reachable d reg root visits x.place x.task := by
  induction h with
  | done => exact fun x hx => absurd hx List.not_mem_nil
  | @visit x rest agenda e e₁ e' next found visits' hperform _ ih =>
    have hx := hagenda x List.mem_cons_self
    have hkept : e₁.registry = reg := by
      have hsecond := (Task.perform_alike (d := d) x.task e hreg).2
      rwa [hperform] at hsecond
    have hnext : ∀ y ∈ entriesAt x.place next ++ rest,
        Reachable d reg root visits y.place y.task := by
      intro y hy
      rcases List.mem_append.mp hy with hy | hy
      · obtain ⟨i, hi, hplace⟩ := mem_entriesAt.mp hy
        rw [hplace]
        exact .step (x := ⟨x, e, e₁, next, found⟩) (hall List.mem_cons_self) hx
          ((next_getElem?_iff hperform hreg).mp hi)
      · exact hagenda y (List.mem_cons_of_mem x hy)
    intro y hy
    rcases List.mem_cons.mp hy with rfl | hy
    · exact hx
    · exact ih hkept (fun v hv => hall (List.mem_cons_of_mem _ hv)) hnext y hy

/-- Everything reachable is visited, if the tour came to its end. -/
theorem Tour.visits_reachable (h : Tour d [⟨[], root⟩] e visits [] e') {p : List Nat} {task : Task}
    (hp : Reachable d e.registry root visits p task) :
    ∃ x ∈ visits, x.place = p ∧ x.task = task := by
  cases hp with
  | root =>
    rcases h.visited List.mem_cons_self with ⟨x, hx, heq⟩ | hy
    · exact ⟨x, hx, by rw [heq], by rw [heq]⟩
    · exact absurd hy List.not_mem_nil
  | @step x i _ hx _ hleads =>
    have hnext := (next_getElem?_iff (h.performed hx) (h.registry_before hx)).mpr hleads
    rcases h.next_visited hx (mem_entriesAt.mpr ⟨i, hnext, rfl⟩ :
        (⟨x.place ++ [i], task⟩ : Entry) ∈ _) with ⟨y, hy, heq⟩ | hy
    · exact ⟨y, hy, by rw [heq], by rw [heq]⟩
    · exact absurd hy List.not_mem_nil

/-! ## 4. The failures of a validation -/

/-- What a validation does and finds: it visits, in lexicographic order and once each, exactly what
is reachable; and of each visit it finds one failure if the check rejects the value, and nothing
otherwise. -/
structure FindsFailing (d : Drive) (root : Task) (e : Engine) (visits : List Visit) (e' : Engine)
    (failures : List Failure) : Prop where
  tour : Tour d [⟨[], root⟩] e visits [] e'
  sorted : visits.Pairwise fun x y => x.place < y.place
  reachable : ∀ p task, (∃ x ∈ visits, x.place = p ∧ x.task = task) ↔
    Reachable d e.registry root visits p task
  failures_eq : failures = visits.flatMap Visit.found
  found : ∀ x ∈ visits, (Fails d x.before x.task ∧ ∃ f, x.found = [f] ∧ Reports f x.task) ∨
    (¬ Fails d x.before x.task ∧ x.found = [])

theorem Tour.findsFailing (h : Tour d [⟨[], root⟩] e visits [] e') :
    FindsFailing d root e visits e' (visits.flatMap Visit.found) where
  tour := h
  sorted := (h.places_sorted (List.pairwise_singleton _ _)).1
  reachable := by
    refine fun p task => ⟨?_, h.visits_reachable⟩
    rintro ⟨x, hx, rfl, rfl⟩
    refine h.reachable rfl (fun _ hv => hv) (fun y hy => ?_) x hx
    obtain rfl := List.mem_singleton.mp hy
    exact .root
  failures_eq := rfl
  found := fun x hx => found_of_perform (h.performed hx)

/-- The task that validating an object by the rules of a type starts with. -/
def start (owner : Value) (t : TypeId) : Task := .object nestingLimit owner t ""

variable {owner : Value} {t : TypeId}

/-- Validating an object ends well exactly if nothing on the way fails. -/
theorem visitObject_isOk_iff (hbuilt : e.registry.AllBuilt t) (hprov : e.registry.WithoutProviders t) :
    (visitObject d nestingLimit owner t "" e).1.isOk = true ↔ Unfailing d (start owner t) e := by
  rw [(visitObject_alike_traverse hbuilt hprov nestingLimit owner "" e rfl).1]
  have hheight : (start owner t).height ≤ 4 * nestingLimit + 1 := le_rfl
  exact traverse_isOk_iff hheight

namespace Basket

def schema : Schema := ⟨[
  { name := "Item"
    members := [⟨"name", .field (.type (.builtin .text)) none none none⟩]
    line := [.declared "Item"] },
  { name := "Basket"
    members := [
      ⟨"note", .field (.type (.builtin .text)) none none none⟩,
      ⟨"items", .field (.list (.type (.declared "Item"))) none none none⟩]
    line := [.declared "Basket"] }]⟩

def engine : Engine :=
  { world := { schema, objects := [
      ⟨.declared "Item", [("name", .text "pear")]⟩,
      ⟨.declared "Item", [("name", .text "")]⟩,
      ⟨.declared "Basket", [("note", .text ""), ("items", .list [.object 0, .object 1])]⟩] } }

def required : BuilderStep := .check (.attach (.ok { check := .required false }))

def steps : List TypeStep := [
  .builder (.ref ⟨.declared "Basket", "note", .field⟩) false none [
    .whenBlock (.plain .never) [required]],
  .builder (.ref ⟨.declared "Basket", "items", .field⟩) true none [
    .childRules [.builder (.ref ⟨.declared "Item", "name", .field⟩) false none [required]] none],
  .build]

/-- The engine with the basket configured. -/
def configured : Engine :=
  ((do runTypeSteps (← Action.configure (.declared "Basket")) steps : Action Unit) engine).2

/-- The types that a validation of a basket can come to. -/
def types : List TypeId := [.declared "Basket", .declared "Item"]

theorem types_closed : ∀ u ∈ types, configured.registry.isBuilt u = true ∧
    ∀ r ∈ configured.registry.rulesOf u, r.provider = none ∧
      ∀ v, r.nestedType? = some v → v ∈ types := by
  have hall : types.all (fun u => configured.registry.isBuilt u &&
      (configured.registry.rulesOf u).all fun r =>
        r.provider.isNone && r.nestedType?.all types.contains) = true := by decide +kernel
  intro u hu
  obtain ⟨hbuilt, hrules⟩ := Bool.and_eq_true_iff.mp (List.all_eq_true.mp hall u hu)
  refine ⟨hbuilt, fun r hr => ?_⟩
  obtain ⟨hprovider, hnested⟩ := Bool.and_eq_true_iff.mp (List.all_eq_true.mp hrules r hr)
  refine ⟨Option.isNone_iff_eq_none.mp hprovider, fun v hv => ?_⟩
  rw [hv] at hnested
  exact List.contains_iff_mem.mp hnested

theorem mem_types {u : TypeId} (h : configured.registry.Reaches (.declared "Basket") u) :
    u ∈ types :=
  h.mem (by decide) fun u hu r hr => ((types_closed u hu).2 r hr).2

theorem allBuilt : configured.registry.AllBuilt (.declared "Basket") := fun u hu =>
  (types_closed u (mem_types hu)).1

theorem withoutProviders : configured.registry.WithoutProviders (.declared "Basket") :=
  fun u hu r hr => ((types_closed u (mem_types hu)).2 r hr).1

theorem unfailing : Unfailing .immediate (start (.object 2) (.declared "Basket")) configured :=
  (visitObject_isOk_iff allBuilt withoutProviders).mp (by decide +kernel)

end Basket

end Validation
end MemberRules
