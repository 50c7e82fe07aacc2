/-
# The order of members

The members of a type are validated in the order in which they first received a rule.  Whether this
order matters is a question of what their validations have to do with each other.  It does not matter
if what is evaluated for one member and what is evaluated for another one can be interchanged, as
pure conditions and checks always can: then the failures are the same, up to their order.

But it matters for value providers.  A provider replaces the value of its member as the member is
validated, and other members can compare themselves with that value.  Then it makes a difference which
of them is validated first, although the provider and the comparison are pure.

* `Registry.Reordered`: a registry with the same rules, and the members in any order.
* `Engine.Undisturbed`: members that do not disturb each other.
* `Validation.validation_of_reordered`: for these the order does not matter.
* `Validation.not_validation_of_reordered`: a value provider for which it does.
-/
import MemberRules.Proofs.Validation.Planned

namespace MemberRules

open MemberRules.Computation

/-! ## 1. Registries that differ in the order of members -/

/-- A registry that holds what another one holds, with the members of each type in any order. -/
structure Registry.Reordered (reg reg' : Registry) : Prop where
  groups : ∀ u, (reg'.allGroups u).Perm (reg.allGroups u)
  built : ∀ u, reg'.isBuilt u = reg.isBuilt u
  known : ∀ u, reg'.knows u = reg.knows u

/-- A registry of one type that has two members. -/
theorem Registry.reordered_swap (t : TypeId) (g g' : RuleGroup) (marks : List (TypeId × Bool)) :
    Registry.Reordered ⟨[(t, [g, g'])], marks⟩ ⟨[(t, [g', g])], marks⟩ where
  groups u := by
    unfold Registry.allGroups
    simp only [List.lookup_cons, List.lookup_nil]
    split
    · exact .swap ..
    · exact .refl _
  built _ := rfl
  known u := by
    unfold Registry.knows
    simp only [List.lookup_cons, List.lookup_nil]
    split <;> rfl

section

variable {reg' : Registry} {e e' : Engine} {t own : TypeId} {v : Value} {d : Drive}
  {r r' : ValidationResult} {scene : World → Prop} {uses : Option Culture → Prop}

theorem Registry.Reordered.shown {reg : Registry} (h : reg.Reordered reg') (u : TypeId) :
    (reg'.shown u).Perm (reg.shown u) := ((h.groups u).filter _).map _

/-- The plan of an engine fits an engine whose members stand in another order. -/
theorem Engine.Fits.reorder (he : e.Fits uses e) (h : e.registry.Reordered reg') :
    e.Fits uses { e with registry := reg' } where
  sources := rfl
  faithful := he.faithful
  memory := he.memory
  known u hu := (h.known u).trans hu
  rules u hu := (h.shown u).trans (he.rules u ((h.known u).symm.trans hu))

/-! ## 2. Members that do not disturb each other -/

/-- An engine on which the members that the validation of a value comes to do not disturb each other,
in the worlds of a scene. -/
structure Engine.Undisturbed (e : Engine) (d : Drive) (v : Value) (own : TypeId)
    (scene : World → Prop) : Prop where
  faithful : e.world.schema.Faithful e.reflected
  cultures : ∀ c, e.Uses own c → Culture.IsWorded c
  /-- The types whose rules are carried by a check of another type are known. -/
  carried : ∀ u, e.Meets own u → ∀ g ∈ e.planned u, ∀ r ∈ g.rules, ∀ u', r.carriedType? = some u' →
    e.registry.knows u' = true
  present : scene e.world
  apart : (Plan.ofObject e d nestingLimit v own "").Apart scene

namespace Validation

/-- A validation gives what its run gives, if it gives a result. -/
theorem IsValidation.run_ok {x : Action ValidationResult} (hx : IsValidation t v d x)
    (hown : (rulesType t v e).1 = .ok own) (h : (x e).1 = .ok r) : (run d v own e).1 = .ok r := by
  have hpair : rulesType t v e = (.ok own, e) := Prod.ext hown (rulesType_snd t v e)
  cases hx with
  | atOnce =>
    rw [validate_apply hown] at h
    split at h
    · cases h
    · rcases run_immediate_fst v own e with hsame | hsuspended
      · exact hsame.symm.trans h
      · rw [hsuspended] at h
        cases h
    · rwa [run_note_fst] at h
  | patient => rwa [validatePatiently_apply hown] at h
  | limited exhausted =>
    unfold validatePatiently at h
    rwa [bind_ok hpair] at h

/-- A run that gives a result gives the failures of the object. -/
theorem visitObject_of_run (h : (run d v own e).1 = .ok r) :
    ∃ e₁, visitObject d nestingLimit v own "" e = (.ok r.failures, e₁) := by
  rcases hrun : run d v own e with ⟨result, e₂⟩
  obtain rfl : result = .ok r := by rwa [hrun] at h
  obtain ⟨fs, e₁, hvisit, hrest⟩ := bind_eq_ok.mp hrun
  cases hrest
  exact ⟨e₁, hvisit⟩

/-- There is nothing to find by the rules of a type that is not known. -/
theorem failures_of_unknown (h : (run d v own e).1 = .ok r) (hunknown : e.registry.knows own = false) :
    r.failures = [] := by
  obtain ⟨e₁, hvisit⟩ := visitObject_of_run h
  obtain ⟨depth, hdepth⟩ : ∃ depth, nestingLimit = depth + 1 := ⟨_, rfl⟩
  rw [hdepth] at hvisit
  obtain ⟨_, e₂, hbuilt, hcollect⟩ := bind_eq_ok.mp hvisit
  obtain rfl := requireBuilt_eq_ok hbuilt
  have hnone : e₂.registry.groupsOf own = [] := by
    unfold Registry.groupsOf
    rw [Registry.allGroups_of_not_knows hunknown, List.filter_nil]
  rw [bind_ok (get_apply e₂), hnone] at hcollect
  exact (Except.ok.inj (Prod.mk.inj hcollect).1).symm

/-- **The order of members does not matter**, if they do not disturb each other. -/
theorem validation_of_reordered {x : Action ValidationResult} (hx : IsValidation t v d x)
    (hown : (rulesType t v e).1 = .ok own) (hreordered : e.registry.Reordered reg')
    (hundisturbed : e.Undisturbed d v own scene) (hr : (x e).1 = .ok r)
    (hr' : (x { e with registry := reg' }).1 = .ok r') : r.failures.Perm r'.failures := by
  have hown' : (rulesType t v { e with registry := reg' }).1 = .ok own := by
    rw [← hown]
    unfold rulesType
    split
    · rfl
    · show Except.ok (if reg'.knows _ then _ else t) = _
      rw [hreordered.known]
      rfl
  have hrun := hx.run_ok hown hr
  have hrun' := hx.run_ok hown' hr'
  cases hknown : e.registry.knows own with
  | false =>
    have hknown' : reg'.knows own = false := (hreordered.known own).trans hknown
    rw [failures_of_unknown hrun hknown, failures_of_unknown hrun' hknown']
  | true =>
    have hknown' : reg'.knows own = true := (hreordered.known own).trans hknown
    have hself : e.Fits (e.Uses own) e := Engine.fits_self hundisturbed.faithful
    have hfollows := visitObject_follows hundisturbed.cultures hundisturbed.carried d nestingLimit v
      own ""
    obtain ⟨e₁, hvisit⟩ := visitObject_of_run hrun
    obtain ⟨e₁', hvisit'⟩ := visitObject_of_run hrun'
    obtain ⟨-, hplan⟩ := hfollows e .refl hknown hself _ _ hvisit
    obtain ⟨-, hplan'⟩ := hfollows _ .refl hknown' (hself.reorder hreordered) _ _ hvisit'
    exact (hplan.confluent hplan' hundisturbed.apart hundisturbed.present).1

/-! ### Drafts whose titles and copies are both needed

The title of a draft is replaced by itself without blanks at its ends, and no rule of the copy looks at
the title.  So the failures are the same, whichever member comes first. -/

namespace Draft

def type : TypeId := .declared "Draft"

def schema : Schema := ⟨[
  { name := "Draft"
    members := [⟨"title", .field (.type (.builtin .text)) none none none⟩,
      ⟨"copy", .field (.type (.builtin .text)) none none none⟩]
    line := [type] }]⟩

/-- The world with a draft of a title and a blank copy. -/
def world (title : String) : World :=
  { schema, objects := [⟨type, [("title", .text title), ("copy", .text " ")]⟩] }

/-- The rule of a member of drafts. -/
def rule (name : String) (c : Check) (provider : Option Expr) : Rule :=
  { id := 0, member := ⟨type, name, .field⟩, validator := some { check := c },
    uniqueKey := .named name, provider }

/-- The title is needed, without blanks at its ends. -/
def titles : RuleGroup :=
  ⟨⟨type, "title", .field⟩, [rule "title" (.required false) (some (.strip .subject))]⟩

/-- The copy is checked. -/
def copies (c : Check) : RuleGroup := ⟨⟨type, "copy", .field⟩, [rule "copy" c none]⟩

/-- The engine that holds rules of drafts, and a draft of nothing but blanks. -/
def engine (gs : List RuleGroup) : Engine :=
  { world := world " ", registry := ⟨[(type, gs)], [(type, true)]⟩ }

/-- The worlds that come up: the title is as it was, or has been replaced. -/
def stage (w : World) : Prop := w = world " " ∨ w = world ""

/-- The title and the copy are both needed. -/
def needed : Engine := engine [titles, copies (.required false)]

theorem planned : needed.planned type = [titles, copies (.required false)] := rfl

theorem eq_type_of_meets {u : TypeId} (h : needed.Meets type u) : u = type := by
  induction h with
  | refl => rfl
  | step _ hg hr hnested ih =>
    subst ih
    rw [planned] at hg
    rcases List.mem_pair.mp hg with rfl | rfl <;> cases List.mem_singleton.mp hr <;> cases hnested

variable {nested : Value → TypeId → String → Plan}

/-- A blank text fails in both worlds, with the same message. -/
theorem ofRule_steady (name path text : String) (provider : Option Expr)
    (h : text = " " ∨ text = "") :
    (Plan.ofRule needed nested .patient ⟨.object 0, type, path⟩ (.text text)
      (rule name (.required false) provider)).Steady stage := by
  refine ⟨true, ?_, ⟨false, none⟩, ?_, ⟨type, name, some { check := .required false },
    some (rule name (.required false) provider), none⟩, ?_, ?_⟩
  · rintro w (rfl | rfl) <;> rfl
  · rcases h with rfl | rfl <;> rintro w (rfl | rfl) <;> rfl
  · rintro w (rfl | rfl) <;> rfl
  · exact .given fun _ => .given fun _ => trivial

theorem copies_steady :
    (Plan.ofMember needed nested .patient (.object 0) type ""
      (copies (.required false))).Steady stage := by
  refine ⟨.text " ", ?_, ofRule_steady "copy" _ " " none (.inl rfl), trivial⟩
  rintro w (rfl | rfl) <;> rfl

/-- The title is replaced by the same value in both worlds, and checked as that. -/
theorem titles_apart :
    (Plan.ofMember needed nested .patient (.object 0) type "" titles).Apart stage := by
  have hprovided : ∀ w v, stage w → v = .text " " ∨ v = .text "" →
      (Expr.strip .subject).eval ⟨v, .object 0, .text "title"⟩ w = (.ok (.text ""), w) := by
    rintro w v (rfl | rfl) (rfl | rfl) <;> rfl
  have hwritten : ∀ w, stage w →
      titles.member.write (.object 0) (.text "") w = (.ok (), world "") := by
    rintro w (rfl | rfl) <;> rfl
  intro w v w₁ hw hread
  have hvalue : (v = .text " " ∨ v = .text "") ∧ w₁ = w := by
    rcases hw with rfl | rfl <;> cases hread
    · exact ⟨.inl rfl, rfl⟩
    · exact ⟨.inr rfl, rfl⟩
  obtain ⟨hv, rfl⟩ := hvalue
  refine ⟨hw, fun w v' w₂ hw hrun => ?_⟩
  obtain ⟨hv', rfl⟩ := Prod.mk.inj ((hprovided w v hw hv).symm.trans hrun)
  obtain rfl := Except.ok.inj hv'
  refine ⟨hw, fun w _ w₂ hw hrun => ?_⟩
  obtain ⟨-, rfl⟩ := Prod.mk.inj ((hwritten w hw).symm.trans hrun)
  exact ⟨.inr rfl, (ofRule_steady "title" _ "" _ (.inr rfl)).apart, trivial⟩

theorem undisturbed : needed.Undisturbed .patient (.object 0) type stage where
  faithful := Schema.faithful_nil _
  cultures := by
    rintro c ⟨u, hu, g, hg, r, hr, rfl⟩
    obtain rfl := eq_type_of_meets hu
    rw [planned] at hg
    rcases List.mem_pair.mp hg with rfl | rfl <;> cases List.mem_singleton.mp hr <;> rintro _ ⟨⟩
  carried u hu g hg r hr u' hcarried := by
    obtain rfl := eq_type_of_meets hu
    rw [planned] at hg
    rcases List.mem_pair.mp hg with rfl | rfl <;> cases List.mem_singleton.mp hr <;> cases hcarried
  present := .inl rfl
  apart := by
    obtain ⟨depth, hdepth⟩ : ∃ depth, nestingLimit = depth + 1 := ⟨_, rfl⟩
    rw [hdepth]
    unfold Plan.ofObject
    rw [planned]
    refine Plan.apart_of_steady (fun g hg => ?_) (List.pairwise_pair.mpr (.inr copies_steady))
    rcases List.mem_pair.mp hg with rfl | rfl
    · exact titles_apart
    · exact copies_steady.apart

end Draft

/-- A result with a number of failures. -/
theorem exists_of_count {x : Except Fault ValidationResult} {n : Nat}
    (h : x.toOption.map (fun r => r.failures.length) = some n) :
    ∃ r, x = .ok r ∧ r.failures.length = n := by
  cases x with
  | error f => cases h
  | ok r => exact ⟨r, rfl, Option.some.inj h⟩

/-- Both members of a draft fail, whichever comes first. -/
theorem draft_of_reordered :
    ∃ r r', (validate Draft.type (.object 0) Draft.needed).1 = .ok r ∧
      (validate Draft.type (.object 0)
        (Draft.engine [Draft.copies (.required false), Draft.titles])).1 = .ok r' ∧
      r.failures.length = 2 ∧ r.failures.Perm r'.failures := by
  obtain ⟨r, hr, htwo⟩ := exists_of_count (n := 2)
    (x := (validate Draft.type (.object 0) Draft.needed).1) (by decide +kernel)
  obtain ⟨r', hr', -⟩ := exists_of_count (n := 2)
    (x := (validate Draft.type (.object 0)
      (Draft.engine [Draft.copies (.required false), Draft.titles])).1) (by decide +kernel)
  refine ⟨r, r', hr, hr', htwo, ?_⟩
  exact validation_of_reordered .atOnce (congrArg Prod.fst (eq_ok_of_toOption (by decide +kernel)))
    (Registry.reordered_swap ..) Draft.undisturbed hr hr'

/-! ## 3. Members that do -/

end Validation

/-- A rule whose condition, check, message and value provider change nothing.  What a comparison reads
of the object besides the value is no part of this. -/
structure Rule.IsPure (r : Rule) : Prop where
  gate : ∀ d object w, (r.gate.isOpen d object w).2 = w
  check : ∀ a, r.validator = some a → ∀ d v w, (a.check.accepts (Check.awaiting d v) v w).2 = w
  message : ∀ x, r.message = some (.computed x) → ∀ env w, (x.eval env w).2 = w
  provider : ∀ x, r.provider = some x → ∀ env w, (x.eval env w).2 = w

namespace Validation

namespace Draft

theorem rule_isPure {c : Check} {provider : Option Expr} (name : String)
    (hc : ∀ d v w, (c.accepts (Check.awaiting d v) v w).2 = w)
    (hprovider : ∀ x, provider = some x → ∀ env w, (x.eval env w).2 = w) :
    (rule name c provider).IsPure where
  gate _ _ _ := rfl
  check a ha := by
    cases ha
    exact hc
  message x hx := by cases hx
  provider := hprovider

/-- Removing blanks changes nothing. -/
theorem strip_eval (s : Scope) (w : World) : ((Expr.strip .subject).eval s w).2 = w := by
  show (Eval.convert Text.strip Text.stripBytes s.subject w).2 = w
  unfold Eval.convert
  cases s.subject <;> rfl

/-- All rules of drafts whose copy must be equal to the title. -/
theorem rules_arePure : ∀ g ∈ [titles, copies (.compare "title" .equal)], ∀ r ∈ g.rules,
    r.IsPure := by
  intro g hg r hr
  rcases List.mem_pair.mp hg with rfl | rfl <;> cases List.mem_singleton.mp hr
  · refine rule_isPure "title" (fun _ _ _ => rfl) ?_
    rintro _ ⟨⟩
    exact strip_eval
  · refine rule_isPure "copy" (fun _ _ _ => rfl) ?_
    rintro _ ⟨⟩

end Draft

/-- **The order of members matters for some pure rules.**  A copy that must be equal to the title fails
if blanks have been removed from the title before, but not if it comes first. -/
theorem not_validation_of_reordered :
    ¬ ∀ (e : Engine) (reg' : Registry) (t own : TypeId) (v : Value) (d : Drive)
      (x : Action ValidationResult) (r r' : ValidationResult),
      IsValidation t v d x → (rulesType t v e).1 = .ok own → e.registry.isBuilt own = true →
      (∀ g ∈ e.registry.allGroups own, ∀ r ∈ g.rules, r.IsPure) → e.registry.Reordered reg' →
      (x e).1 = .ok r → (x { e with registry := reg' }).1 = .ok r' →
        r.failures.Perm r'.failures := by
  intro h
  obtain ⟨r, hr, htwo⟩ := exists_of_count (n := 2)
    (x := (validate Draft.type (.object 0)
      (Draft.engine [Draft.titles, Draft.copies (.compare "title" .equal)])).1) (by decide +kernel)
  obtain ⟨r', hr', hone⟩ := exists_of_count (n := 1)
    (x := (validate Draft.type (.object 0)
      (Draft.engine [Draft.copies (.compare "title" .equal), Draft.titles])).1) (by decide +kernel)
  have hperm := h (Draft.engine [Draft.titles, Draft.copies (.compare "title" .equal)]) _ _
    Draft.type _ _ _ r r' .atOnce (congrArg Prod.fst (eq_ok_of_toOption (by decide +kernel)))
    (by decide +kernel) Draft.rules_arePure (Registry.reordered_swap ..) hr hr'
  have hlength := hperm.length_eq
  rw [htwo, hone] at hlength
  cases hlength

end Validation
end
end MemberRules
