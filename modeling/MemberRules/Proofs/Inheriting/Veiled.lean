/-
# Hidden settings

Two engines in which the same has been configured may differ in settings for all rules, of some
kinds: in those of some configurations that are hidden, and in the rules that these have made.  Such
a rule is held by a builder of a hidden configuration, or registered for its type.  For a
configuration that is loose it may even make a difference whether its settings have changed.  All
other rules and settings are the same.

Most of what configuration steps do is blind to settings.  So here is what blind steps may look at,
and the changes that they may make.

* `Rule.bare`, `Configuration.bare`, `Builder.bare`: without the settings; `Rule.Veiled`.
* `Registry.Veiled`, `Configuration.Veiled`, `Builder.Veiled`, `Engine.Veiled`: what is the same.
* `aside_veiled`, `configuration_veiled`, `builder_veiled`, `look_veiled`: what steps may look at.
* `Engine.Veiled.…`: the changes that they may make.
-/
import Mathlib.Data.Set.Basic
import MemberRules.Proofs.Configuration.Turns
import MemberRules.Proofs.Respects

namespace MemberRules

open MemberRules.Computation

/-! ## 1. Without the settings -/

/-- The kinds of settings for all rules. -/
inductive SettingKind
  | resource
  | culture
  | fallback
  | conventionalKeys
  deriving DecidableEq

/-- The kind of a setting. -/
def TypeSetting.kind : TypeSetting → SettingKind
  | resource _ => .resource
  | culture _ => .culture
  | fallback _ => .fallback
  | withoutConventionalKeys => .conventionalKeys

/-- A rule without the settings of some kinds that it may get for all rules. -/
def Rule.bare (K : List SettingKind) (r : Rule) : Rule :=
  { r with
    resource := if .resource ∈ K then none else r.resource
    culture := if .culture ∈ K then none else r.culture
    fallback := if .fallback ∈ K then none else r.fallback
    conventionalKeys := if .conventionalKeys ∈ K then true else r.conventionalKeys }

def RuleGroup.bare (K : List SettingKind) (g : RuleGroup) : RuleGroup :=
  { g with rules := g.rules.map (Rule.bare K) }

def Builder.bare (K : List SettingKind) (x : Builder) : Builder :=
  { x with rules := x.rules.map (Rule.bare K) }

variable {K : List SettingKind}

namespace Configuration

/-- A configuration with the settings of another one, and with what this one has built. -/
def withSettings (cfg other : Configuration) : Configuration :=
  { cfg with
    resource := other.resource
    culture := other.culture
    fallback := other.fallback
    conventionalKeys := other.conventionalKeys
    settingsChanged := other.settingsChanged
    lastBuild := other.lastBuild }

/-- A configuration without the settings of some kinds, and without what it has built. -/
def bare (K : List SettingKind) (cfg : Configuration) : Configuration :=
  { cfg with
    resource := if .resource ∈ K then none else cfg.resource
    culture := if .culture ∈ K then none else cfg.culture
    fallback := if .fallback ∈ K then none else cfg.fallback
    conventionalKeys := if .conventionalKeys ∈ K then true else cfg.conventionalKeys
    settingsChanged := false
    lastBuild := [] }

/-- The configuration of a block of nested rules, with the settings of the one around it. -/
def within (outer inner : Configuration) : Configuration :=
  { inner with
    resource := inner.resource.or outer.resource
    culture := outer.culture
    fallback := outer.fallback
    conventionalKeys := outer.conventionalKeys
    enforce := outer.enforce
    settingsChanged := true }

/-- Settings of other kinds are taken from settings of other kinds. -/
theorem bare_within (outer inner : Configuration) :
    (outer.within inner).bare K = ((outer.bare K).within (inner.bare K)).bare K := by
  unfold within bare
  congr 1 <;> split <;> rfl

/-- So rules are completed with them. -/
theorem bare_complete (cfg : Configuration) (r : Rule) :
    (cfg.complete r).bare K = ((cfg.bare K).complete (r.bare K)).bare K := by
  unfold complete bare Rule.bare
  congr 1 <;> split <;> rfl

/-- A setting changes nothing else. -/
theorem bare_on (s : TypeSetting) (cfg : Configuration) :
    (s.on cfg).bare K = (s.on (cfg.bare K)).bare K := by
  cases s <;> unfold TypeSetting.on bare <;> congr 1 <;> split <;> rfl

theorem bare_on_of_mem {s : TypeSetting} (h : s.kind ∈ K) (cfg : Configuration) :
    (s.on cfg).bare K = cfg.bare K := by
  cases s <;> rw [TypeSetting.kind] at h <;> simp only [TypeSetting.on, bare, if_pos h]

/-- Settings do not show in what is read without them. -/
theorem read_eq {α : Type} {f : Configuration → α} (hf : ∀ cfg, f (cfg.bare K) = f cfg)
    {cfg cfg' : Configuration} (h : cfg'.bare K = cfg.bare K) : f cfg' = f cfg := by
  rw [← hf cfg', h, hf]

end Configuration

theorem Builder.read_eq {α : Type} {f : Builder → α} (hf : ∀ x, f (x.bare K) = f x) {x x' : Builder}
    (h : x'.bare K = x.bare K) : f x' = f x := by
  rw [← hf x', h, hf]

theorem Rule.read_eq {α : Type} {f : Rule → α} (hf : ∀ r, f (r.bare K) = f r) {r r' : Rule}
    (h : r'.bare K = r.bare K) : f r' = f r := by
  rw [← hf r', h, hf]

/-- Rules that differ in settings, if they are hidden. -/
structure Rule.Veiled (K : List SettingKind) (hidden : Prop) (r r' : Rule) : Prop where
  bare : r'.bare K = r.bare K
  shown : ¬ hidden → r' = r

theorem Rule.Veiled.refl (hidden : Prop) (r : Rule) : r.Veiled K hidden r := ⟨rfl, fun _ => rfl⟩

theorem Rule.Veiled.mono {hidden hidden' : Prop} {r r' : Rule} (h : r.Veiled K hidden r')
    (hsub : hidden → hidden') : r.Veiled K hidden' r' :=
  ⟨h.bare, fun hno => h.shown fun hid => hno (hsub hid)⟩

/-- Lists of rules that differ in settings, if they are hidden. -/
abbrev RulesVeiled (K : List SettingKind) (hidden : Prop) : List Rule → List Rule → Prop :=
  List.Forall₂ (Rule.Veiled K hidden)

theorem rulesVeiled_of_bare {hidden : Prop} {rs rs' : List Rule}
    (hbare : rs'.map (Rule.bare K) = rs.map (Rule.bare K)) (hshown : ¬ hidden → rs' = rs) :
    RulesVeiled K hidden rs rs' := by
  induction rs generalizing rs' with
  | nil =>
    rw [List.map_nil, List.map_eq_nil_iff] at hbare
    rw [hbare]
    exact .nil
  | cons r rs ih =>
    obtain ⟨r', rs', rfl, hfirst, hrest⟩ := List.map_eq_cons_iff.mp (hbare.trans List.map_cons)
    exact .cons ⟨hfirst, fun h => (List.cons.inj (hshown h)).1⟩
      (ih hrest fun h => (List.cons.inj (hshown h)).2)

theorem RulesVeiled.filter {hidden : Prop} {rs rs' : List Rule} (h : RulesVeiled K hidden rs rs')
    {p : Rule → Bool} (hp : ∀ r : Rule, p (r.bare K) = p r) :
    RulesVeiled K hidden (rs.filter p) (rs'.filter p) := by
  refine List.rel_filter (fun {r r'} hr => ?_) h
  show p r = true ↔ p r' = true
  rw [Rule.read_eq hp hr.bare]

theorem RulesVeiled.map {hidden : Prop} {rs rs' : List Rule} (h : RulesVeiled K hidden rs rs')
    {f g : Rule → Rule} (hfg : ∀ r r' : Rule, r.Veiled K hidden r' → (f r).Veiled K hidden (g r')) :
    RulesVeiled K hidden (rs.map f) (rs'.map g) := by
  rw [RulesVeiled, List.forall₂_map_left_iff, List.forall₂_map_right_iff]
  exact h.imp hfg

/-! ## 2. Registries -/

namespace Registry

variable {reg reg' : Registry} {hidden hidden' : TypeId → Prop} {t u : TypeId} {k : MemberKey}

/-- Two registries with the same rules but for settings, and the very same rules of types that are
not hidden. -/
structure Veiled (K : List SettingKind) (hidden : TypeId → Prop) (reg reg' : Registry) : Prop where
  marks : reg'.marks = reg.marks
  known : ∀ t, reg'.knows t = reg.knows t
  groups : ∀ t, (reg'.allGroups t).map (RuleGroup.bare K) = (reg.allGroups t).map (RuleGroup.bare K)
  shown : ∀ t, ¬ hidden t → reg'.allGroups t = reg.allGroups t

theorem Veiled.refl (hidden : TypeId → Prop) (reg : Registry) : reg.Veiled K hidden reg :=
  ⟨rfl, fun _ => rfl, fun _ => rfl, fun _ _ => rfl⟩

theorem Veiled.symm (h : reg.Veiled K hidden reg') : reg'.Veiled K hidden reg :=
  ⟨h.marks.symm, fun t => (h.known t).symm, fun t => (h.groups t).symm,
    fun t ht => (h.shown t ht).symm⟩

theorem Veiled.trans {reg'' : Registry} (h : reg.Veiled K hidden reg')
    (h' : reg'.Veiled K hidden reg'') : reg.Veiled K hidden reg'' :=
  ⟨h'.marks.trans h.marks, fun t => (h'.known t).trans (h.known t),
    fun t => (h'.groups t).trans (h.groups t), fun t ht => (h'.shown t ht).trans (h.shown t ht)⟩

theorem Veiled.mono (h : reg.Veiled K hidden reg') (hsub : ∀ t, hidden t → hidden' t) :
    reg.Veiled K hidden' reg' :=
  ⟨h.marks, h.known, h.groups, fun t ht => h.shown t fun hid => ht (hsub t hid)⟩

/-! ### What is read -/

theorem rulesOfMember_bare (reg : Registry) (t : TypeId) (k : MemberKey) :
    (reg.rulesOfMember t k).map (Rule.bare K) =
      (((reg.allGroups t).map (RuleGroup.bare K)).find? fun g => g.member.key == k).elim []
        RuleGroup.rules := by
  unfold rulesOfMember
  rw [List.find?_map]
  show _ = (((reg.allGroups t).find? fun g => g.member.key == k).map (RuleGroup.bare K)).elim [] _
  cases (reg.allGroups t).find? fun g => g.member.key == k <;> rfl

theorem Veiled.rulesOfMember (h : reg.Veiled K hidden reg') (t : TypeId) (k : MemberKey) :
    (reg'.rulesOfMember t k).map (Rule.bare K) = (reg.rulesOfMember t k).map (Rule.bare K) := by
  rw [rulesOfMember_bare, h.groups, ← rulesOfMember_bare]

theorem Veiled.rulesOfMember_shown (h : reg.Veiled K hidden reg') (ht : ¬ hidden t)
    (k : MemberKey) :
    reg'.rulesOfMember t k = reg.rulesOfMember t k :=
  Engine.rulesOfMember_of_groups (h.shown t ht) k

theorem rulesOf_bare (reg : Registry) (t : TypeId) : (reg.rulesOf t).map (Rule.bare K) =
    ((reg.allGroups t).map (RuleGroup.bare K)).flatMap RuleGroup.rules := by
  unfold rulesOf groupsOf
  induction reg.allGroups t with
  | nil => rfl
  | cons g gs ih =>
    rw [List.map_cons, List.flatMap_cons, ← ih, List.filter_cons]
    cases hrules : g.rules with
    | nil => simp [RuleGroup.bare, hrules]
    | cons r rs => simp [RuleGroup.bare, hrules]

theorem Veiled.rulesOf (h : reg.Veiled K hidden reg') (t : TypeId) :
    (reg'.rulesOf t).map (Rule.bare K) = (reg.rulesOf t).map (Rule.bare K) := by
  rw [rulesOf_bare, h.groups, ← rulesOf_bare]

theorem countWhere_bare (reg : Registry) (t : TypeId) (member : Option MemberKey)
    {doomed : Rule → Bool} (hdoomed : ∀ r : Rule, doomed (r.bare K) = doomed r) :
    reg.countWhere t member doomed =
      ((((reg.allGroups t).map (RuleGroup.bare K)).filter fun g =>
        member.all fun k => g.member.key == k).flatMap RuleGroup.rules).countP doomed := by
  unfold countWhere
  induction reg.allGroups t with
  | nil => rfl
  | cons g gs ih =>
    have hgroup : ((g.bare K).rules).countP doomed = g.rules.countP doomed := by
      show (g.rules.map (Rule.bare K)).countP doomed = _
      rw [List.countP_map]
      exact List.countP_congr fun r _ => by simp [hdoomed]
    have hkey : (g.bare K).member = g.member := rfl
    rw [List.map_cons, List.filter_cons, List.filter_cons, hkey]
    cases member.all fun k => g.member.key == k with
    | true => simpa [List.flatMap_cons, hgroup] using ih
    | false => simpa using ih

theorem Veiled.countWhere (h : reg.Veiled K hidden reg') (t : TypeId) (member : Option MemberKey)
    {doomed : Rule → Bool} (hdoomed : ∀ r : Rule, doomed (r.bare K) = doomed r) :
    reg'.countWhere t member doomed = reg.countWhere t member doomed := by
  rw [countWhere_bare reg' t member hdoomed, h.groups, ← countWhere_bare reg t member hdoomed]

/-! ### What is changed -/

theorem knows_mark (built : Bool) : (reg.mark t built).knows u = (reg.knows u || u == t) := by
  unfold mark knows
  by_cases h : u = t
  · subst h
    simp [lookup_updateEntry]
  · have hne : (u == t) = false := beq_eq_false_iff_ne.mpr h
    simp [lookup_updateEntry_of_ne h, hne]

theorem Veiled.mark (h : reg.Veiled K hidden reg') (t : TypeId) (built : Bool) :
    (reg.mark t built).Veiled K hidden (reg'.mark t built) where
  marks := by rw [Registry.mark, h.marks, Registry.mark]
  known u := by rw [knows_mark, knows_mark, h.known]
  groups := h.groups
  shown := h.shown

theorem knows_removeWhere (member : Option MemberKey) (doomed : Rule → Bool) :
    (reg.removeWhere t member doomed).knows u = reg.knows u := by
  unfold knows
  rw [lookup_removeWhere, Option.isSome_map]
  rfl

theorem Veiled.removeWhere (h : reg.Veiled K hidden reg') (t : TypeId) (member : Option MemberKey)
    {doomed : Rule → Bool} (hdoomed : ∀ r : Rule, doomed (r.bare K) = doomed r) :
    (reg.removeWhere t member doomed).Veiled K hidden (reg'.removeWhere t member doomed) where
  marks := h.marks
  known u := by rw [knows_removeWhere, knows_removeWhere, h.known]
  groups u := by
    have hgroup : ∀ g : RuleGroup, (withoutDoomed member doomed g).bare K =
        withoutDoomed member doomed (g.bare K) := fun g => by
      unfold withoutDoomed
      have hkey : (g.bare K).member = g.member := rfl
      rw [hkey]
      split
      · show { g with rules := (g.rules.filter fun r => !doomed r).map (Rule.bare K) } =
          { g with rules := (g.rules.map (Rule.bare K)).filter fun r => !doomed r }
        rw [List.filter_map]
        simp only [Function.comp_def, hdoomed]
      · rfl
    have hboth : ∀ gs : List RuleGroup,
        (gs.map (withoutDoomed member doomed)).map (RuleGroup.bare K) =
          (gs.map (RuleGroup.bare K)).map (withoutDoomed member doomed) := fun gs => by
      rw [List.map_map, List.map_map]
      exact List.map_congr_left fun g _ => hgroup g
    rw [allGroups_removeWhere, allGroups_removeWhere]
    split
    · rw [hboth, hboth, h.groups]
    · exact h.groups u
  shown u hu := by rw [allGroups_removeWhere, allGroups_removeWhere, h.shown u hu]

theorem bare_put (r : Rule) (rs : List Rule) :
    (RuleGroup.put r rs).map (Rule.bare K) = RuleGroup.put (r.bare K) (rs.map (Rule.bare K)) := by
  induction rs with
  | nil => rfl
  | cons x xs ih =>
    have hkey : ((x.bare K).uniqueKey == (r.bare K).uniqueKey) = (x.uniqueKey == r.uniqueKey) := rfl
    rw [List.map_cons, RuleGroup.put, RuleGroup.put, hkey]
    split
    · rfl
    · rw [List.map_cons, ih]

theorem bare_update (r : Rule) (gs : List RuleGroup) :
    (RuleGroup.update r.member (RuleGroup.put r) gs).map (RuleGroup.bare K) =
      RuleGroup.update (r.bare K).member (RuleGroup.put (r.bare K))
        (gs.map (RuleGroup.bare K)) := by
  induction gs with
  | nil => rfl
  | cons g gs ih =>
    have hkey : ((g.bare K).member.key == (r.bare K).member.key) =
        (g.member.key == r.member.key) := rfl
    rw [List.map_cons, RuleGroup.update, RuleGroup.update, hkey]
    split
    · rw [List.map_cons]
      refine congrArg (· :: _) ?_
      show { g with rules := (RuleGroup.put r g.rules).map (Rule.bare K) } = _
      rw [bare_put]
      rfl
    · rw [List.map_cons, ih]

theorem Veiled.add (h : reg.Veiled K hidden reg') (t : TypeId) {r r' : Rule}
    (hr : r.Veiled K (hidden t) r') : (reg.add t r).Veiled K hidden (reg'.add t r') where
  marks := h.marks
  known u := by rw [knows_add, knows_add, h.known]
  groups u := by
    by_cases hu : u = t
    · subst hu
      rw [allGroups_add, allGroups_add, bare_update, bare_update, h.groups, hr.bare]
    · rw [allGroups_add_of_ne hu, allGroups_add_of_ne hu, h.groups]
  shown u hu := by
    by_cases heq : u = t
    · subst heq
      rw [allGroups_add, allGroups_add, h.shown u hu, hr.shown hu]
    · rw [allGroups_add_of_ne heq, allGroups_add_of_ne heq, h.shown u hu]

theorem Veiled.addAll (h : reg.Veiled K hidden reg') (t : TypeId) {rs rs' : List Rule}
    (hrs : RulesVeiled K (hidden t) rs rs') :
    (reg.addAll t rs).Veiled K hidden (reg'.addAll t rs') := by
  induction hrs generalizing reg reg' with
  | nil => exact h
  | cons hr _ ih => exact ih (h.add t hr)

/-- Nothing is changed where a rule is not held. -/
theorem map_amend_of_ne {id : Nat} {f : Rule → Rule} {rs : List Rule} (h : ∀ r ∈ rs, r.id ≠ id) :
    (rs.map fun r => if r.id == id then f r else r) = rs :=
  (List.map_congr_left fun r hr => by
    rw [if_neg (by simpa using h r hr)]
    rfl).trans (List.map_id rs)

theorem map_amend_bare {id : Nat} {f f' : Rule → Rule}
    (hf : ∀ r r' : Rule, r'.bare K = r.bare K → (f' r').bare K = (f r).bare K) {rs rs' : List Rule}
    (h : rs'.map (Rule.bare K) = rs.map (Rule.bare K)) :
    ((rs'.map fun r => if r.id == id then f' r else r).map (Rule.bare K)) =
      (rs.map fun r => if r.id == id then f r else r).map (Rule.bare K) := by
  induction rs generalizing rs' with
  | nil =>
    rw [List.map_nil, List.map_eq_nil_iff] at h
    rw [h]
    rfl
  | cons r rs ih =>
    obtain ⟨r', rs', rfl, hfirst, hrest⟩ := List.map_eq_cons_iff.mp (h.trans List.map_cons)
    have hid : r'.id = r.id := Rule.read_eq (f := Rule.id) (fun _ => rfl) hfirst
    simp only [List.map_cons]
    rw [ih hrest, hid]
    refine congrArg (· :: _) ?_
    split
    · exact hf r r' hfirst
    · exact hfirst

theorem knows_amend (id : Nat) (f : Rule → Rule) : (reg.amend id f).knows t = reg.knows t := by
  unfold knows amend
  rw [lookup_map_entry, Option.isSome_map]

theorem Veiled.amend (h : reg.Veiled K hidden reg') (id : Nat) {f f' : Rule → Rule}
    (hf : ∀ r r' : Rule, r'.bare K = r.bare K → (f' r').bare K = (f r).bare K)
    (hshown : f' = f ∨ ∀ t, ¬ hidden t → ∀ g ∈ reg.allGroups t, ∀ r ∈ g.rules, r.id ≠ id) :
    (reg.amend id f).Veiled K hidden (reg'.amend id f') where
  marks := h.marks
  known t := by rw [knows_amend, knows_amend, h.known]
  groups t := by
    rw [allGroups_amend, allGroups_amend]
    have hgroups := h.groups t
    generalize reg.allGroups t = gs at hgroups ⊢
    generalize reg'.allGroups t = gs' at hgroups ⊢
    induction gs generalizing gs' with
    | nil =>
      rw [List.map_nil, List.map_eq_nil_iff] at hgroups
      rw [hgroups]
      rfl
    | cons g gs ih =>
      obtain ⟨g', gs', rfl, hfirst, hrest⟩ := List.map_eq_cons_iff.mp (hgroups.trans List.map_cons)
      obtain ⟨m', rs'⟩ := g'
      obtain ⟨m, rs⟩ := g
      obtain ⟨rfl, hrules⟩ := RuleGroup.mk.inj hfirst
      simp only [List.map_cons]
      rw [ih _ hrest]
      exact congrArg (· :: _) (congrArg (RuleGroup.mk m') (map_amend_bare hf hrules))
  shown t ht := by
    rw [allGroups_amend, allGroups_amend, h.shown t ht]
    rcases hshown with rfl | hapart
    · rfl
    · refine List.map_congr_left fun g hg => ?_
      rw [map_amend_of_ne (hapart t ht g hg), map_amend_of_ne (hapart t ht g hg)]

end Registry

/-! ## 3. Engines -/

/-- Configurations that differ in settings, if they are hidden or loose; for a loose one it may
differ whether they have changed. -/
structure Configuration.Veiled (K : List SettingKind) (hidden loose : Prop)
    (cfg cfg' : Configuration) : Prop where
  bare : cfg'.bare K = cfg.bare K
  changed : ¬ loose → cfg'.settingsChanged = cfg.settingsChanged
  settings : ¬ loose → ¬ hidden → cfg.SameSettings cfg'

/-- Builders whose rules differ in settings, if they are hidden. -/
structure Builder.Veiled (K : List SettingKind) (hidden : Prop) (x x' : Builder) : Prop where
  bare : x'.bare K = x.bare K
  held : ¬ hidden → x' = x

namespace Engine

/-- What configuration steps look at, but for the settings: the registry, the configurations, the
builders, and what has been reported. -/
structure Work where
  registry : Registry
  configurations : List Configuration
  builders : List Builder
  reports : List Report

def work (e : Engine) : Work := ⟨e.registry, e.configurations, e.builders, e.reports⟩

def holding (w : Work) (e : Engine) : Engine :=
  { e with registry := w.registry, configurations := w.configurations, builders := w.builders
           reports := w.reports }

/-- An engine without its work. -/
def rest (e : Engine) : Engine := e.holding ⟨{}, [], [], []⟩

variable {H L : Set Nat} {e e' : Engine} {b c : Nat} {t : TypeId}

/-- A type is hidden if it is the type of a hidden configuration. -/
def Hides (H : Set Nat) (e : Engine) (t : TypeId) : Prop :=
  ∃ c < e.configurations.length, c ∈ H ∧ (e.configuration c).type = t

/-- Two engines that differ in the settings of hidden and of loose configurations, and of rules of
hidden types and builders. -/
structure Veiled (K : List SettingKind) (H L : Set Nat) (e e' : Engine) : Prop where
  rest : e'.rest = e.rest
  registry : e.registry.Veiled K (e.Hides H) e'.registry
  length : e'.configurations.length = e.configurations.length
  configuration : ∀ c, (e.configuration c).Veiled K (c ∈ H) (c ∈ L) (e'.configuration c)
  size : e'.builders.length = e.builders.length
  builder : ∀ b, (e.builder b).Veiled K ((e.builder b).owner ∈ H) (e'.builder b)

theorem Hides.of_same (h : e.Hides H t)
    (hlength : e.configurations.length ≤ e'.configurations.length)
    (htype : ∀ c < e.configurations.length, (e'.configuration c).type = (e.configuration c).type) :
    e'.Hides H t := by
  obtain ⟨c, hc, hhidden, heq⟩ := h
  exact ⟨c, hc.trans_le hlength, hhidden, (htype c hc).trans heq⟩

theorem Veiled.type (h : e.Veiled K H L e') (c : Nat) :
    (e'.configuration c).type = (e.configuration c).type :=
  Configuration.read_eq (f := Configuration.type) (fun _ => rfl) (h.configuration c).bare

theorem Veiled.owner (h : e.Veiled K H L e') (b : Nat) :
    (e'.builder b).owner = (e.builder b).owner :=
  Builder.read_eq (f := Builder.owner) (fun _ => rfl) (h.builder b).bare

theorem Veiled.refl (e : Engine) : e.Veiled K H L e :=
  ⟨rfl, .refl _ _, rfl, fun _ => ⟨rfl, fun _ => rfl, fun _ _ => .refl _⟩, rfl,
    fun _ => ⟨rfl, fun _ => rfl⟩⟩

/-! ### What is changed -/

theorem Veiled.updateRegistry (h : e.Veiled K H L e') {reg reg' : Registry}
    (hreg : reg.Veiled K (e.Hides H) reg') :
    { e with registry := reg }.Veiled K H L { e' with registry := reg' } :=
  ⟨h.rest, hreg, h.length, h.configuration, h.size, h.builder⟩

theorem Veiled.report (h : e.Veiled K H L e') (rs rs' : List Report) :
    { e with reports := rs }.Veiled K H L { e' with reports := rs' } :=
  ⟨h.rest, h.registry, h.length, h.configuration, h.size, h.builder⟩

theorem configuration_updateConfiguration_eq (e : Engine) (c c' : Nat)
    (f : Configuration → Configuration) : (e.updateConfiguration c f).configuration c' =
      if c = c' ∧ c' < e.configurations.length then f (e.configuration c')
      else e.configuration c' := by
  unfold Engine.configuration Engine.updateConfiguration
  rw [List.getElem?_modify]
  by_cases hlt : c' < e.configurations.length
  · rw [List.getElem?_eq_getElem hlt]
    by_cases h : c = c' <;> simp [h, hlt]
  · rw [List.getElem?_eq_none (by omega)]
    simp [hlt]

/-- A configuration is changed in each engine in its own way. -/
theorem Veiled.updateConfiguration (h : e.Veiled K H L e') (c : Nat)
    {f f' : Configuration → Configuration} (htype : ∀ cfg, (f cfg).type = cfg.type)
    (hf : (f (e.configuration c)).Veiled K (c ∈ H) (c ∈ L) (f' (e'.configuration c))) :
    (e.updateConfiguration c f).Veiled K H L (e'.updateConfiguration c f') := by
  refine ⟨h.rest, h.registry.mono fun t ht => ?_, ?_, fun c' => ?_, h.size, h.builder⟩
  · refine ht.of_same (List.length_modify ..).ge fun c' _ => ?_
    rw [configuration_updateConfiguration_eq]
    split
    · exact htype _
    · rfl
  · exact (List.length_modify ..).trans (h.length.trans (List.length_modify ..).symm)
  · rw [configuration_updateConfiguration_eq, configuration_updateConfiguration_eq, h.length]
    split
    · rename_i heq
      obtain ⟨rfl, -⟩ := heq
      exact hf
    · exact h.configuration c'

/-- A builder is changed, without looking at settings. -/
theorem Veiled.updateBuilder (h : e.Veiled K H L e') (b : Nat) {f : Builder → Builder}
    (howner : ∀ x, (f x).owner = x.owner)
    (hf : ∀ x x' : Builder, x'.bare K = x.bare K → (f x').bare K = (f x).bare K) :
    (e.updateBuilder b f).Veiled K H L (e'.updateBuilder b f) := by
  refine ⟨h.rest, h.registry, h.length, h.configuration, ?_, fun b' => ?_⟩
  · exact (List.length_modify ..).trans (h.size.trans (List.length_modify ..).symm)
  · have hbuilder := h.builder b'
    rw [builder_updateBuilder, builder_updateBuilder, h.size]
    split
    · refine ⟨hf _ _ hbuilder.bare, fun hshown => ?_⟩
      rw [howner] at hshown
      rw [hbuilder.held hshown]
    · exact hbuilder

/-- A number that no rule has which is shown. -/
structure Unshown (H : Set Nat) (id : Nat) (e : Engine) : Prop where
  registered : ∀ t, ¬ e.Hides H t → ∀ g ∈ e.registry.allGroups t, ∀ r ∈ g.rules, r.id ≠ id
  held : ∀ b, (e.builder b).owner ∉ H → ∀ r ∈ (e.builder b).rules, r.id ≠ id

/-- A rule is changed wherever it is held, without looking at settings; in each engine in its own
way, if it is not shown. -/
theorem Veiled.amend (h : e.Veiled K H L e') (id : Nat) {f f' : Rule → Rule}
    (hf : ∀ r r' : Rule, r'.bare K = r.bare K → (f' r').bare K = (f r).bare K)
    (hshown : f' = f ∨ e.Unshown H id) : (e.amend id f).Veiled K H L (e'.amend id f') := by
  have hregistry := h.registry.amend id hf (hshown.imp_right Unshown.registered)
  refine ⟨h.rest, hregistry.mono fun t ht => ?_, ?_, fun c => ?_, ?_, fun b => ?_⟩
  · refine ht.of_same (List.length_map ..).ge fun c _ => ?_
    rw [configuration_amend]
  · exact (List.length_map ..).trans (h.length.trans (List.length_map ..).symm)
  · rw [configuration_amend, configuration_amend]
    have hcfg := h.configuration c
    exact ⟨hcfg.bare, hcfg.changed, fun hloose hhidden =>
      have hsame := hcfg.settings hloose hhidden
      ⟨hsame.type, hsame.culture, hsame.resource, hsame.fallback, hsame.conventionalKeys,
        hsame.settingsChanged⟩⟩
  · exact (List.length_map ..).trans (h.size.trans (List.length_map ..).symm)
  · rw [builder_amend, builder_amend]
    have hbuilder := h.builder b
    obtain ⟨howner, hmember, hforEach, hrules, hguard⟩ := Builder.mk.inj hbuilder.bare
    constructor
    · unfold Builder.bare
      rw [Registry.map_amend_bare hf hrules, howner, hmember, hforEach, hguard]
    · intro hvisible
      rw [hbuilder.held hvisible]
      rcases hshown with rfl | hapart
      · rfl
      · rw [Registry.map_amend_of_ne (hapart.held b hvisible),
          Registry.map_amend_of_ne (hapart.held b hvisible)]

theorem Veiled.newConfiguration (h : e.Veiled K H L e') {cfg cfg' : Configuration}
    (hcfg : cfg.Veiled K (e.configurations.length ∈ H) (e.configurations.length ∈ L) cfg') :
    { e with configurations := e.configurations ++ [cfg] }.Veiled K H L
      { e' with configurations := e'.configurations ++ [cfg'] } := by
  refine ⟨h.rest, h.registry.mono fun t ht => ?_, ?_, fun c => ?_, h.size, h.builder⟩
  · refine ht.of_same ?_ fun c hc => ?_
    · simp
    · rw [configuration_newConfiguration, if_pos hc]
  · simp [h.length]
  · rw [configuration_newConfiguration, configuration_newConfiguration, h.length]
    split
    · exact h.configuration c
    · split
      · rename_i hc
        rw [hc]
        exact hcfg
      · exact ⟨rfl, fun _ => rfl, fun _ _ => .refl _⟩

theorem Veiled.newBuilder (h : e.Veiled K H L e') (x : Builder) (named : List (String × Nat)) :
    { e with builders := e.builders ++ [x], named }.Veiled K H L
      { e' with builders := e'.builders ++ [x], named } := by
  refine ⟨?_, h.registry, h.length, h.configuration, ?_, fun b => ?_⟩
  · exact congrArg (fun e : Engine => { e with named }) h.rest
  · simp [h.size]
  · rw [builder_newBuilder, builder_newBuilder, h.size]
    split
    · exact h.builder b
    · split <;> exact ⟨rfl, fun _ => rfl⟩

end Engine

/-! ## 4. What steps may look at -/

open Engine

namespace Action

variable {α : Type} {H L : Set Nat} {b c : Nat}

/-- A step that neither looks at the work nor changes it. -/
theorem aside_veiled {x : Action α}
    (hx : ∀ e, x e = ((x e.rest).1, (x e.rest).2.holding e.work)) : Respects (Veiled K H L) x := by
  intro e e' h
  rw [hx e, hx e', h.rest]
  exact ⟨rfl, rfl, h.registry, h.length, h.configuration, h.size, h.builder⟩

/-- A step that reads a configuration, but not its settings. -/
theorem configuration_veiled {f : Configuration → Action α} (hf : ∀ cfg, f (cfg.bare K) = f cfg)
    (h : ∀ cfg, Respects (Veiled K H L) (f cfg)) :
    Respects (Veiled K H L) (configuration c >>= f) := by
  intro e e' he
  rw [configuration_bind, configuration_bind, Configuration.read_eq hf (he.configuration c).bare]
  exact h _ e e' he

/-- A step that reads a builder, but not the settings of its rules. -/
theorem builder_veiled {f : Builder → Action α} (hf : ∀ x, f (x.bare K) = f x)
    (h : ∀ x, Respects (Veiled K H L) (f x)) : Respects (Veiled K H L) (builder b >>= f) := by
  intro e e' he
  have hread : ∀ e : Engine, (builder b >>= f) e = f (e.builder b) e := fun e => bind_ok rfl
  rw [hread, hread, Builder.read_eq hf (he.builder b).bare]
  exact h _ e e' he

/-- A step that looks at what is not hidden. -/
theorem look_veiled {f : Engine → Action α} (hf : ∀ e e', Veiled K H L e e' → f e' = f e)
    (h : ∀ e, Respects (Veiled K H L) (f e)) : Respects (Veiled K H L) (get >>= f) :=
  .get_bind fun e e' he => by
    rw [hf e e' he]
    exact h e e e' he

end Action
end MemberRules
