/-
# Rules keep to their places and their keys

A registry is a table: for each type the members, each once, and for each member its rules, each
under a key of its own.  A rule stands with its own member.  Declared rules have a check and are the
only rules with a check whose keys are named after their place, so no rule that is made while rules
are configured can ever take the place of a declared one, except a copy of it.

Nothing that is done to configure rules changes this, whether it ends well or not.

* `Registry.Keyed`, `Engine.Keyed`: what is kept.
* `runTypeSteps_keyed`, `runBuilderSteps_keyed`: blocks of steps keep it.
* `Action.configure_keyed`, `Action.buildAll_keyed`: so do starting and completing configurations.
-/
import MemberRules.Proofs.Configuration.Aside
import MemberRules.Proofs.Registry.Representation

namespace MemberRules

open MemberRules.Computation

/-! ## 1. Rules and their places -/

namespace Rule

/-- What a rule is to the registry: whose it is, its key, where it comes from and what it checks. -/
abbrev Place := MemberRef × UniqueKey × RuleSource × Option Attribute

def place (r : Rule) : Place := (r.member, r.uniqueKey, r.source, r.validator)

/-- A declared rule has a check, and a key that is named after its place. -/
def WellKeyed (r : Rule) : Prop :=
  r.source = .declared → r.hasCheck = true ∧ ∃ s, r.uniqueKey = .named s

/-- A rule that is not declared and has a key that no declared rule has. -/
def IsNew (r : Rule) : Prop := r.source ≠ .declared ∧ ∀ s, r.uniqueKey ≠ .named s

variable {r r' : Rule}

theorem IsNew.wellKeyed (h : r.IsNew) : r.WellKeyed := fun hdeclared => absurd hdeclared h.1

theorem member_of_place (h : r'.place = r.place) : r'.member = r.member := congrArg Prod.fst h

theorem uniqueKey_of_place (h : r'.place = r.place) : r'.uniqueKey = r.uniqueKey :=
  congrArg (fun p => p.2.1) h

theorem source_of_place (h : r'.place = r.place) : r'.source = r.source :=
  congrArg (fun p => p.2.2.1) h

theorem validator_of_place (h : r'.place = r.place) : r'.validator = r.validator :=
  congrArg (fun p => p.2.2.2) h

theorem WellKeyed.of_place (h : r.WellKeyed) (hplace : r'.place = r.place) : r'.WellKeyed := by
  unfold WellKeyed hasCheck
  rw [source_of_place hplace, validator_of_place hplace, uniqueKey_of_place hplace]
  exact h

theorem IsNew.of_place (h : r.IsNew) (hplace : r'.place = r.place) : r'.IsNew := by
  unfold IsNew
  rw [source_of_place hplace, uniqueKey_of_place hplace]
  exact h

end Rule

/-! ## 2. Registries -/

namespace Registry

variable {reg : Registry} {t u : TypeId} {k : MemberKey}

theorem allGroups_amend (id : Nat) (f : Rule → Rule) : (reg.amend id f).allGroups t =
    (reg.allGroups t).map fun g =>
      { g with rules := g.rules.map fun r => if r.id == id then f r else r } := by
  unfold amend allGroups
  rw [lookup_map_entry]
  cases reg.groups.lookup t <;> rfl

theorem rulesOfMember_amend (id : Nat) (f : Rule → Rule) : (reg.amend id f).rulesOfMember t k =
    (reg.rulesOfMember t k).map fun r => if r.id == id then f r else r := by
  show rulesAt k ((reg.amend id f).allGroups t) = (rulesAt k (reg.allGroups t)).map _
  rw [allGroups_amend]
  induction reg.allGroups t with
  | nil => rfl
  | cons g gs ih =>
    rw [List.map_cons, rulesAt_cons, rulesAt_cons, ih]
    split <;> rfl

/-- A registry with each member of a type once, the rules of a member under different keys, each
rule with its member, and declared rules under keys named after their places. -/
structure Keyed (reg : Registry) : Prop where
  members : ∀ t, ((reg.allGroups t).map fun g => g.member.key).Nodup
  unique : ∀ t k, ((reg.rulesOfMember t k).map Rule.uniqueKey).Nodup
  home : ∀ t k, ∀ r ∈ reg.rulesOfMember t k, r.member.key = k
  wellKeyed : ∀ t k, ∀ r ∈ reg.rulesOfMember t k, r.WellKeyed

theorem keyed_empty : Keyed {} where
  members _ := List.nodup_nil
  unique _ _ := List.nodup_nil
  home _ _ _ h := by cases h
  wellKeyed _ _ _ h := by cases h

theorem Keyed.inOrder (h : reg.Keyed) : reg.InOrder := ⟨h.members, h.unique, h.home⟩

theorem InOrder.keyed (h : reg.InOrder) (hkeyed : ∀ t k, ∀ r ∈ reg.rulesOfMember t k, r.WellKeyed) :
    reg.Keyed := ⟨h.members, h.unique, h.home, hkeyed⟩

/-- A rule of a type stands with its member. -/
theorem Keyed.mem_rulesOfMember (h : reg.Keyed) {r : Rule} (hr : r ∈ reg.rulesOf t) :
    r ∈ reg.rulesOfMember t r.member.key := h.inOrder.mem_rulesOfMember hr

theorem Keyed.add (h : reg.Keyed) {r : Rule} (hr : r.WellKeyed) (u : TypeId) :
    (reg.add u r).Keyed := by
  refine (h.inOrder.add r).keyed fun t k x hx => ?_
  rcases h.inOrder.mem_add hx with ⟨rfl, -⟩ | hx
  · exact hr
  · exact h.wellKeyed t k x hx

theorem Keyed.addAll (h : reg.Keyed) {rs : List Rule} (hrs : ∀ r ∈ rs, r.WellKeyed) (u : TypeId) :
    (reg.addAll u rs).Keyed := by
  induction rs generalizing reg with
  | nil => exact h
  | cons r rs ih =>
    obtain ⟨hr, hrest⟩ := List.forall_mem_cons.mp hrs
    exact ih (h.add hr u) hrest

theorem Keyed.mark (h : reg.Keyed) (u : TypeId) (built : Bool) : (reg.mark u built).Keyed :=
  ⟨h.members, h.unique, h.home, h.wellKeyed⟩

theorem Keyed.removeWhere (h : reg.Keyed) (u : TypeId) (member : Option MemberKey)
    (doomed : Rule → Bool) : (reg.removeWhere u member doomed).Keyed :=
  (h.inOrder.removeWhere member doomed).keyed fun t k r hr =>
    h.wellKeyed t k r ((rulesOfMember_removeWhere member doomed).subset hr)

/-- A change of a rule that leaves it its place. -/
theorem Keyed.amend (h : reg.Keyed) {f : Rule → Rule} (hf : ∀ r, (f r).place = r.place) (id : Nat) :
    (reg.amend id f).Keyed := by
  have hplace : ∀ r : Rule, (if r.id == id then f r else r).place = r.place := fun r => by
    split
    · exact hf r
    · rfl
  have hmem : ∀ t k, ∀ x ∈ (reg.amend id f).rulesOfMember t k,
      ∃ r ∈ reg.rulesOfMember t k, x.place = r.place := by
    intro t k x hx
    rw [rulesOfMember_amend] at hx
    obtain ⟨r, hr, rfl⟩ := List.mem_map.mp hx
    exact ⟨r, hr, hplace r⟩
  refine ⟨fun t => ?_, fun t k => ?_, fun t k x hx => ?_, fun t k x hx => ?_⟩
  · rw [allGroups_amend, List.map_map]
    exact h.members t
  · have hkeys : ((reg.amend id f).rulesOfMember t k).map Rule.uniqueKey =
        (reg.rulesOfMember t k).map Rule.uniqueKey := by
      rw [rulesOfMember_amend, List.map_map]
      exact List.map_congr_left fun r _ => Rule.uniqueKey_of_place (hplace r)
    exact hkeys ▸ h.unique t k
  · obtain ⟨r, hr, heq⟩ := hmem t k x hx
    rw [Rule.member_of_place heq]
    exact h.home t k r hr
  · obtain ⟨r, hr, heq⟩ := hmem t k x hx
    exact (h.wellKeyed t k r hr).of_place heq

end Registry

/-! ## 3. Engines -/

namespace Engine

/-- An engine with a keyed registry, whose builders hold new rules. -/
structure Keyed (e : Engine) : Prop where
  registry : e.registry.Keyed
  builders : ∀ b, ∀ r ∈ (e.builder b).rules, r.IsNew

variable {e e' : Engine}

theorem Keyed.of_eq (h : e.Keyed) (hregistry : e'.registry = e.registry)
    (hbuilders : e'.builders = e.builders) : e'.Keyed := by
  refine ⟨hregistry ▸ h.registry, fun b r hr => h.builders b r ?_⟩
  rw [builder, hbuilders] at hr
  exact hr

instance : Stable Keyed where
  of_sameWork hsame he := he.of_eq hsame.registry hsame.builders

theorem Keyed.updateBuilder (h : e.Keyed) {f : Builder → Builder}
    (hf : ∀ x, (∀ r ∈ x.rules, r.IsNew) → ∀ r ∈ (f x).rules, r.IsNew) (b : Nat) :
    (e.updateBuilder b f).Keyed := by
  refine ⟨h.registry, fun b' r hr => ?_⟩
  rw [builder_updateBuilder] at hr
  split at hr
  · exact hf _ (h.builders b') r hr
  · exact h.builders b' r hr

theorem Keyed.newBuilder (h : e.Keyed) {x : Builder} (hx : x.rules = [])
    (named : List (String × Nat)) : { e with builders := e.builders ++ [x], named }.Keyed := by
  refine ⟨h.registry, fun b r hr => ?_⟩
  rw [builder_newBuilder] at hr
  split at hr
  · exact h.builders b r hr
  · split at hr
    · rw [hx] at hr
      cases hr
    · cases hr

/-- A change of a rule that leaves it its place. -/
theorem Keyed.amend (h : e.Keyed) {f : Rule → Rule} (hf : ∀ r, (f r).place = r.place) (id : Nat) :
    (e.amend id f).Keyed := by
  refine ⟨h.registry.amend hf id, fun b r hr => ?_⟩
  rw [builder_amend] at hr
  obtain ⟨x, hx, rfl⟩ := List.mem_map.mp hr
  split
  · exact (h.builders b x hx).of_place (hf x)
  · exact h.builders b x hx

end Engine

namespace Action

variable {α β : Type} {P : α → Prop} {c b : Nat}

/-- A step that changes neither the registry nor the builders. -/
theorem aside_keyed {x : Action α}
    (h : ∀ e, (x e).2.registry = e.registry ∧ (x e).2.builders = e.builders) :
    Keeps Engine.Keyed x := fun e he =>
  ⟨he.of_eq (h e).1 (h e).2, fun _ _ => trivial⟩

theorem updateRegistry_keyed {f : Registry → Registry} (hf : ∀ reg, reg.Keyed → (f reg).Keyed) :
    Keeps Engine.Keyed (updateRegistry f) :=
  .change fun _ he => ⟨hf _ he.registry, he.builders⟩

theorem updateConfiguration_keyed (c : Nat) (f : Configuration → Configuration) :
    Keeps Engine.Keyed (updateConfiguration c f) := aside_keyed fun _ => ⟨rfl, rfl⟩

theorem updateBuilder_keyed (b : Nat) {f : Builder → Builder}
    (hf : ∀ x, (∀ r ∈ x.rules, r.IsNew) → ∀ r ∈ (f x).rules, r.IsNew) :
    Keeps Engine.Keyed (modify (Engine.updateBuilder b f) : Action Unit) :=
  .change fun _ he => he.updateBuilder hf b

theorem amend_keyed (id : Nat) {f : Rule → Rule} (hf : ∀ r, (f r).place = r.place) :
    Keeps Engine.Keyed (modify (Engine.amend id f) : Action Unit) :=
  .change fun _ he => he.amend hf id

end Action

/-! ## 4. Declared rules -/

theorem MemberInfo.wellKeyed_of_mem {s : Schema} {t : TypeId} {m : MemberInfo} {rs : List Rule}
    (h : m.declaredRules s t = .ok rs) : ∀ r ∈ rs, r.WellKeyed := by
  intro r hr
  unfold MemberInfo.declaredRules at h
  split at h
  · cases h
    split at hr
    · obtain rfl := List.mem_singleton.mp hr
      exact fun hdeclared => by cases hdeclared
    · cases hr
  · obtain ⟨⟨a, ordinal⟩, -, hmade⟩ := exists_of_mem_mapM h hr
    dsimp only at hmade
    cases hresolved : a.check.requireResolvable s t with
    | error f =>
      rw [hresolved] at hmade
      cases hmade
    | ok _ =>
      rw [hresolved] at hmade
      cases hmade
      exact fun _ => ⟨rfl, _, rfl⟩

/-- **Declared rules have a check, and keys named after their places.** -/
theorem Schema.wellKeyed_of_declared {s : Schema} {t : TypeId} {ms : List MemberInfo}
    {rs : List Rule} (h : s.declaredRules t ms = .ok rs) : ∀ r ∈ rs, r.WellKeyed := by
  intro r hr
  obtain ⟨rss, hmade, rfl⟩ := except_map_eq_ok.mp h
  obtain ⟨rs, hrs, hr⟩ := List.mem_flatten.mp hr
  obtain ⟨m, -, hm⟩ := exists_of_mem_mapM hmade hrs
  exact MemberInfo.wellKeyed_of_mem hm r hr

namespace Action

variable {α β : Type} {P : α → Prop} {c b : Nat}

theorem numbered_keyed {rs : List Rule} (hrs : ∀ r ∈ rs, r.WellKeyed) :
    Keeps Engine.Keyed (numbered rs) fun rs => ∀ r ∈ rs, r.WellKeyed := by
  refine .get_bind fun e he => ?_
  refine Keeps.andThen (aside_keeps fun _ => ⟨rfl, rfl, rfl⟩) (fun _ => .pure fun r hr => ?_) e he
  obtain ⟨⟨x, id⟩, hx, rfl⟩ := List.mem_map.mp hr
  exact (hrs x (List.fst_mem_of_mem_zipIdx hx)).of_place rfl

theorem declaredRules_keyed (t : TypeId) :
    Keeps Engine.Keyed (declaredRules t) fun rs => ∀ r ∈ rs, r.WellKeyed :=
  .andThen (members_keeps t) fun _ => .andThen schema_keeps fun _ => .bind (.lift _) fun _ hrs =>
    .bind (numbered_keyed (Schema.wellKeyed_of_declared hrs)) fun _ hrs =>
      .andThen (note_keeps _ _ _) fun _ => .pure hrs

theorem noteAdded_keyed (t : TypeId) (count : Nat) (built : Bool) :
    Keeps Engine.Keyed (noteAdded t count built) := by
  cases built
  · exact note_keeps _ _ _
  · exact .andThen (updateRegistry_keyed fun _ h => h.mark t true) fun _ => note_keeps _ _ _

theorem addRules_keyed (t : TypeId) {rs : List Rule} (hrs : ∀ r ∈ rs, r.WellKeyed) (built : Bool) :
    Keeps Engine.Keyed (addRules t rs built) :=
  .andThen (updateRegistry_keyed fun _ h => h.addAll hrs t) fun _ => noteAdded_keyed t _ built

theorem removeRules_keyed (t : TypeId) (member : Option MemberRef) (doomed : Rule → Bool) :
    Keeps Engine.Keyed (removeRules t member doomed) :=
  removeRules_keeps_of (updateRegistry_keyed fun _ h => h.removeWhere t _ doomed)

theorem ensureWithin_keyed (n : Nat) (t : TypeId) : Keeps Engine.Keyed (ensureWithin n t) := by
  refine ensureWithin_keeps_of (fun he hrun _ _ he' => ?_) n t
  have hrs := (declaredRules_keyed _ _ he).2 _ (congrArg Prod.fst hrun)
  exact (addRules_keyed _ hrs true _ he').1

theorem ensure_keyed (t : TypeId) : Keeps Engine.Keyed (ensure t) :=
  .andThen schema_keeps fun _ => ensureWithin_keyed _ t

/-! ## 5. Parts of a configuration -/

theorem updateCurrent_keyed (c : Nat) (f : PendingRule → PendingRule) :
    Keeps Engine.Keyed (updateCurrent c f) := updateConfiguration_keyed c _

theorem start_keyed (c : Nat) (p : PendingRule) : Keeps Engine.Keyed (start c p) :=
  updateConfiguration_keyed c _

theorem touch_keyed (c : Nat) : Keeps Engine.Keyed (touch c) :=
  .andThen (configuration_keeps c) fun cfg => updateRegistry_keyed fun _ h => h.mark cfg.type false

theorem commit_keyed (c : Nat) : Keeps Engine.Keyed (commit c) :=
  commit_keeps (updateConfiguration_keyed c _) fun _ => updateConfiguration_keyed c _

theorem begin_keyed (c : Nat) (sel : Selector) : Keeps Engine.Keyed (begin c sel) :=
  .andThen (commit_keyed c) fun _ => .andThen (touch_keyed c) fun _ =>
    .andThen (configuration_keeps c) fun _ => select_keeps _ sel

/-- A rule that is made for a check is new. -/
theorem newRule_keyed (t : TypeId) (m : MemberRef) (a : Attribute) (forEach : Bool) :
    Keeps Engine.Keyed (newRule t m a forEach) Rule.IsNew :=
  .andThen (displayName_keeps t m.name) fun _ => .andThen freshId_keeps fun _ =>
    .pure ⟨by simp, by simp⟩

/-- A rule that carries something is new. -/
theorem newCarrier_keyed (t : TypeId) (m : MemberRef) (kind : String) :
    Keeps Engine.Keyed (newCarrier t m kind) Rule.IsNew :=
  .andThen freshId_keeps fun _ => .pure ⟨by simp, by simp⟩

theorem copied_keyed (r : Rule) : Keeps Engine.Keyed (copied r) fun r' => r'.place = r.place :=
  .andThen freshId_keeps fun _ => .pure rfl

theorem provide_keyed (c : Nat) (m : MemberRef) (v : Expr) :
    Keeps Engine.Keyed (provide c m v) := provide_keeps (updateConfiguration_keyed c _)

/-! ## 6. Starting a configuration -/

theorem newConfiguration_keyed (t : TypeId) : Keeps Engine.Keyed (newConfiguration t) := by
  refine .andThen (ensure_keyed t) fun _ => .get_bind fun e he => ?_
  exact Keeps.andThen (aside_keyed fun _ => ⟨rfl, rfl⟩) (fun _ => .pure trivial) e he

theorem newChild_keyed (c : Nat) (t : TypeId) : Keeps Engine.Keyed (newChild c t) :=
  .andThen (newConfiguration_keyed t) fun child => .andThen (configuration_keeps c) fun _ =>
    .andThen (updateConfiguration_keyed child _) fun _ => .pure trivial

/-- **Starting a configuration keeps rules under their keys.** -/
theorem configure_keyed (t : TypeId) : Keeps Engine.Keyed (configure t) :=
  configure_keeps_of (newConfiguration_keyed t) fun _ => aside_keeps fun _ => ⟨rfl, rfl, rfl⟩

/-! ## 7. Steps on a type -/

theorem attach_keyed (c : Nat) (a : Attribute) : Keeps Engine.Keyed (attach c a) :=
  .andThen (requireCurrent_keeps c _) fun _ => updateCurrent_keyed c _

theorem checkStep_keyed (c : Nat) (step : CheckStep) : Keeps Engine.Keyed (checkStep c step) :=
  checkStep_keeps (updateCurrent_keyed c) (provide_keyed c) step

theorem drop_keyed (c : Nat) (m : MemberRef) : Keeps Engine.Keyed (drop c m) :=
  .andThen (configuration_keeps c) fun _ => .andThen (removeRules_keyed _ _ _) fun _ =>
    updateConfiguration_keyed c _

/-- A member is selected, and with `replace` its rules are dropped, before a step is about it. -/
theorem beginWith_keyed (c : Nat) (sel : Selector) (replace : Bool) {f : MemberRef → Action Unit}
    (hf : ∀ m, Keeps Engine.Keyed (f m)) : Keeps Engine.Keyed (do
      let m ← begin c sel
      if replace then drop c m
      f m) := by
  refine .andThen (begin_keyed c sel) fun m => ?_
  cases replace with
  | true => exact .andThen (drop_keyed c m) fun _ => hf m
  | false => exact hf m

theorem startRule_keyed (c : Nat) (sel : Selector) (must : Option Expr)
    (message : Option MessageSource) (replace : Bool) :
    Keeps Engine.Keyed (startRule c sel must message replace) := by
  rw [startRule_eq]
  exact beginWith_keyed c sel replace fun m => .andThen (start_keyed c _) fun _ =>
    furnish_keeps (attach_keyed c) (checkStep_keyed c) must message

theorem newBuilder_keyed (c : Nat) (sel : Selector) (forEach : Bool) (name : Option String) :
    Keeps Engine.Keyed (newBuilder c sel forEach name) := by
  refine .andThen (begin_keyed c sel) fun m => .get_bind fun e he => ?_
  exact Keeps.andThen (.change fun _ he => he.newBuilder rfl _) (fun _ =>
    .andThen (updateConfiguration_keyed c _) fun _ => .pure trivial) e he

theorem startGated_keyed (c : Nat) (sel : Option Selector) :
    Keeps Engine.Keyed (startGated c sel) :=
  startGated_keeps (updateCurrent_keyed c _) (touch_keyed c) fun _ =>
    .andThen (commit_keyed c) fun _ => start_keyed c _

theorem exclude_keyed (c : Nat) (sel : Selector) : Keeps Engine.Keyed (exclude c sel) := by
  refine .andThen (begin_keyed c sel) fun m => .andThen (drop_keyed c m) fun _ =>
    .get_bind fun e he => ?_
  exact Keeps.andThen (updateConfiguration_keyed c _) (fun _ => start_keyed c _) e he

theorem always_keyed (c : Nat) (sel : Selector) : Keeps Engine.Keyed (always c sel) :=
  .andThen (begin_keyed c sel) fun _ => start_keyed c _

theorem dropMember_keyed (c : Nat) (sel : Selector) (kind : Option String) :
    Keeps Engine.Keyed (dropMember c sel kind) := by
  refine .andThen (begin_keyed c sel) fun m => .andThen (touch_keyed c) fun _ =>
    .andThen (configuration_keeps c) fun cfg => .andThen (removeRules_keyed _ _ _) fun _ =>
    .andThen (updateConfiguration_keyed c _) fun _ => .forM fun b _ =>
      updateBuilder_keyed b fun x hx r hr => ?_
  split at hr
  · exact hx r ((List.mem_filter.mp hr).1)
  · exact hx r hr

theorem keepOnly_keyed (c : Nat) (sel : Selector) : Keeps Engine.Keyed (keepOnly c sel) := by
  refine .andThen (begin_keyed c sel) fun m => .andThen (touch_keyed c) fun _ =>
    .andThen (configuration_keeps c) fun _ => .andThen (removeRules_keyed _ _ _) fun _ =>
    .get_bind fun e he => ?_
  exact updateConfiguration_keyed c _ e he

theorem clear_keyed (c : Nat) : Keeps Engine.Keyed (clear c) :=
  .andThen (commit_keyed c) fun _ => .andThen (touch_keyed c) fun _ =>
    .andThen (configuration_keeps c) fun _ => .andThen (removeRules_keyed _ _ _) fun _ =>
    updateConfiguration_keyed c _

/-! ## 8. Building -/

/-- What is gathered for a member are new rules and copies of declared ones. -/
theorem pendingRules_keyed (cfg : Configuration) (p : PendingRule) :
    Keeps Engine.Keyed (pendingRules cfg p) fun rs => ∀ r ∈ rs, r.WellKeyed := by
  unfold pendingRules
  split
  · refine .get_bind fun e he => ?_
    have hcopied : ∀ r ∈ ((e.registry.rulesOfMember cfg.type p.member.key).filter
        fun r => r.source == .declared).map (declaredWith cfg p),
        Keeps Engine.Keyed (copied r) Rule.WellKeyed := by
      intro r hr
      obtain ⟨x, hx, rfl⟩ := List.mem_map.mp hr
      have hkeyed := he.registry.wellKeyed _ _ x (List.mem_filter.mp hx).1
      exact (copied_keyed _).mono fun _ hplace => hkeyed.of_place hplace
    refine Keeps.bind (.mapM hcopied) (fun updated hupdated =>
      .bind (newCarrier_keyed _ _ _) fun carrier hcarrier => .pure fun r hr => ?_) e he
    rcases List.mem_append.mp hr with hr | hr
    · exact hupdated r hr
    · obtain rfl := List.mem_singleton.mp hr
      exact (hcarrier.of_place rfl).wellKeyed
  · refine .mapM fun k _ => .bind (newRule_keyed _ _ _ _) fun r hr => .pure ?_
    exact (hr.of_place rfl).wellKeyed

theorem recompleted_keyed (cfg : Configuration) :
    Keeps Engine.Keyed (recompleted cfg) fun rs => ∀ r ∈ rs, r.WellKeyed := by
  refine .get_bind fun e he => ?_
  refine Keeps.mapM (fun r hr => ?_) e he
  obtain ⟨x, hx, rfl⟩ := List.mem_map.mp hr
  have hthere := he.registry.mem_rulesOfMember (List.mem_filter.mp hx).1
  exact (copied_keyed _).mono fun _ hplace =>
    (he.registry.wellKeyed _ _ x hthere).of_place hplace

theorem mem_builder_of_mem_buildersOf {e : Engine} {cfg : Configuration} {x : Nat × Builder}
    (h : x ∈ e.buildersOf cfg) : x.2 = e.builder x.1 := by
  obtain ⟨b, -, hb⟩ := List.mem_filterMap.mp h
  obtain ⟨builder, hbuilder, rfl⟩ := Option.map_eq_some_iff.mp hb
  rw [Engine.builder, hbuilder, Option.getD_some]

theorem builderRules_keyed (cfg : Configuration) :
    Keeps Engine.Keyed (builderRules cfg) fun rs => ∀ r ∈ rs, r.IsNew := by
  refine .get_bind fun e he => ?_
  refine Keeps.andThen (.forM fun r _ => amend_keyed r.id (f := cfg.complete) fun _ => rfl)
    (fun _ => .pure fun r hr => ?_) e he
  obtain ⟨x, hx, rfl⟩ := List.mem_map.mp hr
  obtain ⟨b, hb, hx⟩ := List.mem_flatMap.mp hx
  rw [mem_builder_of_mem_buildersOf hb] at hx
  exact (he.builders b.1 x hx).of_place rfl

theorem providerRule_keyed (cfg : Configuration) (p : MemberRef × Expr) :
    Keeps Engine.Keyed (providerRule cfg p) Rule.IsNew :=
  .bind (newCarrier_keyed _ _ _) fun _ hr => .pure (hr.of_place rfl)

theorem gatherAfter_keyed (cfg : Configuration) {again : List Rule}
    (hagain : ∀ r ∈ again, r.WellKeyed) :
    Keeps Engine.Keyed (gatherAfter cfg again) fun rs => ∀ r ∈ rs, r.WellKeyed := by
  refine .bind (.mapM fun p _ => pendingRules_keyed cfg p) fun gathered hgathered =>
    .bind (builderRules_keyed cfg) fun built hbuilt =>
    .bind (.mapM fun p _ => providerRule_keyed cfg p) fun providers hproviders =>
    .pure fun r hr => ?_
  rcases List.mem_append.mp hr with hr | hr
  · rcases List.mem_append.mp hr with hr | hr
    · rcases List.mem_append.mp hr with hr | hr
      · exact hagain r hr
      · obtain ⟨rs, hrs, hr⟩ := List.mem_flatten.mp hr
        exact hgathered rs hrs r hr
    · exact (hbuilt r hr).wellKeyed
  · exact (hproviders r hr).wellKeyed

theorem gather_keyed (cfg : Configuration) :
    Keeps Engine.Keyed (gather cfg) fun rs => ∀ r ∈ rs, r.WellKeyed := by
  rw [gather_eq]
  cases cfg.isIdle with
  | true => exact .pure fun r hr => absurd hr List.not_mem_nil
  | false =>
    cases cfg.settingsChanged with
    | true => exact .bind (recompleted_keyed cfg) fun again hagain => gatherAfter_keyed cfg hagain
    | false => exact gatherAfter_keyed cfg fun r hr => absurd hr List.not_mem_nil

theorem finish_keyed (c : Nat) (cfg : Configuration) {rs : List Rule}
    (hrs : ∀ r ∈ rs, r.WellKeyed) : Keeps Engine.Keyed (finish c cfg rs) :=
  .andThen (addRules_keyed _ hrs true) fun _ => .andThen (note_keeps _ _ _) fun _ =>
    .andThen (updateConfiguration_keyed c _) fun _ => .pure trivial

/-- **Building keeps rules under their keys.** -/
theorem build_keyed (c : Nat) : Keeps Engine.Keyed (build c) := by
  rw [build_eq]
  refine .andThen (commit_keyed c) fun _ => .andThen (configuration_keeps c) fun cfg => ?_
  cases cfg.isIdle with
  | true => exact .andThen (updateRegistry_keyed fun _ h => h.mark _ _) fun _ => .pure trivial
  | false => exact .bind (gather_keyed cfg) fun rs hrs => finish_keyed c cfg hrs

/-- **So does building all types.** -/
theorem buildAll_keyed : Keeps Engine.Keyed buildAll := by
  refine .get_bind fun e he => ?_
  exact Keeps.forM (fun x _ => .andThen (build_keyed x.2) fun _ => .pure trivial) e he

/-! ## 9. Steps of a builder -/

theorem attachTo_keyed (b : Nat) (a : Attribute) : Keeps Engine.Keyed (attachTo b a) := by
  refine .andThen (builder_keeps b) fun x => .andThen (builderType_keeps b) fun t =>
    .bind (newRule_keyed t _ a _) fun r hr => updateBuilder_keyed b fun x hx r' hr' => ?_
  rcases List.mem_append.mp hr' with hr' | hr'
  · exact hx r' hr'
  · obtain rfl := List.mem_singleton.mp hr'
    exact hr

theorem builderCheckStep_keyed (b : Nat) (step : CheckStep) :
    Keeps Engine.Keyed (builderCheckStep b step) :=
  builderCheckStep_keeps (attachTo_keyed b)
    (fun id _ hf => amend_keyed id fun r => (congrArg Rule.place (hf r)).trans rfl)
    provide_keyed step

theorem block_keyed (b : Nat) {steps : Action Unit} (hsteps : Keeps Engine.Keyed steps) :
    Keeps Engine.Keyed (block b steps) :=
  .andThen (builder_keeps b) fun _ => .andThen hsteps fun _ => .andThen (builder_keeps b) fun _ =>
    .pure trivial

theorem guardRules_keyed (g : Guard) (rs : List Rule) : Keeps Engine.Keyed (guardRules g rs) :=
  .forM fun r _ => amend_keyed r.id fun _ => rfl

theorem setLastGuard_keyed (b : Nat) (g : Option Guard) : Keeps Engine.Keyed
    (modify (Engine.updateBuilder b fun x => { x with lastGuard := g }) : Action Unit) :=
  updateBuilder_keyed b fun _ hx => hx

theorem whenBlock_keyed (b : Nat) (g : Guard) {steps : Action Unit}
    (hsteps : Keeps Engine.Keyed steps) : Keeps Engine.Keyed (whenBlock b g steps) := by
  refine .andThen (block_keyed b hsteps) fun added => ?_
  have hlast := Keeps.andThen (guardRules_keyed g added) fun _ => setLastGuard_keyed b (some g)
  cases added.isEmpty with
  | true =>
    exact .andThen (builder_keeps b) fun _ =>
      .andThen (refuse_keeps _) fun _ => hlast
  | false => exact hlast

theorem otherwise_keyed (b : Nat) {steps : Action Unit} (hsteps : Keeps Engine.Keyed steps) :
    Keeps Engine.Keyed (otherwise b steps) := by
  refine .andThen (builder_keeps b) fun x => ?_
  cases x.lastGuard with
  | none => exact refuse_keeps _
  | some g =>
    exact .andThen (block_keyed b hsteps) fun added =>
      .andThen (guardRules_keyed g.negate added) fun _ => setLastGuard_keyed b none

theorem childRules_keyed (b : Nat) (element : Option TypeId) {steps : Nat → Action Unit}
    (hsteps : ∀ child, Keeps Engine.Keyed (steps child)) :
    Keeps Engine.Keyed (childRules b element steps) :=
  .andThen (nestedType_keeps b element) fun t => .andThen (builder_keeps b) fun x =>
    .andThen (newChild_keyed x.owner t) fun child => .andThen (hsteps child) fun _ =>
      .andThen (build_keyed child) fun _ => attachTo_keyed b _

/-- A step that goes on with the configuration it is about. -/
theorem goesOn_keyed {x : Action Unit} (h : Keeps Engine.Keyed x) (c : Nat) :
    Keeps Engine.Keyed (do x; return c) :=
  .andThen h fun _ => .pure trivial

end Action

/-! ## 10. Blocks of steps -/

open Action

mutual

/-- A step on a type keeps rules under their keys. -/
theorem TypeStep.run_keyed (step : TypeStep) (c : Nat) :
    Action.Keeps Engine.Keyed (step.run c) := by
  match step with
  | .check step => exact goesOn_keyed (checkStep_keyed c step) c
  | .rule sel must message replace =>
    exact goesOn_keyed (startRule_keyed c sel must message replace) c
  | .builder sel forEach name steps =>
    exact .andThen (newBuilder_keyed c sel forEach name) fun b =>
      goesOn_keyed (runBuilderSteps_keyed steps b) c
  | .gate sel g =>
    exact .andThen (startGated_keyed c sel) fun _ => goesOn_keyed (updateCurrent_keyed c _) c
  | .exclude sel => exact goesOn_keyed (exclude_keyed c sel) c
  | .always sel => exact goesOn_keyed (always_keyed c sel) c
  | .resource name => exact goesOn_keyed (updateConfiguration_keyed c _) c
  | .culture name =>
    exact .andThen (.lift _) fun _ => goesOn_keyed (updateConfiguration_keyed c _) c
  | .fallback text => exact goesOn_keyed (updateConfiguration_keyed c _) c
  | .withoutConventionalKeys => exact goesOn_keyed (updateConfiguration_keyed c _) c
  | .enforce on => exact goesOn_keyed (updateConfiguration_keyed c _) c
  | .dropMember sel kind => exact goesOn_keyed (dropMember_keyed c sel kind) c
  | .keepOnly sel => exact goesOn_keyed (keepOnly_keyed c sel) c
  | .clear => exact goesOn_keyed (clear_keyed c) c
  | .switch t => exact .andThen (commit_keyed c) fun _ => configure_keyed t
  | .build =>
    exact .andThen (build_keyed c) fun rs => .andThen (view_keeps rs) fun _ =>
      goesOn_keyed (report_keeps _) c
  | .describe => exact .andThen (configuration_keeps c) fun _ => goesOn_keyed (report_keeps _) c

/-- **Steps on a type keep rules under their keys.** -/
theorem runTypeSteps_keyed (steps : List TypeStep) (c : Nat) :
    Action.Keeps Engine.Keyed (runTypeSteps c steps) := by
  match steps with
  | [] => exact .pure trivial
  | step :: rest => exact .andThen (step.run_keyed c) fun c' => runTypeSteps_keyed rest c'

/-- A step of a builder keeps rules under their keys. -/
theorem BuilderStep.run_keyed (step : BuilderStep) (b : Nat) :
    Action.Keeps Engine.Keyed (step.run b) := by
  match step with
  | .check step => exact builderCheckStep_keyed b step
  | .whenBlock g steps => exact whenBlock_keyed b g (runBuilderSteps_keyed steps b)
  | .otherwise steps => exact otherwise_keyed b (runBuilderSteps_keyed steps b)
  | .childRules steps element =>
    exact childRules_keyed b element fun child => runTypeSteps_keyed steps child
  | .rules =>
    exact .andThen (builder_keeps b) fun x => .andThen (view_keeps x.rules) fun _ => report_keeps _

/-- **Steps of a builder keep rules under their keys.** -/
theorem runBuilderSteps_keyed (steps : List BuilderStep) (b : Nat) :
    Action.Keeps Engine.Keyed (runBuilderSteps b steps) := by
  match steps with
  | [] => exact .pure trivial
  | step :: rest => exact .andThen (step.run_keyed b) fun _ => runBuilderSteps_keyed rest b

end
end MemberRules
