/-
# Blocks of steps for declared rules

Steps on a type that attach no check are about the declared rules of a member: they set its gate,
its message, the code of its failures and the name of a resource string.  A block of such steps is
gathered, and takes effect when the type is built.

Each of several blocks for one member is meant to set what it sets, and to leave what the others
set.  But building makes the last change for a member alone.  What the blocks before it set is lost,
unless the last one sets it again, or it makes no difference.

* `Block`, `Block.change`: a block of steps for the declared rules of a member, and what it sets.
* `runTypeSteps_blocks`: what running blocks leaves to build, and that they can be run.
* `build_blocks`: what building makes of them.
* `declared_keep_all_iff`: when all that blocks set is kept.
* `blocks_lose_gate`: two blocks of which the second one takes the gate of the first one away.
* `built_blocks_keep_all`: blocks that are built one by one keep all that they set.
-/
import MemberRules.Proofs.Configuration.Numbering
import MemberRules.Proofs.Declared.Building

namespace MemberRules

open MemberRules.Computation

/-! ## 1. Blocks of steps for declared rules -/

/-- A step that starts a block. -/
inductive Opener
  /-- Gates a member. -/
  | gated (g : Guard)
  /-- Takes the gate of a member away. -/
  | always
  /-- Starts a member without a check, and keeps its rules. -/
  | rule (message : Option MessageSource)

/-- A step that goes on with a block. -/
inductive Setting
  | gate (g : Guard)
  | message (m : Option MessageSource)
  | code (key : Option String)
  | resourceKey (key : Option String)

/-- A block of steps for the declared rules of a member. -/
structure Block where
  selector : Selector
  /-- The member that is selected. -/
  member : MemberRef
  opener : Opener
  settings : List Setting

/-- The step on a type that starts a block. -/
def Opener.step (sel : Selector) : Opener → TypeStep
  | gated g => .gate (some sel) g
  | always => .always sel
  | rule message => .rule sel none message false

/-- What is gathered when a block has been started. -/
def Opener.pending (m : MemberRef) : Opener → PendingRule
  | gated g => { member := m, conditioned := true, gate := Action.setGuard g {} }
  | always => { member := m, conditioned := true }
  | rule message => { member := m, message }

/-- The step on a type that goes on with a block. -/
def Setting.step : Setting → TypeStep
  | gate g => .gate none g
  | message m => .check (.message m)
  | code key => .check (.code key)
  | resourceKey key => .check (.resourceKey key)

/-- What is gathered when a block has gone on. -/
def Setting.on (p : PendingRule) : Setting → PendingRule
  | gate g => { p with conditioned := true, gate := Action.setGuard g p.gate }
  | message m => { p with message := m }
  | code key => { p with code := key }
  | resourceKey key => { p with resourceKey := key }

namespace Block

/-- The steps of a block. -/
def steps (b : Block) : List TypeStep := b.opener.step b.selector :: b.settings.map Setting.step

/-- What a block gathers. -/
def pending (b : Block) : PendingRule := b.settings.foldl Setting.on (b.opener.pending b.member)

/-- What a block sets. -/
def change (b : Block) : Change := b.pending.change

end Block

theorem Opener.pending_checks (o : Opener) (m : MemberRef) :
    (o.pending m).checks = [] ∧ (o.pending m).member = m := by
  cases o <;> exact ⟨rfl, rfl⟩

theorem Setting.on_checks (x : Setting) (p : PendingRule) :
    (x.on p).checks = p.checks ∧ (x.on p).member = p.member := by
  cases x <;> exact ⟨rfl, rfl⟩

/-- Settings attach no check, and stay with the member. -/
theorem foldl_on_checks (xs : List Setting) (p : PendingRule) :
    (xs.foldl Setting.on p).checks = p.checks ∧ (xs.foldl Setting.on p).member = p.member := by
  induction xs generalizing p with
  | nil => exact ⟨rfl, rfl⟩
  | cons x xs ih =>
    obtain ⟨hchecks, hmember⟩ := x.on_checks p
    rw [← hchecks, ← hmember]
    exact ih (x.on p)

/-- Without a check, what steps set is set for the declared rules. -/
theorem PendingRule.set_of_checks_nil {p : PendingRule} (hp : p.checks = []) :
    (∀ m, p.setMessage m = { p with message := m }) ∧
      (∀ key, p.setCode key = { p with code := key }) ∧
      ∀ key, p.setResourceKey key = { p with resourceKey := key } := by
  unfold setMessage setCode setResourceKey
  simp only [hp, List.isEmpty_nil, if_true, implies_true, and_self]

theorem Block.pending_checks (b : Block) : b.pending.checks = [] ∧ b.pending.member = b.member := by
  obtain ⟨hchecks, hmember⟩ := foldl_on_checks b.settings (b.opener.pending b.member)
  obtain ⟨hopened, hselected⟩ := b.opener.pending_checks b.member
  exact ⟨hchecks.trans hopened, hmember.trans hselected⟩

theorem Block.pending_isFor (b : Block) (k : MemberKey) :
    b.pending.isFor k = (b.member.key == k) := by
  obtain ⟨hchecks, hmember⟩ := b.pending_checks
  unfold PendingRule.isFor
  rw [hchecks, hmember]
  rfl

/-! ## 2. Running blocks -/

namespace Engine

variable {e : Engine} {c : Nat}

/-- An engine in which the type of a configuration is marked as incomplete. -/
def touched (c : Nat) (e : Engine) : Engine :=
  { e with registry := e.registry.mark (e.configuration c).type false }

/-- An engine in which a member has been started, and what was started before has been put away. -/
def opened (c : Nat) (p : PendingRule) (e : Engine) : Engine :=
  (e.touched c).updateConfiguration c fun cfg =>
    { cfg with pending := cfg.gathered, current := some p }

end Engine

namespace Action

variable {e e' : Engine} {c : Nat}

theorem touch_apply (e : Engine) : touch c e = (.ok (), e.touched c) := rfl

/-- Marking the type makes no difference to that. -/
theorem commit_touched (h : (commit c e).1 = .ok ()) : (commit c (e.touched c)).1 = .ok () := by
  have hable := commit_ok_iff.mp h
  exact commit_ok_iff.mpr fun p hp hneeds => hable p hp hneeds

theorem commit_of_touched (h : (commit c (e.touched c)).1 = .ok ()) : (commit c e).1 = .ok () := by
  have hable := commit_ok_iff.mp h
  exact commit_ok_iff.mpr fun p hp hneeds => hable p hp hneeds

/-- What was started before is put away, and the type is incomplete, before a selector is tried. -/
theorem begin_of_commit (sel : Selector) (hput : (commit c e).1 = .ok ()) :
    begin c sel e = (e.world.schema.select (e.configuration c).type (sel.captured e.world),
      (e.touched c).committed c) := by
  have htype : ((e.committed c).configuration c).type = (e.configuration c).type := by
    rcases Engine.configuration_updateConfiguration c c _ with h | h <;>
      rw [Engine.committed, h]
  have htouch : (e.committed c).touched c = (e.touched c).committed c := by
    unfold Engine.touched
    rw [htype]
    rfl
  have hselect : select (((e.touched c).committed c).configuration c).type sel
      ((e.touched c).committed c) =
      (e.world.schema.select (e.configuration c).type (sel.captured e.world),
        (e.touched c).committed c) := by
    rw [← htype]
    rfl
  unfold begin
  rw [bind_ok (commit_apply hput), bind_ok (touch_apply _), htouch]
  exact hselect

/-- A member is selected, and what was started before is put away. -/
theorem begin_apply {sel : Selector} {m : MemberRef} (hput : (commit c e).1 = .ok ())
    (hselects : e.world.schema.select (e.configuration c).type (sel.captured e.world) = .ok m) :
    begin c sel e = (.ok m, (e.touched c).committed c) := by
  rw [begin_of_commit sel hput, hselects]

/-- A member is started after the one before it has been put away. -/
theorem start_committed (p : PendingRule) :
    start c p ((e.touched c).committed c) = (.ok (), e.opened c p) := by
  have hopened : e.opened c p = ((e.touched c).committed c).updateConfiguration c
      fun cfg => { cfg with current := some p } := by
    unfold Engine.committed
    rw [Engine.updateConfiguration_twice]
    rfl
  rw [hopened]
  rfl

variable (hc : c < e.configurations.length)

include hc in
theorem configuration_opened (p : PendingRule) : (e.opened c p).configuration c =
    { e.configuration c with pending := (e.configuration c).gathered, current := some p } :=
  Engine.configuration_updateConfiguration_self hc _

/-- A step on the member that was started last. -/
theorem updateCurrent_opened (p : PendingRule) (f : PendingRule → PendingRule) :
    updateCurrent c f (e.opened c p) = (.ok (), e.opened c (f p)) := by
  have hopened : e.opened c (f p) = (e.opened c p).updateConfiguration c
      fun cfg => { cfg with current := cfg.current.map f } := by
    unfold Engine.opened
    rw [Engine.updateConfiguration_twice]
    rfl
  rw [hopened]
  rfl

include hc in
theorem requireCurrent_opened (p : PendingRule) (operation : String) :
    requireCurrent c operation (e.opened c p) = (.ok p, e.opened c p) := by
  unfold requireCurrent
  rw [configuration_bind, configuration_opened hc]
  rfl

include hc in
/-- **A step that goes on with a block** changes what is gathered for the member. -/
theorem setting_run (x : Setting) {p : PendingRule} (hp : p.checks = []) :
    x.step.run c (e.opened c p) = (.ok c, e.opened c (x.on p)) := by
  obtain ⟨hmessage, hcode, hresourceKey⟩ := PendingRule.set_of_checks_nil hp
  have hsame : ∀ operation (f : PendingRule → PendingRule),
      (do let _ ← requireCurrent c operation; updateCurrent c f : Action Unit) (e.opened c p) =
        (.ok (), e.opened c (f p)) := fun operation f => by
    rw [bind_ok (requireCurrent_opened hc p operation), updateCurrent_opened]
  cases x with
  | gate g =>
    have hgated : startGated c none (e.opened c p) =
        (.ok (), e.opened c { p with conditioned := true }) := by
      unfold startGated
      dsimp only
      rw [configuration_bind, configuration_opened hc]
      exact updateCurrent_opened p _
    refine (bind_ok hgated).trans ?_
    rw [bind_ok (updateCurrent_opened _ _)]
    rfl
  | message m =>
    refine (bind_ok (hsame _ _)).trans ?_
    rw [hmessage]
    rfl
  | code key =>
    refine (bind_ok (hsame _ _)).trans ?_
    rw [hcode]
    rfl
  | resourceKey key =>
    refine (bind_ok (hsame _ _)).trans ?_
    rw [hresourceKey]
    rfl

include hc in
/-- **A step that starts a block** starts its member. -/
theorem opener_run (o : Opener) {sel : Selector} {m : MemberRef} (hput : (commit c e).1 = .ok ())
    (hselects : e.world.schema.select (e.configuration c).type (sel.captured e.world) = .ok m)
    (hapart : ∀ p, (e.configuration c).current = some p → p.checks = [] ∨ p.member.key ≠ m.key) :
    (o.step sel).run c e = (.ok c, e.opened c (o.pending m)) := by
  cases o with
  | gated g =>
    have hnew : (e.configuration c).current.any (fun p =>
        !p.checks.isEmpty && p.member.key == m.key) = false := by
      cases hcurrent : (e.configuration c).current with
      | none => rfl
      | some p => rcases hapart p hcurrent with h | h <;> simp [h]
    have hsame : (e.touched c).configuration c = e.configuration c := rfl
    have hselected : select ((e.touched c).configuration c).type sel (e.touched c) =
        (.ok m, e.touched c) := by
      rw [← hselects]
      rfl
    have hgated : startGated c (some sel) e =
        (.ok (), e.opened c { member := m, conditioned := true }) := by
      unfold startGated
      dsimp only
      rw [bind_ok (touch_apply e), configuration_bind,
        bind_ok hselected, configuration_bind]
      simp only [hsame, hnew, Bool.false_eq_true, if_false]
      rw [bind_ok (commit_apply (commit_touched hput))]
      exact start_committed _
    refine (bind_ok hgated).trans ?_
    rw [bind_ok (updateCurrent_opened _ _)]
    rfl
  | always =>
    have halways : always c sel e = (.ok (), e.opened c { member := m, conditioned := true }) := by
      unfold always
      rw [bind_ok (begin_apply hput hselects), start_committed]
    exact bind_ok halways
  | rule message =>
    have hstarted : startRule c sel none message false e =
        (.ok (), e.opened c { member := m, message }) := by
      unfold startRule
      rw [bind_ok (begin_apply hput hselects)]
      simp only [Bool.false_eq_true, if_false]
      rw [bind_ok (start_committed _)]
      cases message with
      | none => rfl
      | some text =>
        dsimp only
        unfold checkStep
        dsimp only
        rw [bind_ok (requireCurrent_opened hc _ _), updateCurrent_opened]
        rfl
    exact bind_ok hstarted

end Action

namespace Engine

variable {e e' e'' : Engine} {c : Nat} {ps ps' : List PendingRule}

/-- What blocks leave to build: something more that was gathered, and rules as they were. -/
structure Leaves (c : Nat) (ps : List PendingRule) (e e' : Engine) : Prop where
  world : e'.world = e.world
  reflected : e'.reflected = e.reflected
  groups : e'.registry.groups = e.registry.groups
  length : e'.configurations.length = e.configurations.length
  type : (e'.configuration c).type = (e.configuration c).type
  gathered : (e'.configuration c).gathered = (e.configuration c).gathered ++ ps

theorem Leaves.refl (c : Nat) (e : Engine) : e.Leaves c [] e :=
  ⟨rfl, rfl, rfl, rfl, rfl, (List.append_nil _).symm⟩

theorem Leaves.trans (h : e.Leaves c ps e') (h' : e'.Leaves c ps' e'') :
    e.Leaves c (ps ++ ps') e'' where
  world := h'.world.trans h.world
  reflected := h'.reflected.trans h.reflected
  groups := h'.groups.trans h.groups
  length := h'.length.trans h.length
  type := h'.type.trans h.type
  gathered := by rw [h'.gathered, h.gathered, List.append_assoc]

theorem leaves_opened (hc : c < e.configurations.length) (p : PendingRule) :
    e.Leaves c [p] (e.opened c p) where
  world := rfl
  reflected := rfl
  groups := rfl
  length := List.length_modify ..
  type := by rw [Action.configuration_opened hc]
  gathered := by rw [Action.configuration_opened hc]; rfl

theorem Leaves.declaredAt (h : e.Leaves c ps e') (t : TypeId) (k : MemberKey) :
    e'.registry.declaredAt t k = e.registry.declaredAt t k := by
  unfold Registry.declaredAt Registry.rulesOfMember Registry.allGroups
  rw [h.groups]

theorem Leaves.canReflect {t : TypeId} (h : e.Leaves c ps e') (hreflect : e.CanReflect t) :
    e'.CanReflect t := by
  obtain ⟨ms, hms⟩ := hreflect
  have hread : ∀ e : Engine, (Action.members t e).1 = (e.world.schema.reflect t e.reflected).1 :=
    fun _ => rfl
  refine ⟨ms, ?_⟩
  rw [hread, h.world, h.reflected, ← hread]
  exact hms

/-- A block for the declared rules of a member: its selector selects the member, and the member has
declared rules. -/
structure Opens (c : Nat) (b : Block) (e : Engine) : Prop where
  selects : e.world.schema.select (e.configuration c).type (b.selector.captured e.world) =
    .ok b.member
  declared : e.registry.declaredAt (e.configuration c).type b.member.key ≠ []

theorem Opens.of_leaves {b : Block} (h : e.Opens c b) (hleaves : e.Leaves c ps e') :
    e'.Opens c b := by
  refine ⟨?_, ?_⟩
  · rw [hleaves.world, hleaves.type]
    exact h.selects
  · rw [hleaves.declaredAt, hleaves.type]
    exact h.declared

/-- Whether no check is being gathered for a member, so that steps on it start a block. -/
def Apart (c : Nat) (m : MemberRef) (e : Engine) : Prop :=
  ∀ p, (e.configuration c).current = some p → p.checks = [] ∨ p.member.key ≠ m.key

end Engine

variable {e : Engine} {c : Nat}

/-- Settings are made one after the other. -/
theorem runTypeSteps_settings (hc : c < e.configurations.length) (xs : List Setting)
    (rest : List TypeStep) {p : PendingRule} (hp : p.checks = []) :
    runTypeSteps c (xs.map Setting.step ++ rest) (e.opened c p) =
      runTypeSteps c rest (e.opened c (xs.foldl Setting.on p)) := by
  induction xs generalizing p with
  | nil => rfl
  | cons x xs ih =>
    have hnext := ih ((x.on_checks p).1.trans hp)
    rw [List.map_cons, List.cons_append, runTypeSteps, bind_ok (Action.setting_run hc x hp), hnext]
    rfl

/-- **A block of steps** puts away what was started before, and gathers what it sets. -/
theorem runTypeSteps_block (hc : c < e.configurations.length) {b : Block}
    (hput : (Action.commit c e).1 = .ok ()) (hopens : e.Opens c b) (hapart : e.Apart c b.member)
    (rest : List TypeStep) :
    runTypeSteps c (b.steps ++ rest) e = runTypeSteps c rest (e.opened c b.pending) := by
  have hopened := Action.opener_run hc b.opener hput hopens.selects hapart
  have hchecks := (b.opener.pending_checks b.member).1
  rw [Block.steps, List.cons_append, runTypeSteps, bind_ok hopened,
    runTypeSteps_settings hc b.settings rest hchecks]
  rfl

/-- **Blocks of steps can be run**, and leave to build what they set, in order.  By induction on the
blocks: each one can be put away because its member has declared rules. -/
theorem runTypeSteps_blocks {blocks : List Block} (hkeyed : e.Keyed)
    (hc : c < e.configurations.length) (hput : (Action.commit c e).1 = .ok ())
    (hopens : ∀ b ∈ blocks, e.Opens c b)
    (hapart : ∀ b, blocks.head? = some b → e.Apart c b.member) :
    ∃ e', runTypeSteps c (blocks.flatMap Block.steps) e = (.ok (), e') ∧
      (Action.commit c e').1 = .ok () ∧ e.Leaves c (blocks.map Block.pending) e' := by
  induction blocks generalizing e with
  | nil => exact ⟨e, rfl, hput, .refl c e⟩
  | cons b blocks ih =>
    obtain ⟨hopen, hrest⟩ := List.forall_mem_cons.mp hopens
    have hleaves := Engine.leaves_opened hc b.pending
    have hkeyed' : (e.opened c b.pending).Keyed := ⟨hkeyed.registry.mark _ _, hkeyed.builders⟩
    have hcurrent : ∀ p, ((e.opened c b.pending).configuration c).current = some p →
        p = b.pending := fun p hp => by
      rw [Action.configuration_opened hc] at hp
      exact (Option.some.inj hp).symm
    have hput' : (Action.commit c (e.opened c b.pending)).1 = .ok () := by
      refine Action.commit_ok_of_declared hkeyed' fun p hp => ?_
      rw [hcurrent p hp, b.pending_checks.2]
      exact (hopen.of_leaves hleaves).declared
    obtain ⟨e', hrun, hput'', hleaves'⟩ := ih hkeyed' (hleaves.length ▸ hc) hput'
      (fun b' hb' => (hrest b' hb').of_leaves hleaves)
      fun b' _ p hp => .inl (hcurrent p hp ▸ b.pending_checks.1)
    refine ⟨e', ?_, hput'', hleaves.trans hleaves'⟩
    rw [List.flatMap_cons, runTypeSteps_block hc hput hopen (hapart b rfl), hrun]

/-! ## 3. What blocks set for declared rules -/

/-- What the blocks for a member set, in order. -/
def changesFor (k : MemberKey) (blocks : List Block) : List Change :=
  (blocks.filter fun b => b.member.key == k).map Block.change

/-- What has been set for the declared rules of a member when blocks have been run: what was
gathered before, and what the blocks for the member set. -/
def Engine.changesAfter (c : Nat) (blocks : List Block) (k : MemberKey) (e : Engine) :
    List Change :=
  (e.configuration c).changesOf k ++ changesFor k blocks

theorem Engine.Leaves.changesOf {e' : Engine} {blocks : List Block}
    (h : e.Leaves c (blocks.map Block.pending) e') (k : MemberKey) :
    (e'.configuration c).changesOf k = e.changesAfter c blocks k := by
  have hfor : PendingRule.isFor k ∘ Block.pending = fun b : Block => b.member.key == k :=
    funext fun b => b.pending_isFor k
  unfold Engine.changesAfter Configuration.changesOf changesFor
  rw [h.gathered, List.filter_append, List.map_append, List.filter_map, List.map_map, hfor]
  rfl

/-- **Blocks can be run and then built**: the last change for each member decides. -/
theorem build_blocks (blocks : List Block) (hkeyed : e.Keyed) (hc : c < e.configurations.length)
    (hput : (Action.commit c e).1 = .ok ()) (hopens : ∀ b ∈ blocks, e.Opens c b)
    (hapart : ∀ b, blocks.head? = some b → e.Apart c b.member)
    (hreflect : (∃ p ∈ (e.configuration c).gathered, p.checks ≠ []) →
      e.CanReflect (e.configuration c).type) :
    ∃ e₁ out e₂, runTypeSteps c (blocks.flatMap Block.steps) e = (.ok (), e₁) ∧
      Action.build c e₁ = (.ok out, e₂) ∧ e.Builds c (e.changesAfter c blocks) e₂ := by
  obtain ⟨e₁, hrun, hput₁, hleaves⟩ := runTypeSteps_blocks hkeyed hc hput hopens hapart
  have hkeyed₁ : e₁.Keyed := by
    have hkept := (runTypeSteps_keyed (blocks.flatMap Block.steps) c e hkeyed).1
    rw [hrun] at hkept
    exact hkept
  obtain ⟨out, e₂, hbuild, hbuilds⟩ := Action.build_declared hkeyed₁ (hleaves.length ▸ hc) hput₁
    fun ⟨p, hp, hchecks⟩ => by
      rw [hleaves.gathered] at hp
      rcases List.mem_append.mp hp with hp | hp
      · exact hleaves.type ▸ hleaves.canReflect (hreflect ⟨p, hp, hchecks⟩)
      · obtain ⟨b, -, rfl⟩ := List.mem_map.mp hp
        exact absurd b.pending_checks.1 hchecks
  refine ⟨e₁, out, e₂, hrun, hbuild, hbuilds.keyed, hbuilds.world.trans hleaves.world,
    hbuilds.length.trans hleaves.length, hbuilds.type.trans hleaves.type, hbuilds.gathered,
    fun k => ?_⟩
  have hdeclared := hbuilds.declared k
  rw [hleaves.changesOf, hleaves.type] at hdeclared
  unfold Registry.standingWith at hdeclared ⊢
  rw [hleaves.declaredAt] at hdeclared
  exact hdeclared

/-- **What blocks set is kept** exactly if, for each declared rule, the last change for its member
sets each item that the changes before it make a difference to.  The blocks can be run and the type
can be built, and the declared rules keep their places and are set as the last change says, on top of
how they were registered. -/
theorem declared_keep_all_iff {blocks : List Block} (hkeyed : e.Keyed)
    (hc : c < e.configurations.length) (hput : (Action.commit c e).1 = .ok ())
    (hopens : ∀ b ∈ blocks, e.Opens c b)
    (hapart : ∀ b, blocks.head? = some b → e.Apart c b.member)
    (hreflect : (∃ p ∈ (e.configuration c).gathered, p.checks ≠ []) →
      e.CanReflect (e.configuration c).type) :
    ∃ e₁ out e₂, runTypeSteps c (blocks.flatMap Block.steps) e = (.ok (), e₁) ∧
      Action.build c e₁ = (.ok out, e₂) ∧
      ∀ k, (e₂.registry.declaredAt (e.configuration c).type k).map Rule.standing =
          e.registry.standingWith (e.configuration c).type k
            (Change.last (e.changesAfter c blocks k)) ∧
        ((e₂.registry.declaredAt (e.configuration c).type k).map Rule.standing =
            e.registry.standingWith (e.configuration c).type k
              (Change.latest (e.changesAfter c blocks k)) ↔
          ∀ r ∈ e.registry.declaredAt (e.configuration c).type k,
            Change.Covers (Change.last (e.changesAfter c blocks k))
              (Change.latest (e.changesAfter c blocks k)) r.settings) := by
  obtain ⟨e₁, out, e₂, hrun, hbuild, hbuilds⟩ :=
    build_blocks blocks hkeyed hc hput hopens hapart hreflect
  refine ⟨e₁, out, e₂, hrun, hbuild, fun k => ⟨hbuilds.declared k, ?_⟩⟩
  rw [hbuilds.declared]
  unfold Registry.standingWith
  rw [List.map_inj_left]
  refine forall₂_congr fun r _ => ?_
  rw [Prod.mk.injEq, ← Change.last_onto_eq_iff]
  exact and_iff_right rfl

/-! ## 4. Blocks that are built one by one -/

/-- Runs each of several blocks, and builds the type after it. -/
def runBuilding (c : Nat) (blocks : List Block) : Action Unit :=
  blocks.forM fun b => do
    runTypeSteps c b.steps
    let _ ← Action.build c

theorem Configuration.current_of_gathered {cfg : Configuration} (h : cfg.gathered = []) :
    cfg.current = none := by
  obtain ⟨-, hcurrent⟩ := List.append_eq_nil_iff.mp h
  cases hlast : cfg.current with
  | none => rfl
  | some p =>
    rw [hlast] at hcurrent
    cases hcurrent

/-- Building leaves the declared rules of a member to further blocks. -/
theorem Engine.Opens.of_builds {b : Block} {e' : Engine} {xs : MemberKey → List Change}
    (h : e.Opens c b) (hbuilds : e.Builds c xs e') : e'.Opens c b := by
  refine ⟨?_, fun hnone => h.declared ?_⟩
  · rw [hbuilds.world, hbuilds.type]
    exact h.selects
  · rw [hbuilds.type] at hnone
    have hdeclared := hbuilds.declared b.member.key
    rw [hnone] at hdeclared
    exact List.map_eq_nil_iff.mp hdeclared.symm

/-- Where nothing was gathered, building a block makes its change for its member. -/
theorem last_changesAfter_onto (hempty : (e.configuration c).gathered = []) (b : Block)
    (k : MemberKey) (s : Rule.Settings) :
    (Change.last (e.changesAfter c [b] k)).onto s = (Change.latest (changesFor k [b])).onto s := by
  have hnone : (e.configuration c).changesOf k = [] := by
    unfold Configuration.changesOf
    rw [hempty]
    rfl
  rw [Change.latest_onto]
  unfold Engine.changesAfter changesFor
  rw [hnone, List.nil_append, List.filter_singleton]
  cases b.member.key == k <;> rfl

/-- **Blocks that are built one by one keep all that they set**: each declared rule keeps its place,
and each of its items is as the last block that sets it says, or as it was registered.  By induction
on the blocks: each build makes one change, on top of those that the builds before it made. -/
theorem built_blocks_keep_all {blocks : List Block} (hkeyed : e.Keyed)
    (hc : c < e.configurations.length) (hempty : (e.configuration c).gathered = [])
    (hopens : ∀ b ∈ blocks, e.Opens c b) :
    ∃ e', runBuilding c blocks e = (.ok (), e') ∧
      ∀ k, (e'.registry.declaredAt (e.configuration c).type k).map Rule.standing =
        e.registry.standingWith (e.configuration c).type k
          (Change.latest (changesFor k blocks)) := by
  induction blocks generalizing e with
  | nil => exact ⟨e, rfl, fun k => rfl⟩
  | cons b blocks ih =>
    obtain ⟨hopen, hrest⟩ := List.forall_mem_cons.mp hopens
    have hcurrent : ∀ p, (e.configuration c).current ≠ some p := fun p hp => by
      rw [Configuration.current_of_gathered hempty] at hp
      cases hp
    obtain ⟨e₁, out, e₂, hrun, hbuild, hbuilds⟩ := build_blocks [b] hkeyed hc
      (Action.commit_ok_iff.mpr fun p hp => absurd hp (hcurrent p))
      (fun b' hb' => List.mem_singleton.mp hb' ▸ hopen) (fun _ _ p hp => absurd hp (hcurrent p))
      fun ⟨p, hp, _⟩ => absurd hp (hempty ▸ List.not_mem_nil)
    obtain ⟨e', hafter, hlatest⟩ := ih hbuilds.keyed (hbuilds.length ▸ hc) hbuilds.gathered
      fun b' hb' => (hrest b' hb').of_builds hbuilds
    rw [List.flatMap_singleton] at hrun
    have hfirst : (do runTypeSteps c b.steps; let _ ← Action.build c : Action Unit) e =
        (.ok (), e₂) := by
      rw [bind_ok hrun, bind_ok hbuild]
      rfl
    refine ⟨e', (bind_ok hfirst).trans hafter, fun k => ?_⟩
    have hchanges : changesFor k (b :: blocks) = changesFor k [b] ++ changesFor k blocks := by
      unfold changesFor
      rw [← List.map_append, ← List.filter_append]
      rfl
    -- What the later blocks do depends only on how the rules stand after the first build.
    have hstanding := congrArg (List.map fun y : _ × Rule.Settings =>
      (y.1, (Change.latest (changesFor k blocks)).onto y.2)) (hbuilds.declared k)
    unfold Registry.standingWith at hstanding hlatest ⊢
    rw [List.map_map, List.map_map] at hstanding
    rw [hbuilds.type] at hlatest
    refine ((hlatest k).trans hstanding).trans (List.map_congr_left fun r _ => ?_)
    refine congrArg (Prod.mk r.place) ?_
    rw [hchanges, Change.latest_append_onto, ← last_changesAfter_onto hempty]

/-! ## 5. An address that administrators need

The address of a user is declared to be required.  One block asks for it only of administrators, and
the next one gives it a message. -/

namespace UserAddress

def email : Hint := .annotated (.type (.builtin .text)) [{ check := .required false }]

def schema : Schema := ⟨[
  { name := "User"
    members := [⟨"email", .field email none none none⟩,
      ⟨"role", .field (.type (.builtin .text)) none none none⟩]
    line := [.declared "User"] }]⟩

def member : MemberRef := ⟨.declared "User", "email", .field⟩

/-- An engine before anything has been configured. -/
def start : Engine := { world := { schema } }

/-- An engine with a configuration of users. -/
def engine : Engine := (Action.configure (.declared "User") start).2

/-- Whether the role of a user is that of an administrator. -/
def isAdmin : Guard :=
  .plain (.test (.compare .equal (.get .subject "role") (.const (.plain (.text "admin")))))

def blocks : List Block := [
  { selector := .ref member, member, opener := .gated isAdmin, settings := [] },
  { selector := .ref member, member, opener := .rule none
    settings := [.message (some (.template "An address is needed."))] }]

theorem keyed : engine.Keyed :=
  (Action.configure_keyed (.declared "User") start
    ⟨Registry.keyed_empty, fun _ _ h => by cases h⟩).1

theorem engine_tidy : engine.Tidy :=
  Engine.Tidy.afterCalls (Engine.tidy_of_nothing rfl rfl rfl (Schema.faithful_nil schema))
    [.configure (.declared "User")]

theorem configured : 0 < engine.configurations.length := by decide +kernel

theorem gathered : (engine.configuration 0).gathered = [] :=
  List.isEmpty_iff.mp (by decide +kernel)

theorem current : (engine.configuration 0).current = none :=
  Option.isNone_iff_eq_none.mp (by decide +kernel)

theorem able : (Action.commit 0 engine).1 = .ok () :=
  Action.commit_ok_iff.mpr fun p hp => by
    rw [current] at hp
    cases hp

theorem opens : ∀ b ∈ blocks, engine.Opens 0 b := by
  have hdeclared : (engine.registry.declaredAt (engine.configuration 0).type member.key).isEmpty =
      false := by decide +kernel
  have hnonempty : engine.registry.declaredAt (engine.configuration 0).type member.key ≠ [] :=
    fun h => by
      rw [h] at hdeclared
      cases hdeclared
  exact List.forall_mem_cons.mpr ⟨⟨rfl, hnonempty⟩, List.forall_mem_cons.mpr
    ⟨⟨rfl, hnonempty⟩, fun _ h => absurd h List.not_mem_nil⟩⟩

theorem apart : ∀ b, blocks.head? = some b → engine.Apart 0 b.member := fun b _ p hp => by
  rw [current] at hp
  cases hp

theorem reflects : (∃ p ∈ (engine.configuration 0).gathered, p.checks ≠ []) →
    engine.CanReflect (engine.configuration 0).type := fun ⟨p, hp, _⟩ => by
  rw [gathered] at hp
  cases hp

/-- Whether the declared rules have a condition, and whether they have a message. -/
def shown (ss : List Rule.Standing) : List (Bool × Bool) :=
  ss.map fun s => (s.2.gate.condition.isSome, s.2.message.isSome)

end UserAddress

/-- The address of a user has a message when both blocks have been built, but no condition. -/
theorem declared_keep_all_iff_user : ∃ e₁ out e₂,
    runTypeSteps 0 (UserAddress.blocks.flatMap Block.steps) UserAddress.engine = (.ok (), e₁) ∧
      Action.build 0 e₁ = (.ok out, e₂) ∧
      UserAddress.shown ((e₂.registry.declaredAt (UserAddress.engine.configuration 0).type
        UserAddress.member.key).map Rule.standing) = [(false, true)] := by
  obtain ⟨e₁, out, e₂, hrun, hbuild, hdeclared⟩ := declared_keep_all_iff UserAddress.keyed
    UserAddress.configured UserAddress.able UserAddress.opens UserAddress.apart
    UserAddress.reflects
  refine ⟨e₁, out, e₂, hrun, hbuild, ?_⟩
  rw [(hdeclared UserAddress.member.key).1]
  decide +kernel

/-- **A block can take away what a block before it set.** -/
theorem blocks_lose_gate :
    ¬ ∀ {e : Engine} {c : Nat} {blocks : List Block}, e.Keyed → c < e.configurations.length →
      (Action.commit c e).1 = .ok () → (∀ b ∈ blocks, e.Opens c b) →
      (∀ b, blocks.head? = some b → e.Apart c b.member) →
      ((∃ p ∈ (e.configuration c).gathered, p.checks ≠ []) →
        e.CanReflect (e.configuration c).type) →
      ∃ e₁ out e₂, runTypeSteps c (blocks.flatMap Block.steps) e = (.ok (), e₁) ∧
        Action.build c e₁ = (.ok out, e₂) ∧
        ∀ k, (e₂.registry.declaredAt (e.configuration c).type k).map Rule.standing =
          e.registry.standingWith (e.configuration c).type k
            (Change.latest (e.changesAfter c blocks k)) := by
  intro h
  obtain ⟨e₁, out, e₂, hrun, hbuild, hlatest⟩ := h UserAddress.keyed UserAddress.configured
    UserAddress.able UserAddress.opens UserAddress.apart UserAddress.reflects
  -- What the run and the build end with, by evaluation.
  have hafter : UserAddress.shown (((Action.build 0 (runTypeSteps 0
      (UserAddress.blocks.flatMap Block.steps) UserAddress.engine).2).2.registry.declaredAt
      (UserAddress.engine.configuration 0).type UserAddress.member.key).map Rule.standing) =
        [(false, true)] := by decide +kernel
  have hclaimed : UserAddress.shown (UserAddress.engine.registry.standingWith
      (UserAddress.engine.configuration 0).type UserAddress.member.key
      (Change.latest (UserAddress.engine.changesAfter 0 UserAddress.blocks
        UserAddress.member.key))) = [(true, true)] := by decide +kernel
  rw [hrun, hbuild, hlatest, hclaimed] at hafter
  cases hafter

end MemberRules
