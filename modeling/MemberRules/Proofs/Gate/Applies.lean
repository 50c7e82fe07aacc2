/-
# When the rules of a program apply

A rule that a program of a builder attached should ask the guards of all blocks around it, from the
outside in: then a block and the opposite block after it divide the objects that the guards around
both let through.  The rule asks those guards that reached it.  So it does what it should exactly if
these say what all of them say, and in particular if all of them reached it.

They do if blocks leave the rules that were there before them.  Only nested rules can do otherwise:
programs without them leave all rules, and every rule that they attach is there at the end.

* `runBuilderSteps_plain`: a program without nested rules.
* `AppliesBy`: what it means that rules apply by the guards around them.
* `attached_applies_iff`: when the rules of a program do.
* `attached_not_applies`: a program whose rules do not.
-/
import MemberRules.Proofs.Gate.Blocks

namespace MemberRules

open MemberRules.Computation Engine

variable {b : Nat} {e e' e₁ : Engine}

/-! ## 1. Programs without nested rules -/

mutual

/-- Whether a step configures no nested rules. -/
def BuilderStep.isPlain : BuilderStep → Bool
  | .whenBlock _ steps => arePlain steps
  | .otherwise steps => arePlain steps
  | .childRules _ _ => false
  | _ => true

/-- Whether no step configures nested rules. -/
def arePlain : List BuilderStep → Bool
  | [] => true
  | step :: rest => step.isPlain && arePlain rest

end

theorem mapM_snd {α β : Type} {f : α → Action β} (hf : ∀ a e, (f a e).2 = e) (as : List α)
    (e : Engine) : (as.mapM f e).2 = e := by
  induction as generalizing e with
  | nil =>
    rw [List.mapM_nil]
    rfl
  | cons a as ih =>
    rw [List.mapM_cons, bind_apply]
    have hfirst := hf a e
    rcases hx : f a e with ⟨fault | x, e₁⟩ <;> rw [hx] at hfirst <;> obtain rfl := hfirst
    · rfl
    · dsimp only
      rw [bind_apply]
      have hrest := ih e₁
      rcases hxs : as.mapM f e₁ with ⟨fault | xs, e₂⟩ <;> rw [hxs] at hrest <;> exact hrest

/-- Looking at rules changes nothing. -/
theorem view_snd (rs : List Rule) (e : Engine) : (Action.view rs e).2 = e := by
  unfold Action.view
  rw [bind_ok (get_apply e)]
  refine mapM_snd (fun r e' => ?_) rs e
  rw [bind_apply, Action.lift_apply]
  cases e.registry.ruleWaits r <;> rfl

theorem amendLast_eq_ok {operation : String} {f : Rule → Rule} (hf : ∀ r, (f r).id = r.id)
    (h : Action.amendLast b operation f e = (.ok (), e')) : e'.heldIds b = e.heldIds b := by
  obtain ⟨x, e₁, hbuilder, h⟩ := bind_eq_ok.mp h
  cases hbuilder
  cases hlast : (e.builder b).rules.getLast? with
  | none =>
    simp only [hlast] at h
    cases h
  | some r =>
    simp only [hlast] at h
    cases h
    exact held_amend hf b

theorem provide_eq_ok {c : Nat} {m : MemberRef} {v : Expr}
    (h : Action.provide c m v e = (.ok (), e')) : e'.heldIds b = e.heldIds b := by
  obtain ⟨cfg, e₁, hcfg, h⟩ := bind_eq_ok.mp h
  cases hcfg
  obtain ⟨e₁, e₂, hget, h⟩ := bind_eq_ok.mp h
  cases hget
  dsimp only at h
  split at h
  · obtain ⟨done, e₁, hrefuse, h⟩ := bind_eq_ok.mp h
    cases hrefuse
  · obtain ⟨sch, e₁, hschema, h⟩ := bind_eq_ok.mp h
    cases hschema
    split at h
    · obtain ⟨done, e₁, hrefuse, h⟩ := bind_eq_ok.mp h
      cases hrefuse
    · cases h
      rfl

/-- A step on the rule that was attached last leaves all rules. -/
theorem builderCheckStep_eq_ok {step : CheckStep} (hne : ∀ a, step ≠ .attach a)
    (h : Action.builderCheckStep b step e = (.ok (), e')) : e'.heldIds b = e.heldIds b := by
  cases step with
  | attach a => exact absurd rfl (hne a)
  | message m => exact amendLast_eq_ok (f := fun r => { r with message := m }) (fun _ => rfl) h
  | code key => exact amendLast_eq_ok (f := fun r => { r with errorKey := key }) (fun _ => rfl) h
  | resourceKey key =>
    exact amendLast_eq_ok (f := fun r => { r with resourceKey := key }) (fun _ => rfl) h
  | provide v =>
    obtain ⟨x, e₁, hbuilder, h⟩ := bind_eq_ok.mp h
    cases hbuilder
    exact provide_eq_ok h

/-- Where identities were only added, all rules are still held. -/
theorem stillHeld_of_append {ids : List Nat} (h : e'.heldIds b = e.heldIds b ++ ids) :
    Engine.stillHeld b e e' = true := by
  refine List.all_eq_true.mpr fun id hid => List.contains_iff_mem.mpr ?_
  rw [h]
  exact List.mem_append_left _ hid

/-- No step takes away builders. -/
theorem builders_le_of_run (step : BuilderStep) (b : Nat) (e : Engine) :
    e.builders.length ≤ (step.run b e).2.builders.length :=
  (step.run_staysIn (Nat.zero_le b) e e.inArea_zero).2.1.builders

mutual

/-- A step without nested rules leaves all rules, and every rule that it attaches is there after
it. -/
theorem BuilderStep.run_plain (step : BuilderStep) {prior : Option Guard} {e e' : Engine}
    (h : step.run b e = (.ok (), e')) (hmade : b < e.builders.length)
    (hplain : step.isPlain = true) (hpaired : step.isPaired prior = true) :
    step.keeps b e = true ∧
      e'.heldIds b = e.heldIds b ++ (step.attached b prior e).map Attachment.id := by
  match step with
  | .check (.attach a) =>
    refine ⟨rfl, ?_⟩
    have hlast : (BuilderStep.run b (.check (.attach a)) e).2 = e' := congrArg Prod.snd h
    obtain ⟨t, e₁, htype, hrest⟩ := bind_eq_ok.mp h
    cases htype
    obtain ⟨a', e₁, husable, hattach⟩ := bind_eq_ok.mp hrest
    have hsame := usable_snd ((e.configuration (e.builder b).owner).type) a e
    rw [husable] at hsame
    obtain rfl : e₁ = e := hsame
    have hheld := held_attachTo hmade hattach
    obtain ⟨r, reflected, -, rfl⟩ := attachTo_eq_ok hattach
    unfold BuilderStep.attached heldIds
    rw [hlast, hheld, List.map_append]
    rfl
  | .check (.message _) | .check (.code _) | .check (.resourceKey _) | .check (.provide _) =>
    rw [BuilderStep.run] at h
    have hids := builderCheckStep_eq_ok (fun _ h => by cases h) h
    exact ⟨rfl, hids.trans (List.append_nil _).symm⟩
  | .whenBlock g steps =>
    obtain ⟨e₁, hsteps, rfl⟩ := whenBlock_eq_ok h
    obtain ⟨hkeeps, hids⟩ := runBuilderSteps_plain steps hsteps hmade hplain hpaired
    refine ⟨Bool.and_eq_true_iff.mpr ⟨hkeeps, ?_⟩, ?_⟩
    · rw [hsteps]
      exact stillHeld_of_append hids
    · unfold BuilderStep.attached
      rw [heldIds_guardedBlock, hids, Attachment.map_id_within]
  | .otherwise steps =>
    obtain ⟨hsome, hpaired⟩ := Bool.and_eq_true_iff.mp hpaired
    obtain ⟨g, rfl⟩ := Option.isSome_iff_exists.mp hsome
    obtain ⟨g', e₁, -, hsteps, rfl⟩ := otherwise_eq_ok h
    obtain ⟨hkeeps, hids⟩ := runBuilderSteps_plain steps hsteps hmade hplain hpaired
    refine ⟨Bool.and_eq_true_iff.mpr ⟨hkeeps, ?_⟩, ?_⟩
    · rw [hsteps]
      exact stillHeld_of_append hids
    · unfold BuilderStep.attached
      rw [heldIds_guardedBlock, hids, Attachment.map_id_within]
  | .rules =>
    obtain ⟨x, e₁, hbuilder, hrest⟩ := bind_eq_ok.mp h
    cases hbuilder
    obtain ⟨vs, e₁, hview, hreport⟩ := bind_eq_ok.mp hrest
    have hsame := view_snd (e.builder b).rules e
    rw [hview] at hsame
    obtain rfl : e₁ = e := hsame
    cases hreport
    exact ⟨rfl, (List.append_nil _).symm⟩

/-- **A program without nested rules leaves all rules**, and every rule that it attaches is there at
the end. -/
theorem runBuilderSteps_plain (steps : List BuilderStep) {prior : Option Guard} {e e' : Engine}
    (h : runBuilderSteps b steps e = (.ok (), e')) (hmade : b < e.builders.length)
    (hplain : arePlain steps = true) (hpaired : arePaired prior steps = true) :
    keepAll b steps e = true ∧
      e'.heldIds b = e.heldIds b ++ (attachedBy b prior steps e).map Attachment.id := by
  match steps with
  | [] =>
    cases h
    exact ⟨rfl, (List.append_nil _).symm⟩
  | step :: rest =>
    obtain ⟨done, e₁, hstep, hrest⟩ := bind_eq_ok.mp h
    obtain ⟨hplain, hplain'⟩ := Bool.and_eq_true_iff.mp hplain
    obtain ⟨hpaired, hpaired'⟩ := Bool.and_eq_true_iff.mp hpaired
    have hafter : (step.run b e).2 = e₁ := congrArg Prod.snd hstep
    have hmade' : b < e₁.builders.length := hafter ▸ hmade.trans_le (builders_le_of_run step b e)
    obtain ⟨hkeeps, hids⟩ := step.run_plain hstep hmade hplain hpaired
    obtain ⟨hkeeps', hids'⟩ := runBuilderSteps_plain rest hrest hmade' hplain' hpaired'
    unfold keepAll attachedBy
    rw [hafter]
    refine ⟨Bool.and_eq_true_iff.mpr ⟨hkeeps, hkeeps'⟩, ?_⟩
    rw [hids', hids, List.map_append, List.append_assoc]

end

/-! ## 2. When rules apply -/

/-- Rules that apply by the guards of the blocks around them, for all that was attached. -/
structure AppliesBy (xs : List Attachment) (rs : List Rule) : Prop where
  /-- Every rule was attached, and the rules are in the order in which they were. -/
  attached : (rs.map Rule.id).Sublist (xs.map Attachment.id)
  /-- No two attached rules have one identity. -/
  once : (xs.map Attachment.id).Nodup
  /-- A rule asks the guards around it in turn, from the outside in. -/
  asks : ∀ r ∈ rs, ∀ x ∈ xs, x.id = r.id → ∀ d o, r.applies d o = x.around.hold d o
  /-- A rule applies exactly if each guard around it answers as wanted: that of a block that it
  holds, that of an opposite block that it does not. -/
  exactly : ∀ r ∈ rs, ∀ x ∈ xs, x.id = r.id → ∀ d o w w',
    r.applies d o w = (.ok true, w') ↔ Guards.Answer d o x.around w w'
  /-- After a guard that does not answer as wanted, none is asked. -/
  inTurn : ∀ r ∈ rs, ∀ x ∈ xs, x.id = r.id → ∀ outer k inner, x.around = outer ++ k :: inner →
    ∀ d o w w₁ w₂ answer, Guards.Answer d o outer w w₁ → k.1.holds d o w₁ = (.ok answer, w₂) →
      answer ≠ k.2 → r.applies d o w = (.ok false, w₂)
  /-- Asked at once, a rule says what it says if there is time to wait. -/
  atOnce : ∀ r ∈ rs, ∀ o, r.appliesAtOnce o = r.applies .patient o
  /-- Of a rule directly in a block and one directly in the opposite block, one applies and the other
  does not, where the guards around both let the object through. -/
  opposite : ∀ r ∈ rs, ∀ r' ∈ rs, ∀ x ∈ xs, ∀ x' ∈ xs, x.id = r.id → x'.id = r'.id →
    ∀ outer g, x.around = outer ++ [(g, true)] → x'.around = outer ++ [(g, false)] →
    ∀ d o w w₁ w₂ answer, Guards.Answer d o outer w w₁ → g.holds d o w₁ = (.ok answer, w₂) →
      r.applies d o w = (.ok answer, w₂) ∧ r'.applies d o w = (.ok !answer, w₂)

/-- Rules that ask the guards around them apply by these. -/
theorem AppliesBy.of_asks {xs : List Attachment} {rs : List Rule}
    (hattached : (rs.map Rule.id).Sublist (xs.map Attachment.id))
    (honce : (xs.map Attachment.id).Nodup)
    (hasks : ∀ r ∈ rs, ∀ x ∈ xs, x.id = r.id → ∀ d o, r.applies d o = x.around.hold d o) :
    AppliesBy xs rs := by
  refine ⟨hattached, honce, hasks, ?_, ?_, fun r _ o => r.appliesAtOnce_eq, ?_⟩
  · intro r hr x hx hid d o w w'
    rw [hasks r hr x hx hid]
    exact Guards.hold_iff
  · intro r hr x hx hid outer k inner haround d o w w₁ w₂ answer houter hk hne
    rw [hasks r hr x hx hid, haround, Guards.hold_append, bind_ok (Guards.hold_iff.mpr houter),
      if_pos rfl]
    exact Guards.hold_of_not_wanted hk hne inner
  · intro r hr r' hr' x hx x' hx' hid hid' outer g haround haround' d o w w₁ w₂ answer houter hg
    rw [hasks r hr x hx hid, hasks r' hr' x' hx' hid', haround, haround']
    exact Guards.hold_opposite (Guards.hold_iff.mpr houter) hg

/-- A new builder is the last one. -/
theorem newBuilder_eq_ok {c : Nat} {sel : Selector} {forEach : Bool} {name : Option String}
    (h : Action.newBuilder c sel forEach name e = (.ok b, e')) :
    ∃ before x, e'.builders = before ++ [x] ∧ x.rules = [] ∧ b = before.length := by
  obtain ⟨m, e₁, -, h⟩ := bind_eq_ok.mp h
  obtain ⟨e₂, e₃, hget, h⟩ := bind_eq_ok.mp h
  cases hget
  cases h
  exact ⟨e₁.builders, _, rfl, rfl, rfl⟩

/-- A new builder holds nothing. -/
theorem newBuilder_ready {c : Nat} {sel : Selector} {forEach : Bool} {name : Option String}
    (h : Action.newBuilder c sel forEach name e = (.ok b, e')) : Ready b e' ∧ e'.held b = [] := by
  obtain ⟨before, x, hbuilders, hx, rfl⟩ := newBuilder_eq_ok h
  have hempty : e'.held before.length = [] := by
    unfold held builder
    rw [hbuilders, List.getElem?_concat_length, Option.getD_some, hx, List.map_nil]
  have hids : e'.heldIds before.length = [] := congrArg (List.map Prod.fst) hempty
  refine ⟨⟨?_, fun id hid => ?_, ?_⟩, hempty⟩
  · rw [hbuilders, List.length_append]
    exact Nat.lt_succ_self _
  · exact absurd (hids ▸ hid) List.not_mem_nil
  · rw [hids]
    exact List.nodup_nil

variable {c : Nat} {sel : Selector} {forEach : Bool} {name : Option String}
  {steps : List BuilderStep}

/-- **The rules of a program ask the guards that reached them.** -/
theorem attached_asks_reached (hnew : Action.newBuilder c sel forEach name e = (.ok b, e₁))
    (hrun : runBuilderSteps b steps e₁ = (.ok (), e')) (hpaired : arePaired none steps = true) :
    ∀ r ∈ (e'.builder b).rules, ∀ x ∈ attachedBy b none steps e₁, x.id = r.id → ∀ d o,
      r.applies d o = x.reached.hold d o := by
  have hready := (newBuilder_ready hnew).1
  have hattaches := runBuilderSteps_attaches steps hrun hready hpaired fun g hg =>
    absurd hg (Option.not_mem_none g)
  intro r hr x hx hid d o
  rw [← Guards.isOpen_gate, Rule.applies, hattaches.gate_eq hready hr hx hid]

/-- **The rules of a program apply by the guards around them** exactly if, for each rule, the guards
that reached it say what all of them say.  This is so whenever each block leaves the rules that were
there before it. -/
theorem attached_applies_iff (hnew : Action.newBuilder c sel forEach name e = (.ok b, e₁))
    (hrun : runBuilderSteps b steps e₁ = (.ok (), e')) (hpaired : arePaired none steps = true) :
    (AppliesBy (attachedBy b none steps e₁) (e'.builder b).rules ↔
      ∀ x ∈ attachedBy b none steps e₁, x.id ∈ e'.heldIds b → ∀ d o,
        x.reached.hold d o = x.around.hold d o) ∧
    (keepAll b steps e₁ = true →
      AppliesBy (attachedBy b none steps e₁) (e'.builder b).rules) := by
  obtain ⟨hready, hempty⟩ := newBuilder_ready hnew
  have hattaches := runBuilderSteps_attaches steps hrun hready hpaired fun g hg =>
    absurd hg (Option.not_mem_none g)
  have hreached := attached_asks_reached hnew hrun hpaired
  have hids : (e'.builder b).rules.map Rule.id = e'.heldIds b := (heldIds_eq e' b).symm
  have hattached : (e'.heldIds b).Sublist ((attachedBy b none steps e₁).map Attachment.id) := by
    obtain ⟨old, new, hheld, hold, hnew⟩ := hattaches.heldIds
    rw [heldIds, hempty] at hold
    obtain rfl := List.sublist_nil.mp hold
    rw [hheld]
    exact hnew
  have hiff : AppliesBy (attachedBy b none steps e₁) (e'.builder b).rules ↔
      ∀ x ∈ attachedBy b none steps e₁, x.id ∈ e'.heldIds b → ∀ d o,
        x.reached.hold d o = x.around.hold d o := by
    constructor
    · intro happlies x hx hheld d o
      obtain ⟨r, hr, hid⟩ := List.mem_map.mp (hids ▸ hheld)
      rw [← hreached r hr x hx hid.symm, happlies.asks r hr x hx hid.symm]
    · intro hsame
      refine .of_asks (hids ▸ hattached) hattaches.nodup fun r hr x hx hid d o => ?_
      have hheld : x.id ∈ e'.heldIds b := hids ▸ hid ▸ List.mem_map_of_mem hr
      rw [hreached r hr x hx hid, hsame x hx hheld]
  refine ⟨hiff, fun hkeeps => hiff.mpr fun x hx hheld d o => ?_⟩
  have hnone : ∀ g ∈ (none : Option Guard), (e₁.builder b).lastGuard = some g := fun g hg =>
    absurd hg (Option.not_mem_none g)
  rw [attachedBy_reached steps hrun hready hpaired hnone hkeeps x hx hheld]

/-! ## 3. Rules of the note of an order

The first program nests blocks of guards that answer at once and of ones that may wait.  The second
one loses, within a block, the rule that was there before the block, since the nested rules go on
with the type of the builder. -/

namespace Order

def schema : Schema := ⟨[
  { name := "Item", members := [], line := [.declared "Item"] },
  { name := "Order"
    members := [
      ⟨"note", .field (.type (.declared "Item")) none none none⟩,
      ⟨"draft", .field (.type (.builtin .bool)) none none none⟩]
    line := [.declared "Order"] }]⟩

/-- An engine with an order that is no draft, and with a configuration of orders. -/
def engine : Engine :=
  (Action.configure (.declared "Order") { world := { schema, objects := [
    ⟨.declared "Order", [("note", .int 1), ("draft", .bool false)]⟩] } }).2

def note : Selector := .ref ⟨.declared "Order", "note", .field⟩

/-- The engine with a builder of rules of the note. -/
def builder : Engine := (Action.newBuilder 0 note false none engine).2

def attach (c : Check) : BuilderStep := .check (.attach (.ok { check := c }))

def isDraft : Expr := .get .subject "draft"

def nested : List BuilderStep := [
  attach (.required false),
  .whenBlock (.plain (.test isDraft)) [
    attach .notEmpty,
    .whenBlock (.async (.test ⟨.once, .negate isDraft⟩)) [attach .email],
    .otherwise [attach .phone]],
  .otherwise [attach .empty]]

def losing : List BuilderStep := [
  attach (.required false),
  .whenBlock (.plain (.test isDraft)) [
    attach .notEmpty,
    .childRules [.switch (.declared "Order"), .dropMember note (some "Required")]
      (some (.declared "Item"))]]

theorem newBuilder_ok : Action.newBuilder 0 note false none engine = (.ok 0, builder) :=
  eq_ok_of_toOption (by decide +kernel)

end Order

/-- The rules of nested blocks apply by the guards around them. -/
theorem attached_applies_nested :
    (attachedBy 0 none Order.nested Order.builder).map (fun x => (x.id, x.around.map Prod.snd)) =
        [(0, []), (1, [true]), (2, [true, true]), (3, [true, false]), (4, [false])] ∧
      AppliesBy (attachedBy 0 none Order.nested Order.builder)
        ((runBuilderSteps 0 Order.nested Order.builder).2.builder 0).rules := by
  have hrun : runBuilderSteps 0 Order.nested Order.builder =
      (.ok (), (runBuilderSteps 0 Order.nested Order.builder).2) :=
    eq_ok_of_toOption (by decide +kernel)
  have happlies := (attached_applies_iff Order.newBuilder_ok hrun (by decide)).2
  exact ⟨by decide +kernel, happlies (by decide +kernel)⟩

/-- **If a block loses a rule that was there before it, a rule in it may lack its guard.** -/
theorem attached_not_applies :
    ¬ ∀ {b c : Nat} {sel : Selector} {forEach : Bool} {name : Option String}
      {steps : List BuilderStep} {e e₁ e' : Engine},
      Action.newBuilder c sel forEach name e = (.ok b, e₁) →
      runBuilderSteps b steps e₁ = (.ok (), e') → arePaired none steps = true →
      AppliesBy (attachedBy b none steps e₁) (e'.builder b).rules := by
  intro h
  have hrun : runBuilderSteps 0 Order.losing Order.builder =
      (.ok (), (runBuilderSteps 0 Order.losing Order.builder).2) :=
    eq_ok_of_toOption (by decide +kernel)
  have happlies := h Order.newBuilder_ok hrun (by decide)
  have hwrong : ((runBuilderSteps 0 Order.losing Order.builder).2.builder 0).rules.any (fun r =>
      (attachedBy 0 none Order.losing Order.builder).any fun x => x.1 == r.id &&
        ((r.applies .patient (.object 0) Order.engine.world).1.toOption == some true) &&
        ((x.2.hold .patient (.object 0) Order.engine.world).1.toOption == some false)) = true := by
    decide +kernel
  obtain ⟨r, hr, hwrong⟩ := List.any_eq_true.mp hwrong
  obtain ⟨x, hx, hwrong⟩ := List.any_eq_true.mp hwrong
  simp only [Bool.and_eq_true, beq_iff_eq] at hwrong
  obtain ⟨⟨hid, hopen⟩, hclosed⟩ := hwrong
  rw [happlies.asks r hr x hx hid, hclosed] at hopen
  cases hopen

end MemberRules
