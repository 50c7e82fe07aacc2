/-
# What calls do to what is gathered

Each part of a configuration step makes small changes, and may do certain deeds only: a deed about the
member that was started last, about a member that its selector selects, or about the builder.  So
what a call does to what is gathered can be said from the call and the engine before it.

* `bind_edits`: one part after another, which may fail.
* `PutsAway`: deeds that are enough to put away the member that was started last.
* `…_edits`: what the parts of the steps do.
* `TypeStep.Does`, `Call.Does`, `Call.after_edits`: what a call does that builds nothing.
-/
import MemberRules.Proofs.Configuration.Edits
import MemberRules.Proofs.Configuration.Steps
import MemberRules.Proofs.Declared.Rebuilt

namespace MemberRules

open MemberRules.Computation MemberRules.Engine

/-! ## 1. Parts of the steps -/

/-- Whether certain deeds are enough for a step that puts away the member that was started last: if
this is refused, the member is forgotten. -/
def Engine.PutsAway (A : Deed → Prop) (c : Nat) (e : Engine) : Prop :=
  (Action.commit c e).1 ≠ .ok () →
    ∀ p, (e.configuration c).current = some p → A (.forget c p.member.key)

namespace Action

variable {α β : Type} {A : Deed → Prop} {e₀ e e' : Engine} {b c : Nat} {m : MemberRef}

instance : Steady (SameBooks e₀) where
  of_sameBooks hsame he := ⟨⟨hsame.configurations.trans he.configurations,
    hsame.builders.trans he.builders, hsame.registry.trans he.registry⟩,
    hsame.configured.trans he.configured⟩

instance : Steady (Edits A e₀) where
  of_sameBooks hsame he := he.andThen (.aside hsame)

/-- What goes on from small changes makes them from where it begins. -/
theorem edits_of_keeps {x : Action α} (hx : Keeps (Edits A e) x) : Edits A e (x e).2 :=
  (hx e (.refl e)).1

/-- **One part after another**: if the first one fails, what it has done is left. -/
theorem bind_edits {x : Action α} {f : α → Action β} (hx : Edits A e (x e).2)
    (hf : ∀ a e₁, x e = (.ok a, e₁) → Edits A e₁ (f a e₁).2) : Edits A e ((x >>= f) e).2 := by
  rw [bind_apply]
  rcases hrun : x e with ⟨r | a, e₁⟩ <;> rw [hrun] at hx
  · exact hx
  · exact hx.trans (hf a e₁ hrun)

/-- A part whose answer is passed on in another form. -/
theorem bind_pure_edits {x : Action α} (g : α → β) (hx : Edits A e (x e).2) :
    Edits A e ((x >>= fun a => pure (g a)) e).2 :=
  bind_edits hx fun _ e₁ _ => .refl e₁

theorem mark_edits (t : TypeId) (built : Bool) :
    Keeps (Edits A e₀) (updateRegistry fun reg => reg.mark t built) :=
  .change fun _ he => he.andThen (.mark t built)

theorem touch_edits (c : Nat) : Keeps (Edits A e₀) (touch c) :=
  .andThen (configuration_keeps c) fun cfg => mark_edits cfg.type false

theorem removeRules_edits (t : TypeId) (member : Option MemberRef) (doomed : Rule → Bool) :
    Keeps (Edits A e₀) (removeRules t member doomed) :=
  removeRules_keeps_of (.change fun _ he => he.andThen (.remove t _ doomed))

/-- No value provider is declared. -/
theorem provider_of_declared {t : TypeId} {rs : List Rule}
    (h : declaredRules t e = (.ok rs, e')) : ∀ r ∈ rs, r.provider = none := by
  obtain ⟨ms, -, -, hvalues, -, -⟩ := declaredRules_eq_ok h
  intro r hr
  have hvalue := List.mem_map_of_mem (f := Rule.value) hr
  rw [hvalues] at hvalue
  obtain ⟨m, -, hplaced⟩ := List.mem_flatMap.mp hvalue
  show r.value.provider = none
  rcases MemberInfo.mem_placedRules.mp hplaced with ⟨n, a, -, heq⟩ | ⟨-, -, heq⟩ <;>
    rw [heq] <;> rfl

theorem ensureWithin_edits (depth : Nat) (t : TypeId) :
    Keeps (Edits A e₀) (ensureWithin depth t) := by
  refine ensureWithin_keeps_of (fun {t rs _ _} _ hrun hsame hnew he' => ?_) depth t
  have hadded : Keeps (Edits A e₀) (noteAdded t rs.length true) :=
    .andThen (mark_edits t true) fun _ => note_keeps _ _ _
  -- The rules are registered, and then the type is marked.
  have hregistered := he'.andThen (.register t rs (by rwa [hsame.registry]) (provider_of_declared hrun))
  exact (hadded _ hregistered).1

theorem ensure_edits (t : TypeId) : Keeps (Edits A e₀) (ensure t) :=
  .andThen schema_keeps fun _ => ensureWithin_edits _ t

theorem updateConfiguration_edits {f : Configuration → Configuration}
    (hf : ∀ cfg : Configuration, cfg.Edit A c (f cfg)) :
    Keeps (Edits A e₀) (updateConfiguration c f) :=
  .change fun _ he => he.andThen (.work c (hf _))

theorem amend_edits (id : Nat) {f : Rule → Rule} (hf : ∀ r : Rule, r.Succeeds (f r)) :
    Keeps (Edits A e₀) (modify (Engine.amend id f) : Action Unit) :=
  .change fun _ he => he.andThen (.amend id hf)

/-! ### Members that are started -/

/-- Only a member without a check is forgotten. -/
theorem checks_of_refused {p : PendingRule} (h : (commit c e).1 ≠ .ok ())
    (hp : (e.configuration c).current = some p) : p.checks = [] := by
  refine Classical.byContradiction fun hchecks => h (commit_ok_iff.mpr fun p' hp' hneeds => ?_)
  obtain rfl : p = p' := Option.some.inj (hp.symm.trans hp')
  rw [List.isEmpty_eq_false_iff.mpr hchecks] at hneeds
  cases hneeds

/-- What was started last is put away or forgotten. -/
theorem commit_edits (hforget : e.PutsAway A c) : Edits A e (commit c e).2 := by
  by_cases hput : (commit c e).1 = .ok ()
  · rw [commit_apply hput]
    exact (Edit.work c .putAway).edits
  · obtain ⟨p, hp, hrefused⟩ := commit_eq_error hput
    rw [hrefused]
    have hnone := checks_of_refused hput hp
    exact (Edit.work c (.forget hp hnone (hforget hput p hp))).edits

theorem settled_committed (c : Nat) (e : Engine) : (e.committed c).Settled c := by
  rcases updateConfiguration_self_or_default e c
    (fun cfg => { cfg with pending := cfg.gathered, current := none }) with h | ⟨-, h⟩ <;>
    rw [Settled, Engine.committed, h]
  rfl

/-- A step begins by putting away what was started last, or forgets it, and goes on with the member
that its selector selects. -/
theorem begin_edits {sel : Selector} {f : MemberRef → Action α}
    (hforget : e.PutsAway A c)
    (hf : ∀ m, e.world.schema.select (e.configuration c).type (sel.captured e.world) = .ok m →
      Edits A ((e.touched c).committed c) (f m ((e.touched c).committed c)).2) :
    Edits A e ((begin c sel >>= f) e).2 := by
  have htouched : Edits A e (e.touched c) := (Edit.mark (e.configuration c).type false).edits
  by_cases hput : (commit c e).1 = .ok ()
  · have hbegun : Edits A e ((e.touched c).committed c) := htouched.andThen (.work c .putAway)
    have hbegin := begin_of_commit sel hput
    cases hselect : e.world.schema.select (e.configuration c).type (sel.captured e.world) with
    | error r =>
      rw [hselect] at hbegin
      rw [bind_error hbegin]
      exact hbegun
    | ok m =>
      rw [hselect] at hbegin
      rw [bind_ok hbegin]
      exact hbegun.trans (hf m hselect)
  · have hcommit := commit_edits hforget
    obtain ⟨p, -, hrefused⟩ := commit_eq_error hput
    rw [hrefused] at hcommit
    have hbegin : begin c sel e = (_, e.abandoned c) := bind_error hrefused
    rw [bind_error hbegin]
    exact hcommit

/-- A member is started where none is. -/
theorem start_edit (hsettled : e.Settled c) {p : PendingRule} (hnone : p.checks = [])
    (hA : A (.start c p.member.key)) :
    Edit A e (e.updateConfiguration c fun cfg => { cfg with current := some p }) := by
  have hstarted : e.updateConfiguration c (fun cfg => { cfg with current := some p }) =
      e.updateConfiguration c fun cfg => { cfg with pending := cfg.gathered, current := some p } :=
    updateConfiguration_congr (by rw [Configuration.gathered_eq_pending hsettled])
  rw [hstarted]
  exact .work c (.start p hnone hA)

/-- The member that was started last is the one that was started. -/
theorem current_of_start {p p' : PendingRule} (h : ((e.updateConfiguration c fun cfg =>
    { cfg with current := some p }).configuration c).current = some p') : p' = p := by
  rcases updateConfiguration_self_or_default e c (fun cfg => { cfg with current := some p }) with
    heq | ⟨-, heq⟩ <;> rw [heq] at h
  · exact (Option.some.inj h).symm
  · cases h

theorem attach_edits (a : Attribute) (hA : ∀ p, (e.configuration c).current = some p →
    A (.attach c p.member.key)) : Edits A e (attach c a e).2 := by
  unfold attach requireCurrent
  rw [bind_assoc, configuration_bind]
  cases (e.configuration c).current with
  | none => exact .refl e
  | some p => exact (Edit.work c (.attach { validator := a } hA)).edits

/-- A message is set for the member that was started last. -/
theorem message_edits (s : MessageSource) :
    Keeps (Edits A e₀) (checkStep c (.message (some s))) :=
  .andThen (requireCurrent_keeps c _) fun _ =>
    updateConfiguration_edits fun _ => .furnish (PendingRule.setMessage_alike _)

theorem furnish_edits (must : Option Expr) (message : Option MessageSource)
    (hA : must.isSome = true → ∀ p, (e.configuration c).current = some p →
      A (.attach c p.member.key)) : Edits A e (furnish c must message e).2 := by
  have hmessage : ∀ e₀ : Engine, Keeps (Edits A e₀) (message.elim (pure ()) fun s =>
      checkStep c (.message (some s))) := by
    intro e₀
    cases message with
    | none => exact .pure trivial
    | some s => exact message_edits s
  unfold furnish
  refine bind_edits ?_ fun _ e₁ _ => edits_of_keeps (hmessage e₁)
  cases must with
  | none => exact .refl e
  | some x => exact attach_edits { check := .must x } (hA rfl)

/-- **The value provider of a member** is set, or refused. -/
theorem provide_edits (c : Nat) (m : MemberRef) (x : Expr) (hA : A (.provide c m.key)) :
    Keeps (Edits A e₀) (provide c m x) :=
  provide_keeps (updateConfiguration_edits fun _ => .provide m x hA)

/-! ## 2. Steps on a type -/

theorem settled_updateConfiguration {f : Configuration → Configuration}
    (hf : ∀ cfg : Configuration, (f cfg).current = cfg.current) :
    Keeps (Settled c) (updateConfiguration c f) := .change fun e he => by
  rcases configuration_updateConfiguration (e := e) c c f with h | h <;> rw [Settled, h]
  · exact he
  · exact (hf _).trans he

/-- What is dropped of a member is dropped of no other. -/
theorem filter_dropPending (k : MemberKey) (ps : List PendingRule) :
    (ps.filter fun p => p.member.key != k).filter (fun p => !(p.member.key == k)) =
      ps.filter fun p => !(p.member.key == k) := by
  rw [List.filter_filter]
  refine List.filter_congr fun p _ => ?_
  rw [bne, Bool.and_self]

theorem drop_edits (hA : A (.drop c (· == m.key))) : Keeps (Edits A e₀) (drop c m) :=
  .andThen (configuration_keeps c) fun _ => .andThen (removeRules_edits _ _ _) fun _ =>
    updateConfiguration_edits fun cfg =>
      .drop (filter_dropPending m.key cfg.pending) (.refl _) (.refl _) hA

theorem drop_settled (c : Nat) (m : MemberRef) : Keeps (Settled c) (drop c m) :=
  .andThen (configuration_keeps c) fun _ => .andThen (removeRules_keeps _ _ _) fun _ =>
    settled_updateConfiguration fun _ => rfl

/-- What follows when a member has been dropped while none is started. -/
theorem drop_andThen_edits {f : Unit → Action α} (hsettled : e.Settled c)
    (hA : A (.drop c (· == m.key)))
    (hf : ∀ e', e'.Settled c → Edits A e' (f () e').2) :
    Edits A e ((drop c m >>= f) e).2 := by
  refine bind_edits (edits_of_keeps (drop_edits hA)) fun _ e₁ hrun => hf e₁ ?_
  have hstill := (drop_settled c m e hsettled).1
  rwa [hrun] at hstill

/-- What follows on a member that has been started where none was. -/
theorem start_andThen_edits {p : PendingRule} {f : Unit → Action α} (hsettled : e.Settled c)
    (hnone : p.checks = []) (hA : A (.start c p.member.key))
    (hf : ∀ e', (∀ p', (e'.configuration c).current = some p' → p' = p) →
      Edits A e' (f () e').2) : Edits A e ((start c p >>= f) e).2 :=
  (start_edit hsettled hnone hA).edits.trans (hf _ fun _ => current_of_start)

theorem startRule_edits {sel : Selector} {must : Option Expr} {message : Option MessageSource}
    {replace : Bool} (hforget : e.PutsAway A c)
    (hA : ∀ m, e.world.schema.select (e.configuration c).type (sel.captured e.world) = .ok m →
      A (.start c m.key) ∧ (must.isSome = true → A (.attach c m.key)) ∧
        (replace = true → A (.drop c (· == m.key)))) :
    Edits A e (startRule c sel must message replace e).2 := by
  rw [startRule_eq]
  refine begin_edits hforget fun m hm => ?_
  obtain ⟨hstart, hattach, hdrop⟩ := hA m hm
  have hrest : ∀ e₁, e₁.Settled c → Edits A e₁ ((do
      start c { member := m }
      furnish c must message : Action Unit) e₁).2 := fun e₁ hsettled =>
    start_andThen_edits hsettled rfl hstart fun e₂ hcurrent => furnish_edits must message
      fun hmust p hp => by
        rw [hcurrent p hp]
        exact hattach hmust
  have hsettled := settled_committed c (e.touched c)
  cases replace with
  | false => exact hrest _ hsettled
  | true => exact drop_andThen_edits hsettled (hdrop rfl) fun e₁ hstill => hrest e₁ hstill

theorem newBuilder_edits {sel : Selector} (forEach : Bool) (name : Option String)
    (hforget : e.PutsAway A c) : Edits A e (newBuilder c sel forEach name e).2 :=
  begin_edits hforget fun m _ => (Edit.list c m forEach _).edits

theorem exclude_edits {sel : Selector} (hforget : e.PutsAway A c)
    (hA : ∀ m, e.world.schema.select (e.configuration c).type (sel.captured e.world) = .ok m →
      A (.start c m.key) ∧ A (.drop c (· == m.key))) : Edits A e (exclude c sel e).2 := by
  refine begin_edits hforget fun m hm => ?_
  obtain ⟨hstart, hdrop⟩ := hA m hm
  refine drop_andThen_edits (settled_committed c (e.touched c)) hdrop fun e₁ hsettled => ?_
  let unlisted : Configuration → Configuration := fun cfg =>
    { cfg with builders := cfg.builders.filter fun b => (e₁.builder b).member.key != m.key }
  let p : PendingRule :=
    { member := m, gate := { condition := some .never }, conditioned := true, excluded := true }
  have hlisted : Edit A e₁ (e₁.updateConfiguration c unlisted) :=
    .work c (.drop rfl List.filter_sublist (.refl _) hdrop)
  have hstill := (settled_updateConfiguration (f := unlisted) (fun _ => rfl) e₁ hsettled).1
  exact hlisted.edits.andThen (start_edit hstill (p := p) rfl hstart)

theorem always_edits {sel : Selector} (hforget : e.PutsAway A c)
    (hA : ∀ m, e.world.schema.select (e.configuration c).type (sel.captured e.world) = .ok m →
      A (.start c m.key)) : Edits A e (always c sel e).2 :=
  begin_edits hforget fun m hm =>
    (start_edit (settled_committed c (e.touched c)) (p := { member := m, conditioned := true })
      rfl (hA m hm)).edits

/-- A gate is set for the member that was started last. -/
theorem gate_edit {f : PendingRule → PendingRule} (hf : ∀ p : PendingRule, p.Alike (f p))
    (hA : ∀ p, (e.configuration c).current = some p → A (.gate c p.member.key)) :
    Edit A e (e.updateConfiguration c fun cfg => { cfg with current := cfg.current.map f }) :=
  .work c (.gate hf hA)

/-- The gate of a member that goes on is set in two parts. -/
theorem goOn_edits (g : Guard)
    (hA : ∀ p, (e.configuration c).current = some p → A (.gate c p.member.key)) :
    Edits A e ((do
      updateCurrent c fun p => { p with conditioned := true }
      updateCurrent c fun p => { p with gate := setGuard g p.gate }
      return c : Action Nat) e).2 := by
  let gated (p : PendingRule) : PendingRule :=
    { p with conditioned := true, gate := setGuard g p.gate }
  have hboth : ((do
      updateCurrent c fun p => { p with conditioned := true }
      updateCurrent c fun p => { p with gate := setGuard g p.gate }
      return c : Action Nat) e).2 = e.updateConfiguration c fun cfg =>
        { cfg with current := cfg.current.map gated } := by
    refine (updateConfiguration_twice _ _).trans (updateConfiguration_congr ?_)
    simp [gated, Function.comp_def]
  rw [hboth]
  exact (gate_edit (f := gated) (fun _ => ⟨rfl, rfl, rfl⟩) hA).edits

/-- A member is started with its gate, after what was started last has been put away. -/
theorem startWithGate_edits (g : Guard) (hforget : e.PutsAway A c) (hA : A (.start c m.key)) :
    Edits A e ((do
      commit c
      start c { member := m, conditioned := true }
      updateCurrent c fun p => { p with gate := setGuard g p.gate }
      return c : Action Nat) e).2 := by
  refine bind_edits (commit_edits hforget) fun _ e₁ hrun => ?_
  let p : PendingRule := { member := m, conditioned := true, gate := setGuard g {} }
  have hstarted : ((do
      start c { member := m, conditioned := true }
      updateCurrent c fun p => { p with gate := setGuard g p.gate }
      return c : Action Nat) e₁).2 = e₁.updateConfiguration c fun cfg =>
        { cfg with current := some p } := updateConfiguration_twice _ _
  rw [hstarted]
  exact (start_edit (settled_of_commit hrun) (p := p) rfl hA).edits

/-- A selector selects the same after a configuration has been touched. -/
theorem select_touched (sel : Selector) (c : Nat) (e : Engine) :
    select ((e.touched c).configuration c).type sel (e.touched c) =
      (e.world.schema.select (e.configuration c).type (sel.captured e.world), e.touched c) :=
  rfl

/-- **A gate** is set for the member that was started last, or for one that is started. -/
theorem gate_edits {sel : Option Selector} (g : Guard)
    (hforget : sel.isSome = true → e.PutsAway A c)
    (hgate : sel = none → ∀ p, (e.configuration c).current = some p → A (.gate c p.member.key))
    (hselects : ∀ s, sel = some s → ∀ m, e.world.schema.select (e.configuration c).type
      (s.captured e.world) = .ok m → A (.start c m.key) ∧ A (.gate c m.key)) :
    Edits A e ((TypeStep.gate sel g).run c e).2 := by
  cases sel with
  | none =>
    show Edits A e ((startGated c none >>= _ : Action Nat) e).2
    unfold startGated
    dsimp only
    rw [bind_assoc, configuration_bind]
    cases hcurrent : (e.configuration c).current with
    | none => exact .refl e
    | some p => exact goOn_edits g (hgate rfl)
  | some s =>
    have htouched : Edits A e (e.touched c) := (Edit.mark (e.configuration c).type false).edits
    show Edits A e ((startGated c (some s) >>= _ : Action Nat) e).2
    unfold startGated
    dsimp only
    rw [bind_assoc, bind_ok (touch_apply e), bind_assoc, configuration_bind, bind_assoc]
    refine htouched.trans (bind_edits (by rw [select_touched]; exact .refl _) ?_)
    intro m e₁ hrun
    rw [select_touched] at hrun
    obtain ⟨hselect, rfl⟩ := Prod.mk.inj hrun
    obtain ⟨hstart, hsame⟩ := hselects s rfl m hselect
    rw [bind_assoc, configuration_bind]
    split
    · rename_i hcontinues
      refine goOn_edits g fun p hp => ?_
      rw [hp] at hcontinues
      have hkey : p.member.key = m.key := by simpa using (Bool.and_eq_true_iff.mp hcontinues).2
      rwa [hkey]
    · have hputs : (e.touched c).PutsAway A c := fun hrefused =>
        hforget rfl fun hok => hrefused (commit_touched hok)
      rw [bind_assoc]
      exact startWithGate_edits g hputs hstart

/-- Checks that go from a member go from no other. -/
theorem filter_map_dropped (m : MemberRef) (kind : Option String) (ps : List PendingRule) :
    (ps.map fun p => if p.member.key == m.key then
      { p with checks := p.checks.filter fun x => !isDropped kind x.validator } else p).filter
        (fun p => !(p.member.key == m.key)) =
      ps.filter fun p => !(p.member.key == m.key) := by
  induction ps with
  | nil => rfl
  | cons p ps ih =>
    rw [List.map_cons, List.filter_cons, List.filter_cons, ih]
    cases hkey : p.member.key == m.key <;> simp [hkey]

/-- A configuration with certain builders. -/
def Listed (c : Nat) (bs : List Nat) (e : Engine) : Prop := (e.configuration c).builders = bs

instance (bs : List Nat) : OfGathered (Listed c bs) where
  of_same hconfigurations _ he := by
    rw [Listed, Engine.configuration, hconfigurations]
    exact he

/-- What is kept apart from each other is kept together. -/
theorem Keeps.both {I J : Engine → Prop} {x : Action α} (hI : Keeps I x) (hJ : Keeps J x) :
    Keeps (fun e => I e ∧ J e) x := fun e he =>
  ⟨⟨(hI e he.1).1, (hJ e he.2).1⟩, fun _ _ => trivial⟩

theorem dropMember_edits {sel : Selector} (kind : Option String)
    (hforget : e.PutsAway A c)
    (hA : ∀ m, e.world.schema.select (e.configuration c).type (sel.captured e.world) = .ok m →
      A (.drop c (· == m.key))) : Edits A e (dropMember c sel kind e).2 := by
  refine begin_edits hforget fun m hm => ?_
  let bs := (((e.touched c).committed c).configuration c).builders
  let stripped : Configuration → Configuration := fun cfg =>
    { cfg with pending := cfg.pending.map fun p => if p.member.key == m.key then
        { p with checks := p.checks.filter fun x => !isDropped kind x.validator } else p }
  have hstripped : Keeps (fun e' => Edits A ((e.touched c).committed c) e' ∧ Listed c bs e')
      (updateConfiguration c stripped) := by
    refine .both (updateConfiguration_edits fun cfg =>
      .drop (filter_map_dropped m kind cfg.pending) (.refl _) (.refl _) (hA m hm)) (.change ?_)
    intro e' he'
    rcases configuration_updateConfiguration (e := e') c c stripped with h | h <;>
      rw [Listed, h] <;> exact he'
  -- The builders are listed all the while, so that their rules may be dropped.
  have hkeeps : Keeps (fun e' => Edits A ((e.touched c).committed c) e' ∧ Listed c bs e') (do
      touch c
      let cfg ← configuration c
      let _ ← removeRules cfg.type (some m) fun r => kind.all r.checkIsOfKind
      updateConfiguration c stripped
      cfg.builders.forM fun b =>
        modify (Engine.updateBuilder b fun builder =>
          if builder.member.key == m.key then
            { builder with rules := builder.rules.filter fun r =>
                !r.validator.all (isDropped kind) }
          else builder) : Action Unit) := by
    refine .andThen (.both (touch_edits c) (touch_keeps c)) fun _ =>
      .bind (P := fun cfg => cfg.builders = bs)
        (fun e' he' => ⟨he', fun cfg h => by cases h; exact he'.2⟩) fun cfg hcfg =>
      .andThen (.both (removeRules_edits _ _ _) (removeRules_keeps _ _ _)) fun _ =>
      .andThen hstripped fun _ => .forM fun b hb => .change fun e' he' => ⟨?_, he'.2⟩
    have hlisted : b ∈ (e'.configuration c).builders := by
      rw [he'.2, ← hcfg]
      exact hb
    exact he'.1.andThen (.dropRules c b hlisted (hA m hm))
  exact (hkeeps _ ⟨.refl _, rfl⟩).1.1

theorem keepOnly_edits {sel : Selector} (hforget : e.PutsAway A c)
    (hA : ∀ m, e.world.schema.select (e.configuration c).type (sel.captured e.world) = .ok m →
      A (.drop c (· != m.key))) : Edits A e (keepOnly c sel e).2 := by
  refine begin_edits hforget fun m hm => ?_
  have hkeeps : Keeps (Edits A ((e.touched c).committed c)) (do
      touch c
      let _ ← removeRules (← configuration c).type none fun r => r.member.key != m.key
      let e ← get
      updateConfiguration c fun cfg =>
        { cfg with
          pending := cfg.pending.filter fun p => p.member.key == m.key
          builders := cfg.builders.filter fun b => (e.builder b).member.key == m.key } :
      Action Unit) := by
    refine .andThen (touch_edits c) fun _ => .andThen (configuration_keeps c) fun _ =>
      .andThen (removeRules_edits _ _ _) fun _ => .get_bind fun e' he' => ?_
    refine (updateConfiguration_edits fun cfg => .drop ?_ List.filter_sublist (.refl _) (hA m hm) :
      Keeps (Edits A _) _) e' he'
    rw [List.filter_filter]
    refine List.filter_congr fun p _ => ?_
    cases hkey : p.member.key == m.key <;> simp [bne, hkey]
  exact edits_of_keeps hkeeps

theorem clear_edits (hforget : e.PutsAway A c) (hA : A (.drop c fun _ => true)) :
    Edits A e (clear c e).2 := by
  have hrest : ∀ e₁ : Engine, Keeps (Edits A e₁) (do
      touch c
      let _ ← removeRules (← configuration c).type none
      updateConfiguration c Configuration.emptied : Action Unit) := fun _ =>
    .andThen (touch_edits c) fun _ => .andThen (configuration_keeps c) fun _ =>
      .andThen (removeRules_edits _ _ _) fun _ => updateConfiguration_edits fun cfg =>
        .drop (by simp) (List.nil_sublist _) (List.nil_sublist _) hA
  exact bind_edits (commit_edits hforget) fun _ e₁ _ => edits_of_keeps (hrest e₁)

/-- **A step on a type attaches a check** to the member that was started last, unless this fails. -/
theorem checkStep_attach (c : Nat) (a : Attribute) (e : Engine) :
    (∃ f, checkStep c (.attach (.ok a)) e = (.error f, e)) ∨
    checkStep c (.attach (.ok a)) e = (.ok (), e.updateConfiguration c fun cfg =>
      { cfg with current := cfg.current.map fun p =>
          { p with checks := p.checks ++ [{ validator := a }] } }) := by
  have husable := usable_snd (e.configuration c).type (.ok a) e
  unfold checkStep
  dsimp only
  rw [configuration_bind]
  rcases hrun : usable (e.configuration c).type (.ok a) e with ⟨f | a', e₁⟩
  · rw [hrun] at husable
    obtain rfl : e₁ = e := husable
    exact .inl ⟨f, bind_error hrun⟩
  · obtain ⟨rfl, rfl⟩ := usable_eq_ok hrun
    rw [bind_ok hrun]
    unfold attach requireCurrent
    rw [bind_assoc, configuration_bind]
    cases (e₁.configuration c).current with
    | none => exact .inl ⟨_, rfl⟩
    | some p => exact .inr rfl

/-- A step on the member that was started last. -/
theorem checkStep_edits (s : CheckStep)
    (hattach : ∀ a, s = .attach (.ok a) → ∀ p, (e.configuration c).current = some p →
      A (.attach c p.member.key))
    (hprovide : ∀ x, s = .provide x → ∀ p, (e.configuration c).current = some p →
      A (.provide c p.member.key)) : Edits A e (checkStep c s e).2 := by
  cases s with
  | attach a =>
    cases a with
    | error f => exact .refl e
    | ok a =>
      rcases checkStep_attach c a e with ⟨f, hfails⟩ | hattached
      · rw [hfails]
        exact .refl e
      · rw [hattached]
        exact (Edit.work c (.attach { validator := a } (hattach a rfl))).edits
  | message m =>
    exact edits_of_keeps (.andThen (requireCurrent_keeps c _) fun _ =>
      updateConfiguration_edits fun _ => .furnish (PendingRule.setMessage_alike m))
  | code key =>
    exact edits_of_keeps (.andThen (requireCurrent_keeps c _) fun _ =>
      updateConfiguration_edits fun _ => .furnish (PendingRule.setCode_alike key))
  | resourceKey key =>
    exact edits_of_keeps (.andThen (requireCurrent_keeps c _) fun _ =>
      updateConfiguration_edits fun _ => .furnish (PendingRule.setResourceKey_alike key))
  | provide x =>
    unfold checkStep requireCurrent
    dsimp only
    rw [bind_assoc, configuration_bind]
    cases hcurrent : (e.configuration c).current with
    | none => exact .refl e
    | some p => exact edits_of_keeps (provide_edits c p.member x (hprovide x rfl p hcurrent))

/-! ## 3. Steps of a builder -/

/-- **A builder attaches a check**, unless this fails. -/
theorem builderCheckStep_attach (b : Nat) (a : Attribute) (e : Engine) :
    ((builderCheckStep b (.attach (.ok a)) e).1.isOk = false ∧
      SameBooks e (builderCheckStep b (.attach (.ok a)) e).2) ∨
    ∃ (r : Rule) (mid : Engine), SameBooks e mid ∧
      r.member = (e.builder b).member ∧ r.forEach = (e.builder b).forEach ∧
      r.validator = some a ∧ r.provider = none ∧
      builderCheckStep b (.attach (.ok a)) e =
        (.ok (), mid.updateBuilder b fun x => { x with rules := x.rules ++ [r] }) := by
  let x := e.builder b
  let t := (e.configuration x.owner).type
  have htype : builderType b e = (.ok t, e) := rfl
  have husable := usable_snd t (.ok a) e
  unfold builderCheckStep
  dsimp only
  rw [bind_ok htype]
  rcases hrun : usable t (.ok a) e with ⟨f | a', e₁⟩
  · rw [hrun] at husable
    obtain rfl : e₁ = e := husable
    rw [bind_error hrun]
    exact .inl ⟨rfl, ⟨rfl, rfl, rfl⟩, rfl⟩
  · obtain ⟨rfl, rfl⟩ := usable_eq_ok hrun
    have hattach : attachTo b a' e₁ = (newRule t x.member a' x.forEach >>= fun r =>
      modify (Engine.updateBuilder b fun x => { x with rules := x.rules ++ [r] })) e₁ := rfl
    have hkept : Keeps (SameBooks e₁) (newRule t x.member a' x.forEach) := newRule_keeps _ _ _ _
    have hnew := (hkept e₁ ⟨⟨rfl, rfl, rfl⟩, rfl⟩).1
    rw [bind_ok hrun, hattach]
    rcases hrule : newRule t x.member a' x.forEach e₁ with ⟨f | r, mid⟩ <;> rw [hrule] at hnew
    · rw [bind_error hrule]
      exact .inl ⟨rfl, hnew⟩
    · obtain ⟨-, -, hr⟩ := newRule_eq_ofCheck hrule
      rw [bind_ok hrule, hr]
      exact .inr ⟨_, mid, hnew, rfl, rfl, rfl, rfl, rfl⟩

theorem amendLast_edits (b : Nat) (operation : String) {f : Rule → Rule}
    (hf : ∀ r : Rule, r.Succeeds (f r)) : Keeps (Edits A e₀) (amendLast b operation f) :=
  amendLast_keeps fun id => amend_edits id hf

theorem builderCheckStep_edits (s : CheckStep)
    (hattach : ∀ a, s = .attach (.ok a) → A (.attachTo b))
    (hprovide : ∀ x, s = .provide x → A (.provide (e.builder b).owner (e.builder b).member.key)) :
    Edits A e (builderCheckStep b s e).2 := by
  cases s with
  | attach a =>
    cases a with
    | error f => exact .refl e
    | ok a =>
      rcases builderCheckStep_attach b a e with
        ⟨-, hsame⟩ | ⟨r, mid, hsame, hmember, hforEach, -, hprovider, hattached⟩
      · exact (Edit.aside hsame).edits
      · rw [← hsame.builder] at hmember hforEach
        rw [hattached]
        exact (Edit.aside hsame).edits.andThen
          (.attachTo b r hmember hforEach hprovider (hattach a rfl))
  | message m =>
    have hset (r : Rule) : r.Succeeds { r with message := m } :=
      r.succeeds_with m r.errorKey r.resourceKey r.gate
    exact edits_of_keeps (amendLast_edits b "with_message" hset)
  | code key =>
    have hset (r : Rule) : r.Succeeds { r with errorKey := key } :=
      r.succeeds_with r.message key r.resourceKey r.gate
    exact edits_of_keeps (amendLast_edits b "with_key" hset)
  | resourceKey key =>
    have hset (r : Rule) : r.Succeeds { r with resourceKey := key } :=
      r.succeeds_with r.message r.errorKey key r.gate
    exact edits_of_keeps (amendLast_edits b "localized" hset)
  | provide x => exact (provide_edits _ _ x (hprovide x rfl) e (.refl e)).1

theorem guardRules_edits (g : Guard) (rs : List Rule) : Keeps (Edits A e₀) (guardRules g rs) :=
  .forM fun r _ => amend_edits r.id fun r => r.succeeds_with r.message r.errorKey r.resourceKey _

/-! ## 4. Making configurations, and gathering -/

theorem newConfiguration_edits (t : TypeId) (hA : A .configure) :
    Keeps (Edits A e₀) (newConfiguration t) := by
  refine .andThen (ensure_edits t) fun _ => .get_bind fun e he => ?_
  have hmake : Keeps (Edits A e₀) (modify fun e => { e with configurations := e.configurations ++
      [{ type := t, resource := e.world.schema.resourceOf t, enforce := e.options.enforce }] } :
      Action Unit) :=
    .change fun e he => he.andThen (.create _ rfl rfl rfl rfl hA)
  exact Keeps.andThen hmake (fun _ => .pure trivial) e he

theorem configure_edits (t : TypeId) (hA : A .configure) : Keeps (Edits A e₀) (configure t) :=
  configure_keeps_of (newConfiguration_edits t hA) fun c =>
    .change fun _ he => he.andThen (.book (t, c) hA)

theorem setting_edits {f : Configuration → Configuration}
    (hf : ∀ cfg : Configuration, cfg.SameGathered (f cfg)) (hA : A .setting) :
    Keeps (Edits A e₀) (updateConfiguration c f) :=
  updateConfiguration_edits fun cfg => .setting (hf cfg) hA

theorem newChild_edits (c : Nat) (t : TypeId) (hmake : A .configure) (hset : A .setting) :
    Keeps (Edits A e₀) (newChild c t) :=
  .andThen (newConfiguration_edits t hmake) fun _ => .andThen (configuration_keeps c) fun _ =>
    .andThen (setting_edits (fun _ => ⟨rfl, rfl, rfl, rfl, rfl⟩) hset) fun _ => .pure trivial

theorem gather_edits (cfg : Configuration) : Keeps (Edits A e₀) (gather cfg) :=
  gather_keeps cfg fun id => amend_edits id cfg.complete_succeeds

end Action

/-! ## 5. What calls do -/

namespace Engine

open Action

/-- A member is the one that was started last. -/
def IsCurrent (e : Engine) (c : Nat) (k : MemberKey) : Prop :=
  ∃ p, (e.configuration c).current = some p ∧ p.member.key = k

/-- A selector selects a member. -/
def Selects (e : Engine) (c : Nat) (sel : Selector) (k : MemberKey) : Prop :=
  ∃ m, e.world.schema.select (e.configuration c).type (sel.captured e.world) = .ok m ∧ m.key = k

end Engine

namespace TypeStep

/-- The selector of a step that selects a member. -/
def selector? : TypeStep → Option Selector
  | .rule sel .. | .builder sel .. | .gate (some sel) _ | .exclude sel | .always sel
  | .dropMember sel _ | .keepOnly sel => some sel
  | _ => none

/-- The selector of a step that starts a member. -/
def starts? : TypeStep → Option Selector
  | .rule sel .. | .gate (some sel) _ | .exclude sel | .always sel => some sel
  | _ => none

/-- The selector of a step that drops what was gathered for a member. -/
def drops? : TypeStep → Option Selector
  | .rule sel _ _ true | .exclude sel | .dropMember sel _ => some sel
  | _ => none

/-- Whether a step puts away the member that was started last. -/
def putsAway (s : TypeStep) : Bool :=
  s.selector?.isSome || s matches .clear | .switch _

/-- What a step on a configuration may do to what is gathered. -/
inductive Does (c : Nat) (e : Engine) : TypeStep → Deed → Prop
  | attach (a : Attribute) {k : MemberKey} (hk : e.IsCurrent c k) :
      Does c e (.check (.attach (.ok a))) (.attach c k)
  | provide (x : Expr) {k : MemberKey} (hk : e.IsCurrent c k) :
      Does c e (.check (.provide x)) (.provide c k)
  | forget {s : TypeStep} {k : MemberKey} (hs : s.putsAway = true)
      (hrefused : (Action.commit c e).1 ≠ .ok ()) (hk : e.IsCurrent c k) : Does c e s (.forget c k)
  | start {s : TypeStep} {sel : Selector} {k : MemberKey} (hs : s.starts? = some sel)
      (hk : e.Selects c sel k) : Does c e s (.start c k)
  | must {sel : Selector} (x : Expr) (message : Option MessageSource) (replace : Bool)
      {k : MemberKey} (hk : e.Selects c sel k) :
      Does c e (.rule sel (some x) message replace) (.attach c k)
  | gate (g : Guard) {k : MemberKey} (hk : e.IsCurrent c k) :
      Does c e (.gate none g) (.gate c k)
  | gateAt (g : Guard) {sel : Selector} {k : MemberKey} (hk : e.Selects c sel k) :
      Does c e (.gate (some sel) g) (.gate c k)
  | drop {s : TypeStep} {sel : Selector} {k : MemberKey} (hs : s.drops? = some sel)
      (hk : e.Selects c sel k) : Does c e s (.drop c (· == k))
  | keepOnly {sel : Selector} {k : MemberKey} (hk : e.Selects c sel k) :
      Does c e (.keepOnly sel) (.drop c (· != k))
  | clear : Does c e .clear (.drop c fun _ => true)
  | setting {s : TypeStep} (hs : s matches .resource _ | .culture _ | .fallback _ |
      .withoutConventionalKeys) : Does c e s .setting
  | switch (t : TypeId) : Does c e (.switch t) .configure

end TypeStep

namespace Engine

open Action

variable {A : Deed → Prop} {e : Engine} {c : Nat}

/-- What a call may do to what is gathered, but for the registration of it by a build. -/
inductive Call.Does (e : Engine) : Call → Deed → Prop
  | step {c : Nat} {s : TypeStep} {d : Deed} (hd : s.Does c e d) : Does e (.step c s) d
  /-- A build puts away the member that was started last. -/
  | forget {call : Call} {c : Nat} {k : MemberKey} (hbuilds : call.builds? = some c)
      (hrefused : (commit c e).1 ≠ .ok ()) (hk : e.IsCurrent c k) : Does e call (.forget c k)
  | attachTo (b : Nat) (a : Attribute) : Does e (.check b (.attach (.ok a))) (.attachTo b)
  | provide (b : Nat) (x : Expr) : Does e (.check b (.provide x))
      (.provide (e.builder b).owner (e.builder b).member.key)
  | configure (t : TypeId) : Does e (.configure t) .configure
  | nest (b : Nat) (element : Option TypeId) : Does e (.nest b element) .configure
  | nestSetting (b : Nat) (element : Option TypeId) : Does e (.nest b element) .setting

/-- **What a step on a configuration does**, if it does not build. -/
theorem step_edits {s : TypeStep} (hA : ∀ d, s.Does c e d → A d)
    (hbuild : (Call.step c s).builds? = none) : Edits A e ((Call.step c s).after e) := by
  have hforget : s.putsAway = true → e.PutsAway A c := fun hs hrefused p hp =>
    hA _ (.forget hs hrefused ⟨p, hp, rfl⟩)
  -- A step goes on with its configuration.
  have hgoes : ∀ {x : Action Unit}, Edits A e (x e).2 →
      Edits A e ((do x; return c : Action Nat) e).2 := bind_pure_edits fun _ => c
  have hkeeps : ∀ {x : Action Unit}, Keeps (Edits A e) x →
      Edits A e ((do x; return c : Action Nat) e).2 := fun hx => hgoes (edits_of_keeps hx)
  cases s with
  | check s =>
    refine hgoes (checkStep_edits s ?_ ?_)
    · rintro a rfl p hp
      exact hA _ (.attach a ⟨p, hp, rfl⟩)
    · rintro x rfl p hp
      exact hA _ (.provide x ⟨p, hp, rfl⟩)
  | rule sel must message replace =>
    refine hgoes (startRule_edits (hforget rfl) fun m hm =>
      ⟨hA _ (.start rfl ⟨m, hm, rfl⟩), fun hmust => ?_, fun hreplace => ?_⟩)
    · obtain ⟨x, rfl⟩ := Option.isSome_iff_exists.mp hmust
      exact hA _ (.must x message replace ⟨m, hm, rfl⟩)
    · subst hreplace
      exact hA _ (.drop rfl ⟨m, hm, rfl⟩)
  | builder sel forEach name steps => exact newBuilder_edits forEach name (hforget rfl)
  | gate sel g =>
    cases sel with
    | none =>
      exact gate_edits g (by rintro ⟨⟩) (fun _ p hp => hA _ (.gate g ⟨p, hp, rfl⟩)) (by rintro s ⟨⟩)
    | some sel =>
      refine gate_edits g (fun _ => hforget rfl) (by rintro ⟨⟩) fun s hs m hm => ?_
      obtain rfl := Option.some.inj hs
      exact ⟨hA _ (.start rfl ⟨m, hm, rfl⟩), hA _ (.gateAt g ⟨m, hm, rfl⟩)⟩
  | exclude sel => exact hgoes (exclude_edits (hforget rfl) fun m hm =>
      ⟨hA _ (.start rfl ⟨m, hm, rfl⟩), hA _ (.drop rfl ⟨m, hm, rfl⟩)⟩)
  | always sel => exact hgoes (always_edits (hforget rfl) fun m hm =>
      hA _ (.start rfl ⟨m, hm, rfl⟩))
  | resource name =>
    exact hkeeps (setting_edits (fun _ => ⟨rfl, rfl, rfl, rfl, rfl⟩) (hA _ (.setting rfl)))
  | culture name =>
    have hset : ∀ culture, Keeps (Edits A e) (do
        changeSetting c fun cfg => { cfg with culture }
        return c : Action Nat) := fun culture =>
      .andThen (setting_edits (fun _ => ⟨rfl, rfl, rfl, rfl, rfl⟩) (hA _ (.setting rfl)))
        fun _ => .pure trivial
    exact edits_of_keeps (.andThen (.lift (Culture.parse name)) hset)
  | fallback text =>
    exact hkeeps (setting_edits (fun _ => ⟨rfl, rfl, rfl, rfl, rfl⟩) (hA _ (.setting rfl)))
  | withoutConventionalKeys =>
    exact hkeeps (setting_edits (fun _ => ⟨rfl, rfl, rfl, rfl, rfl⟩) (hA _ (.setting rfl)))
  | enforce on => exact hkeeps (updateConfiguration_edits fun _ => .enforce on)
  | dropMember sel kind => exact hgoes (dropMember_edits kind (hforget rfl) fun m hm =>
      hA _ (.drop rfl ⟨m, hm, rfl⟩))
  | keepOnly sel => exact hgoes (keepOnly_edits (hforget rfl) fun m hm =>
      hA _ (.keepOnly ⟨m, hm, rfl⟩))
  | clear => exact hgoes (clear_edits (hforget rfl) (hA _ .clear))
  | switch t => exact bind_edits (commit_edits (hforget rfl)) fun _ e₁ _ =>
      edits_of_keeps (configure_edits t (hA _ (.switch t)))
  | build => cases hbuild
  | describe =>
    have hreport : Keeps (Edits A e) (Call.step c .describe).run :=
      .andThen (configuration_keeps c) fun _ => .andThen (report_keeps _) fun _ => .pure trivial
    exact edits_of_keeps hreport

/-- **What a call does that builds nothing.** -/
theorem Call.after_edits {call : Call} (hA : ∀ d, call.Does e d → A d)
    (hbuild : call.builds? = none) : Edits A e (call.after e) := by
  have hkeeps : Keeps (Edits A e) call.run → Edits A e (call.after e) := edits_of_keeps
  cases call with
  | configure t => exact hkeeps (configure_edits t (hA _ (.configure t)))
  | step c s => exact step_edits (fun d hd => hA d (.step hd)) hbuild
  | build c => cases hbuild
  | check b s =>
    refine bind_pure_edits _ (builderCheckStep_edits s ?_ ?_)
    · rintro a rfl
      exact hA _ (.attachTo b a)
    · rintro x rfl
      exact hA _ (.provide b x)
  | closeBlock b place g last =>
    have hclose : Keeps (Edits A e) (modify (Engine.updateBuilder b fun builder =>
        { builder with lastGuard := last }) : Action Unit) :=
      .change fun _ he => he.andThen (.close b last)
    exact hkeeps (.andThen (builder_keeps b) fun x => .andThen (guardRules_edits g _) fun _ =>
      .andThen hclose fun _ => .pure trivial)
  | nest b element =>
    exact hkeeps (.andThen (nestedType_keeps b element) fun t => .andThen (builder_keeps b)
      fun x => newChild_edits _ t (hA _ (.nest b element)) (hA _ (.nestSetting b element)))
  | describe b =>
    exact hkeeps (.andThen (builder_keeps b) fun x => .andThen (view_keeps x.rules) fun _ =>
      .andThen (report_keeps _) fun _ => .pure trivial)

end Engine
end MemberRules
