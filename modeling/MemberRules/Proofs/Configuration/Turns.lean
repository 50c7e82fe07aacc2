/-
# Calls without nested rules

A call that begins no block of nested rules does one of four things.  It makes small changes only;
or it changes a setting for all rules of a type; or it lists a configuration of a type that had none;
or it builds a configuration.  So without nested rules there is one configuration of a type at most,
and what a build of one configuration registers is of no other type that is configured.

* `TypeSetting`: a setting for all rules of a type.
* `Engine.Sequel`: what small changes leave of the settings, and where rules come from after them.
* `Engine.Booked`: every configuration is listed under its type, and its type is known.
* `Action.build_cases`, `Call.after_cases`: what a build, and a call without nested rules, does.
* `Action.build_edits`, `Call.after_done`: what a build, and any call, does to what is gathered.
* `Booked.afterCalls`: configurations stay listed.
-/
import MemberRules.Proofs.Configuration.Moves
import MemberRules.Proofs.Declared.Building
import MemberRules.Proofs.Obtaining.Obtained
import MemberRules.Proofs.Registry.Nested

namespace MemberRules

open MemberRules.Computation

/-! ## 1. Settings for all rules -/

/-- A setting for all rules of a type. -/
inductive TypeSetting
  | resource (name : Option String)
  | culture (value : Option Culture)
  | fallback (text : Option String)
  | withoutConventionalKeys

/-- A configuration with a setting changed. -/
def TypeSetting.on (s : TypeSetting) (cfg : Configuration) : Configuration :=
  match s with
  | resource name => { cfg with resource := name, settingsChanged := true }
  | culture value => { cfg with culture := value, settingsChanged := true }
  | fallback text => { cfg with fallback := text, settingsChanged := true }
  | withoutConventionalKeys => { cfg with conventionalKeys := false, settingsChanged := true }

/-- The setting that a step makes.  A step with a culture that is not known makes none, since it
fails; one with a blank name sets that there is no culture. -/
def TypeStep.setting? : TypeStep → Option TypeSetting
  | .resource name => some (.resource name)
  | .culture name => (Culture.parse name).toOption.map TypeSetting.culture
  | .fallback text => some (.fallback text)
  | .withoutConventionalKeys => some .withoutConventionalKeys
  | _ => none

/-- The setting that a call makes for a configuration. -/
def Engine.Call.setting? (c : Nat) : Engine.Call → Option TypeSetting
  | .step c' s => if c' = c then s.setting? else none
  | _ => none

@[simp] theorem TypeSetting.on_type (s : TypeSetting) (cfg : Configuration) :
    (s.on cfg).type = cfg.type := by
  cases s <;> rfl

@[simp] theorem TypeSetting.on_settingsChanged (s : TypeSetting) (cfg : Configuration) :
    (s.on cfg).settingsChanged = true := by
  cases s <;> rfl

/-! ## 2. What small changes leave -/

namespace Configuration.SameSettings

variable {cfg cfg' cfg'' : Configuration}

theorem refl (cfg : Configuration) : cfg.SameSettings cfg := ⟨rfl, rfl, rfl, rfl, rfl, rfl⟩

theorem trans (h : cfg.SameSettings cfg') (h' : cfg'.SameSettings cfg'') :
    cfg.SameSettings cfg'' where
  type := h'.type.trans h.type
  culture := h'.culture.trans h.culture
  resource := h'.resource.trans h.resource
  fallback := h'.fallback.trans h.fallback
  conventionalKeys := h'.conventionalKeys.trans h.conventionalKeys
  settingsChanged := h'.settingsChanged.trans h.settingsChanged

theorem symm (h : cfg.SameSettings cfg') : cfg'.SameSettings cfg :=
  ⟨h.type.symm, h.culture.symm, h.resource.symm, h.fallback.symm, h.conventionalKeys.symm,
    h.settingsChanged.symm⟩

/-- The same change leaves the same settings. -/
theorem on (h : cfg.SameSettings cfg') (s : TypeSetting) : (s.on cfg).SameSettings (s.on cfg') := by
  cases s with
  | resource name => exact ⟨h.type, h.culture, rfl, h.fallback, h.conventionalKeys, rfl⟩
  | culture value => exact ⟨h.type, rfl, h.resource, h.fallback, h.conventionalKeys, rfl⟩
  | fallback text => exact ⟨h.type, h.culture, h.resource, rfl, h.conventionalKeys, rfl⟩
  | withoutConventionalKeys => exact ⟨h.type, h.culture, h.resource, h.fallback, rfl, rfl⟩

end Configuration.SameSettings

namespace Engine

variable {e e' e'' : Engine} {c : Nat}

/-- An engine with the configurations and the settings of another one, in which every rule of a type
that was known comes from one that has no more than it. -/
structure Sequel (e e' : Engine) : Prop where
  length : e'.configurations.length = e.configurations.length
  configured : e'.configured = e.configured
  settings : ∀ c, (e.configuration c).SameSettings (e'.configuration c)
  knows : ∀ t, e.registry.knows t = true → e'.registry.knows t = true
  rules : ∀ t, e.registry.knows t = true → ∀ k, ∀ r' ∈ e'.registry.rulesOfMember t k,
    ∃ r ∈ e.registry.rulesOfMember t k, r.Retains r'

theorem Sequel.refl (e : Engine) : e.Sequel e :=
  ⟨rfl, rfl, fun _ => .refl _, fun _ h => h, fun _ _ _ r hr => ⟨r, hr, .refl r⟩⟩

theorem Sequel.trans (h : e.Sequel e') (h' : e'.Sequel e'') : e.Sequel e'' where
  length := h'.length.trans h.length
  configured := h'.configured.trans h.configured
  settings c := (h.settings c).trans (h'.settings c)
  knows t ht := h'.knows t (h.knows t ht)
  rules t ht k r'' hr'' := by
    obtain ⟨r', hr', hretains'⟩ := h'.rules t (h.knows t ht) k r'' hr''
    obtain ⟨r, hr, hretains⟩ := h.rules t ht k r' hr'
    exact ⟨r, hr, hretains.trans hretains'⟩

/-- A change of the registry only. -/
theorem Sequel.ofRegistry {reg : Registry}
    (hknows : ∀ t, e.registry.knows t = true → reg.knows t = true)
    (hrules : ∀ t, e.registry.knows t = true → ∀ k, (reg.rulesOfMember t k).Sublist
      (e.registry.rulesOfMember t k)) : e.Sequel { e with registry := reg } where
  length := rfl
  configured := rfl
  settings _ := .refl _
  knows := hknows
  rules t ht k r hr := ⟨r, (hrules t ht k).subset hr, .refl r⟩

theorem rulesOfMember_of_groups {reg reg' : Registry} {t : TypeId}
    (h : reg'.allGroups t = reg.allGroups t) (k : MemberKey) :
    reg'.rulesOfMember t k = reg.rulesOfMember t k := by
  unfold Registry.rulesOfMember
  rw [h]

/-- **What a small change leaves.** -/
theorem Move.sequel (h : e.Move e') : e.Sequel e' := by
  cases h with
  | aside hconfigurations hregistry hconfigured =>
    refine ⟨congrArg List.length hconfigurations, hconfigured, fun c => ?_, fun t ht => ?_,
      fun t _ k r hr => ⟨r, hregistry ▸ hr, .refl r⟩⟩
    · rw [configuration, configuration, hconfigurations]
      exact .refl _
    · rwa [hregistry]
  | mark t built =>
    exact .ofRegistry (Registry.retains_mark t built e.registry) fun _ _ _ => .refl _
  | remove t member doomed =>
    refine .ofRegistry (Registry.retains_removeWhere t member doomed e.registry) fun u _ k => ?_
    exact Registry.rulesOfMember_removeWhere member doomed
  | register t rs hnew =>
    refine .ofRegistry (Registry.retains_addAll t rs e.registry) fun u hu k => ?_
    have hne : u ≠ t := fun heq => by
      rw [heq, hnew] at hu
      cases hu
    rw [rulesOfMember_of_groups (Registry.allGroups_addAll_of_ne hne e.registry rs)]
  | work c hf =>
    refine ⟨List.length_modify .., rfl, fun c' => ?_, fun _ h => h,
      fun _ _ _ r hr => ⟨r, hr, .refl r⟩⟩
    rcases configuration_updateConfiguration (e := e) c c' _ with heq | heq <;> rw [heq]
    · exact .refl _
    · exact hf _
  | @amend id f hf =>
    refine ⟨List.length_map .., rfl, fun c' => ?_, Registry.retains_amend id _ e.registry,
      fun t _ k r' hr' => ?_⟩
    · rw [configuration_amend]
      exact ⟨rfl, rfl, rfl, rfl, rfl, rfl⟩
    · have hamended : (e.amend id f).registry.rulesOfMember t k = _ :=
        Registry.rulesOfMember_amend id f
      obtain ⟨r, hr, rfl⟩ := List.mem_map.mp (hamended ▸ hr')
      refine ⟨r, hr, ?_⟩
      split
      · exact hf r
      · exact .refl r

/-- **What small changes leave.** -/
theorem Moves.sequel (h : e.Moves e') : e.Sequel e' :=
  h.keep (I := e.Sequel) (fun hmove hsequel => hsequel.trans hmove.sequel) (.refl e)

end Engine

open Engine

namespace Action

variable {t : TypeId} {c : Nat} {e e' : Engine}

/-- The type whose rules were registered is known. -/
theorem knows_of_ensure (h : ensure t e = (.ok (), e')) : e'.registry.knows t = true := by
  cases hknown : e.registry.knows t with
  | true =>
    rw [ensure_of_knows hknown] at h
    cases h
    exact hknown
  | false =>
    rw [ensure_of_unknown hknown] at h
    obtain ⟨rs, e₁, hderived, h⟩ := bind_eq_ok.mp h
    obtain ⟨done, e₂, hadded, h⟩ := bind_eq_ok.mp h
    have hbuilt : e₂.registry.isBuilt t = true := by
      cases hadded
      exact Registry.isBuilt_mark true
    have hnested : Keeps (Moves e₂) ((nestedModels rs).forM
        (ensureWithin (e.world.schema.types.length + 1))) :=
      .forM fun u _ => ensureWithin_moves _ u
    have hmoves := (hnested e₂ (.refl e₂)).1
    rw [h] at hmoves
    exact hmoves.sequel.knows t (Registry.knows_of_isBuilt hbuilt)

end Action

/-! ## 3. Configurations that are listed -/

namespace Engine

variable {e e' mid : Engine} {c c' : Nat} {t : TypeId} {cfg : Configuration} {rs : List Rule}

/-- Every configuration is listed under its type, and its type is known. -/
structure Booked (e : Engine) : Prop where
  listed : ∀ c < e.configurations.length,
    e.configured.lookup (e.configuration c).type = some c
  known : ∀ c < e.configurations.length, e.registry.knows (e.configuration c).type = true

/-- There is one configuration of a type at most. -/
theorem Booked.eq_of_type (h : e.Booked) (hc : c < e.configurations.length)
    (hc' : c' < e.configurations.length)
    (htype : (e.configuration c').type = (e.configuration c).type) : c' = c := by
  have hlisted := h.listed c hc
  rw [← htype, h.listed c' hc'] at hlisted
  exact Option.some.inj hlisted

/-- Configurations stay listed if their types and the types that are known stay the same. -/
theorem Booked.of_same (h : e.Booked) (hlength : e'.configurations.length = e.configurations.length)
    (hconfigured : e'.configured = e.configured)
    (htype : ∀ c, (e'.configuration c).type = (e.configuration c).type)
    (hknows : ∀ t, e.registry.knows t = true → e'.registry.knows t = true) : e'.Booked where
  listed c hc := by
    rw [hconfigured, htype]
    exact h.listed c (hlength ▸ hc)
  known c hc := by
    rw [htype]
    exact hknows _ (h.known c (hlength ▸ hc))

theorem Booked.moves (h : e.Booked) (hmoves : e.Moves e') : e'.Booked :=
  h.of_same hmoves.sequel.length hmoves.sequel.configured
    (fun c => (hmoves.sequel.settings c).type) hmoves.sequel.knows

theorem Booked.setting (h : e.Booked) (s : TypeSetting) (c : Nat) :
    (e.updateConfiguration c s.on).Booked := by
  refine h.of_same (List.length_modify ..) rfl (fun c' => ?_) fun _ h => h
  rcases configuration_updateConfiguration (e := e) c c' s.on with heq | heq <;> rw [heq]
  exact s.on_type _

/-- One configuration more, of a type that is known and had none. -/
structure Lists (cfg : Configuration) (e e' : Engine) : Prop where
  new : e.configured.lookup cfg.type = none
  known : e.registry.knows cfg.type = true
  configurations : e'.configurations = e.configurations ++ [cfg]
  configured : e'.configured = e.configured ++ [(cfg.type, e.configurations.length)]
  registry : e'.registry = e.registry

theorem Lists.configuration (h : e.Lists cfg e') (c : Nat) : e'.configuration c =
    if c < e.configurations.length then e.configuration c
    else if c = e.configurations.length then cfg else default := by
  rw [← configuration_newConfiguration, Engine.configuration, Engine.configuration,
    h.configurations]

theorem Booked.lists (h : e.Booked) (hlists : e.Lists cfg e') : e'.Booked := by
  have hlength : e'.configurations.length = e.configurations.length + 1 := by
    rw [hlists.configurations, List.length_append, List.length_singleton]
  constructor
  · intro c hc
    rw [hlists.configuration, hlists.configured, List.lookup_append]
    split
    · rw [h.listed c ‹_›]
      rfl
    · have hlast : c = e.configurations.length := by omega
      rw [if_pos hlast, hlists.new, Option.none_or, List.lookup_cons_self, hlast]
  · intro c hc
    rw [hlists.configuration, hlists.registry]
    split
    · exact h.known c ‹_›
    · rw [if_pos (by omega)]
      exact hlists.known

/-- The registration of what a configuration has gathered, which leaves nothing to gather. -/
structure Registers (c : Nat) (rs : List Rule) (e e' : Engine) : Prop where
  lt : c < e.configurations.length
  registry : e'.registry = e.registry.registering ((e.configuration c).type, rs)
  configurations : e'.configurations = e.configurations.modify c fun cfg =>
    { cfg.emptied with lastBuild := rs, settingsChanged := false }
  configured : e'.configured = e.configured
  builders : e'.builders = e.builders

theorem Registers.configuration (h : e.Registers c rs e') : e'.configuration c =
    { (e.configuration c).emptied with lastBuild := rs, settingsChanged := false } := by
  have hself := configuration_updateConfiguration_self h.lt fun cfg =>
    { cfg.emptied with lastBuild := rs, settingsChanged := false }
  rw [← hself, Engine.configuration, h.configurations]
  rfl

theorem Registers.configuration_of_ne (h : e.Registers c rs e') (hne : c ≠ c') :
    e'.configuration c' = e.configuration c' := by
  have hother := configuration_updateConfiguration_of_ne (e := e) hne fun cfg =>
    { cfg.emptied with lastBuild := rs, settingsChanged := false }
  rw [← hother, Engine.configuration, h.configurations]
  rfl

theorem Registers.length (h : e.Registers c rs e') :
    e'.configurations.length = e.configurations.length := by
  rw [h.configurations, List.length_modify]

theorem Booked.registers (h : e.Booked) (hregisters : e.Registers c rs e') : e'.Booked := by
  refine h.of_same hregisters.length hregisters.configured (fun c' => ?_) fun t ht => ?_
  · by_cases hne : c = c'
    · rw [← hne, hregisters.configuration]
      rfl
    · rw [hregisters.configuration_of_ne hne]
  · rw [hregisters.registry]
    exact Registry.retains_mark _ true _ t (Registry.retains_addAll _ rs _ t ht)

end Engine

/-! ## 4. Builds, and configurations that are asked for -/

namespace Action

variable {c : Nat} {e e' : Engine}

/-- **What a build does** in its parts: they keep what putting away, marking and gathering keep, and
in the end what was gathered is registered, if there was anything to gather and nothing failed. -/
theorem build_parts {I : Engine → Prop} (hput : I (commit c e).2)
    (hmark : ∀ t, Keeps I (updateRegistry fun reg => reg.mark t))
    (hgather : ∀ cfg, Keeps I (gather cfg)) : I (build c e).2 ∨
    ∃ mid rs, (build c e).1 = .ok rs ∧ I mid ∧ e.Moves mid ∧ mid.Registers c rs (build c e).2 := by
  have hputMoves := (commit_moves c e (.refl e)).1
  rw [build_eq, bind_apply]
  rcases hrun : commit c e with ⟨f | done, e₁⟩ <;> rw [hrun] at hput hputMoves
  · exact .inl hput
  dsimp only
  rw [configuration_bind]
  cases hidle : (e₁.configuration c).isIdle with
  | true =>
    rw [if_pos rfl]
    exact .inl (hmark _ e₁ hput).1
  | false =>
    have hc : c < e₁.configurations.length := by
      by_contra hge
      have hdefault : e₁.configuration c = default := by
        rw [Engine.configuration, List.getElem?_eq_none (Nat.le_of_not_lt hge), Option.getD_none]
      rw [hdefault] at hidle
      cases hidle
    have hgathered := (hgather (e₁.configuration c) e₁ hput).1
    have hmoves := (gather_moves (e₁.configuration c) e₁ (.refl e₁)).1
    simp only [Bool.false_eq_true, if_false]
    rw [bind_apply]
    rcases hrun : gather (e₁.configuration c) e₁ with ⟨f | rs, mid⟩ <;>
      rw [hrun] at hgathered hmoves
    · exact .inl hgathered
    · have htype : (mid.configuration c).type = (e₁.configuration c).type :=
        (hmoves.sequel.settings c).type
      refine .inr ⟨mid, rs, rfl, hgathered, hputMoves.trans hmoves, ?_, ?_, rfl, rfl, rfl⟩
      · rw [hmoves.sequel.length]
        exact hc
      · rw [htype]
        rfl

/-- **What a build does** if nothing more is asked for: small changes, and the registration. -/
theorem build_cases (c : Nat) (e : Engine) : e.Moves (build c e).2 ∨
    ∃ mid rs, (build c e).1 = .ok rs ∧ e.Moves mid ∧ mid.Registers c rs (build c e).2 := by
  rcases build_parts (commit_moves c e (.refl e)).1 (fun t => mark_moves t true) gather_moves with
    hmoves | ⟨mid, rs, hok, -, hmoves, hregisters⟩
  · exact .inl hmoves
  · exact .inr ⟨mid, rs, hok, hmoves, hregisters⟩

/-- **What a build does to what is gathered**: it puts away or forgets the member that was started
last, and then registers everything, if there is anything and nothing fails. -/
theorem build_edits {A : Deed → Prop} (hforget : e.PutsAway A c) : Edits A e (build c e).2 ∨
    ∃ mid rs, (build c e).1 = .ok rs ∧ Edits A e mid ∧ mid.Registers c rs (build c e).2 := by
  rcases build_parts (commit_edits hforget) (fun t => mark_edits t true) gather_edits with
    hedits | ⟨mid, rs, hok, hedits, -, hregisters⟩
  · exact .inl hedits
  · exact .inr ⟨mid, rs, hok, hedits, hregisters⟩

/-- **What asking for a configuration does.** -/
theorem configure_cases (t : TypeId) (e : Engine) : e.Moves (configure t e).2 ∨
    ∃ mid cfg, e.Moves mid ∧ mid.Lists cfg (configure t e).2 := by
  unfold configure newConfiguration
  rw [bind_ok (get_apply e)]
  cases hlisted : e.configured.lookup t with
  | some c => exact .inl (.refl e)
  | none =>
    have hensure := (ensure_moves t e (.refl e)).1
    dsimp only
    rw [bind_assoc, bind_apply]
    rcases hrun : ensure t e with ⟨f | done, mid⟩ <;> rw [hrun] at hensure
    · exact .inl hensure
    · have hnew : mid.configured.lookup t = none := by rwa [hensure.sequel.configured]
      let cfg : Configuration :=
        { type := t, resource := mid.world.schema.resourceOf t, enforce := mid.options.enforce }
      exact .inr ⟨mid, cfg, hensure, hnew, knows_of_ensure hrun, rfl, rfl, rfl⟩

end Action

/-! ## 5. Calls -/

namespace Engine

open Action

variable {e : Engine} {c : Nat} {calls : List Call}

/-- A call that begins no block of nested rules. -/
def Call.Nestless : Call → Prop
  | nest _ _ => False
  | _ => True

/-- A call changes settings of one configuration at most. -/
theorem Call.setting?_of_ne {call : Call} {c' : Nat} {s : TypeSetting}
    (h : call.setting? c' = some s) (hne : c' ≠ c) : call.setting? c = none := by
  cases call with
  | step c₁ step =>
    by_cases hc : c₁ = c'
    · exact if_neg fun heq => hne (hc.symm.trans heq)
    · rw [Call.setting?, if_neg hc] at h
      cases h
  | _ => cases h

/-- A call that changes a setting does nothing else. -/
theorem Call.after_of_setting {call : Call} {s : TypeSetting} (h : call.setting? c = some s)
    (e : Engine) : call.after e = e.updateConfiguration c s.on := by
  cases call with
  | step c' step =>
    by_cases hc : c' = c
    · subst hc
      rw [Call.setting?, if_pos rfl] at h
      cases step with
      | culture name =>
        cases hparsed : Culture.parse name with
        | error f =>
          rw [TypeStep.setting?, hparsed] at h
          cases h
        | ok culture =>
          rw [TypeStep.setting?, hparsed] at h
          cases h
          have hlift : lift (Culture.parse name) e = (.ok culture, e) := by rw [hparsed]; rfl
          show ((lift (Culture.parse name) >>= _ : Action Nat) e).2 = _
          rw [bind_ok hlift]
          rfl
      | _ => cases h <;> rfl
    · rw [Call.setting?, if_neg hc] at h
      cases h
  | _ => cases h

/-- What a build keeps is kept by a call that builds: it does nothing else, but for its report. -/
theorem Call.after_of_build {I : Engine → Prop} [Steady I] {call : Call}
    (hbuilds : call.builds? = some c) (h : I (Action.build c e).2) : I (call.after e) := by
  have hgoes : ∀ {f : List Rule → Action Nat}, (∀ rs, Keeps I (f rs)) →
      I ((Action.build c >>= f) e).2 := by
    intro f hf
    rw [bind_apply]
    rcases hrun : Action.build c e with ⟨r | rs, e'⟩ <;> rw [hrun] at h
    · exact h
    · exact (hf rs e' h).1
  cases call with
  | build c' =>
    cases hbuilds
    exact hgoes fun _ => .pure trivial
  | step c' s =>
    cases s with
    | build =>
      cases hbuilds
      exact hgoes fun rs => .andThen (view_keeps rs) fun _ => .andThen (report_keeps _) fun _ =>
        .pure trivial
    | _ => cases hbuilds
  | _ => cases hbuilds

/-- **What a call does to what is gathered**: certain deeds only, and the registration of everything
by a build that ends well. -/
theorem Call.after_done {A : Deed → Prop} {call : Call} (hA : ∀ d, call.Does e d → A d) :
    Edits A e (call.after e) ∨ ∃ c mid mid' rs, call.builds? = some c ∧
      (Action.build c e).1 = .ok rs ∧ Edits A e mid ∧ mid.Registers c rs mid' ∧
      Edits A mid' (call.after e) := by
  cases hbuilds : call.builds? with
  | none => exact .inl (Call.after_edits hA hbuilds)
  | some c =>
    have hforget : e.PutsAway A c := fun hrefused p hp =>
      hA _ (.forget hbuilds hrefused ⟨p, hp, rfl⟩)
    rcases build_edits hforget with hedits | ⟨mid, rs, hok, hedits, hregisters⟩
    · exact .inl (Call.after_of_build hbuilds hedits)
    · exact .inr ⟨c, mid, _, rs, rfl, hok, hedits, hregisters,
        Call.after_of_build hbuilds (.refl _)⟩

/-- **What a call without nested rules does** if it changes no setting. -/
theorem Call.after_cases {call : Call} (hnest : call.Nestless)
    (h : ∀ c, call.setting? c = none) (e : Engine) :
    e.Moves (call.after e) ∨
    (∃ mid cfg, e.Moves mid ∧ mid.Lists cfg (call.after e)) ∨
    ∃ c, call.builds? = some c ∧ (Action.build c e).2.Moves (call.after e) := by
  cases call with
  | configure t => exact (configure_cases t e).imp_right .inl
  | build c => exact .inr (.inr ⟨c, rfl, Call.after_of_build rfl (.refl _)⟩)
  | nest b element => cases hnest
  | step c s =>
    cases s with
    | build => exact .inr (.inr ⟨c, rfl, Call.after_of_build rfl (.refl _)⟩)
    | switch t =>
      have hcommit := (commit_moves c e (.refl e)).1
      show e.Moves ((commit c >>= _ : Action Nat) e).2 ∨ (∃ mid cfg, e.Moves mid ∧
        mid.Lists cfg ((commit c >>= _ : Action Nat) e).2) ∨ _
      rw [bind_apply]
      rcases hput : commit c e with ⟨f | done, e₁⟩ <;> rw [hput] at hcommit
      · exact .inl hcommit
      · rcases configure_cases t e₁ with hmoves | ⟨mid, cfg, hmoves, hlists⟩
        · exact .inl (hcommit.trans hmoves)
        · exact .inr (.inl ⟨mid, cfg, hcommit.trans hmoves, hlists⟩)
    | culture name =>
      have hnone := h c
      rw [Call.setting?, if_pos rfl, TypeStep.setting?] at hnone
      cases hparsed : Culture.parse name with
      | ok culture =>
        rw [hparsed] at hnone
        cases hnone
      | error f =>
        have hlift : lift (Culture.parse name) e = (.error f, e) := by rw [hparsed]; rfl
        refine .inl ?_
        show e.Moves ((lift (Culture.parse name) >>= _ : Action Nat) e).2
        rw [bind_error hlift]
        exact .refl e
    | resource name =>
      have hnone := h c
      rw [Call.setting?, if_pos rfl] at hnone
      cases hnone
    | fallback text =>
      have hnone := h c
      rw [Call.setting?, if_pos rfl] at hnone
      cases hnone
    | withoutConventionalKeys =>
      have hnone := h c
      rw [Call.setting?, if_pos rfl] at hnone
      cases hnone
    | _ => exact .inl (Call.after_moves (by trivial) e)
  | _ => exact .inl (Call.after_moves (by trivial) e)

theorem Booked.build (h : e.Booked) (c : Nat) : (Action.build c e).2.Booked := by
  rcases Action.build_cases c e with hmoves | ⟨mid, rs, -, hmoves, hregisters⟩
  · exact h.moves hmoves
  · exact (h.moves hmoves).registers hregisters

/-- **Configurations stay listed** by a call without nested rules. -/
theorem Booked.after (h : e.Booked) {call : Call} (hnest : call.Nestless) :
    (call.after e).Booked := by
  by_cases hset : ∀ c, call.setting? c = none
  · rcases Call.after_cases hnest hset e with hmoves | ⟨mid, cfg, hmoves, hlists⟩ | ⟨c, -, hmoves⟩
    · exact h.moves hmoves
    · exact (h.moves hmoves).lists hlists
    · exact (h.build c).moves hmoves
  · obtain ⟨c, hc⟩ := not_forall.mp hset
    obtain ⟨s, hs⟩ := Option.ne_none_iff_exists'.mp hc
    rw [Call.after_of_setting hs]
    exact h.setting s c

/-- **And by all calls**, one after the other. -/
theorem Booked.afterCalls (h : e.Booked) (hnest : ∀ call ∈ calls, call.Nestless) :
    (e.afterCalls calls).Booked := by
  induction calls generalizing e with
  | nil => exact h
  | cons call rest ih =>
    obtain ⟨hfirst, hrest⟩ := List.forall_mem_cons.mp hnest
    exact ih (h.after hfirst) hrest

/-- Nothing is listed before anything has been configured. -/
theorem booked_of_nothing (h : e.configurations = []) : e.Booked where
  listed c hc := by
    rw [h] at hc
    cases hc
  known c hc := by
    rw [h] at hc
    cases hc

end Engine
end MemberRules
