/-
# Builds and hidden settings

Building completes rules with the settings of the configuration.  So from two engines that differ
in hidden settings, the build of a hidden configuration makes rules that differ in theirs, and the
build of any other one makes the same.  A builder is listed by its owner only, and what it holds is
not yet registered; so completing rules where they are held changes none that is shown.

* `Engine.Unshown.amend`, `Numbered.unshown`: rules of hidden builders are not shown.
* `Engine.Counterpart`: the configuration as the two builds see it.
* `…_matches`: the parts of gathering.
* `build_veiled`: building.
* `Call.after_veiled`: calls.
-/
import MemberRules.Proofs.Configuration.Turns
import MemberRules.Proofs.Configuration.Numbering
import MemberRules.Proofs.Inheriting.Steps

namespace MemberRules

open MemberRules.Computation Engine

variable {K : List SettingKind} {H L : Set Nat} {e e' e₀ : Engine} {b c id : Nat} {r r' : Rule}
  {cfg cfg' : Configuration}

/-! ## 1. Rules that are not shown -/

/-- The same settings complete a rule in the same way. -/
theorem Configuration.SameSettings.complete_eq (h : cfg.SameSettings cfg') :
    cfg'.complete = cfg.complete := by
  funext r
  unfold Configuration.complete
  rw [h.resource, h.culture, h.fallback, h.conventionalKeys]

theorem Rule.Veiled.complete {hidden : Prop} (hr : r.Veiled K hidden r')
    (hbare : cfg'.bare K = cfg.bare K) (hcfg : ¬ hidden → cfg.SameSettings cfg') :
    (cfg.complete r).Veiled K hidden (cfg'.complete r') where
  bare := by rw [Configuration.bare_complete, hbare, hr.bare, ← Configuration.bare_complete]
  shown h := by rw [hr.shown h, (hcfg h).complete_eq]

/-- A configuration is idle or not, whatever its settings are. -/
theorem Configuration.isIdle_eq (hbare : cfg'.bare K = cfg.bare K)
    (hchanged : cfg'.settingsChanged = cfg.settingsChanged) : cfg'.isIdle = cfg.isIdle := by
  unfold isIdle
  rw [hchanged, read_eq (f := pending) (fun _ => rfl) hbare,
    read_eq (f := builders) (fun _ => rfl) hbare, read_eq (f := providers) (fun _ => rfl) hbare]

namespace Engine

theorem SameWork.hides (h : e₀.SameWork e) {t : TypeId} (hhides : e.Hides H t) : e₀.Hides H t :=
  hhides.of_same (by rw [h.configurations]) fun c _ => by rw [h.configuration]

/-- Numbers of rules stay what they are. -/
theorem Unshown.amend {f : Rule → Rule} (hf : ∀ r, (f r).id = r.id) (h : e.Unshown H id) (n : Nat) :
    (e.amend n f).Unshown H id := by
  have hid : ∀ r : Rule, (if r.id == n then f r else r).id = r.id := fun r => by
    split
    · exact hf r
    · rfl
  constructor
  · intro t ht g hg r hr
    have hshown : ¬ e.Hides H t := fun hhides =>
      ht (hhides.of_same (List.length_map ..).ge fun c _ => by rw [configuration_amend])
    rw [show (e.amend n f).registry.allGroups t = _ from Registry.allGroups_amend ..] at hg
    obtain ⟨g₀, hg₀, rfl⟩ := List.mem_map.mp hg
    obtain ⟨r₀, hr₀, rfl⟩ := List.mem_map.mp hr
    rw [hid]
    exact h.registered t hshown g₀ hg₀ r₀ hr₀
  · intro b hb r hr
    rw [builder_amend] at hb hr
    obtain ⟨r₀, hr₀, rfl⟩ := List.mem_map.mp hr
    rw [hid]
    exact h.held b hb r₀ hr₀

instance (id : Nat) : Stable (Unshown H id) where
  of_sameWork {e e'} hsame he := by
    constructor
    · intro t ht
      rw [hsame.registry]
      exact he.registered t fun hhides => ht (hhides.of_same (by rw [hsame.configurations])
        fun c _ => by rw [hsame.configuration])
    · intro b
      rw [hsame.builder]
      exact he.held b

theorem Veiled.amendAll {f f' : Rule → Rule} (hid : ∀ r, (f r).id = r.id)
    (hf : ∀ r r' : Rule, r'.bare K = r.bare K → (f' r').bare K = (f r).bare K) {rs rs' : List Rule}
    (hrs : List.Forall₂ (fun r r' => r'.id = r.id) rs rs') (h : e.Veiled K H L e')
    (hshown : f' = f ∨ ∀ r ∈ rs, e.Unshown H r.id) :
    (e.amendAll f rs).Veiled K H L (e'.amendAll f' rs') := by
  induction hrs generalizing e e' with
  | nil => exact h
  | @cons r r' rs rs' hr _ ih =>
    have hfirst : (e.amend r.id f).Veiled K H L (e'.amend r'.id f') := by
      rw [hr]
      exact h.amend r.id hf (hshown.imp_right fun h => h r (.head _))
    exact ih hfirst (hshown.imp_right fun h x hx => (h x (.tail _ hx)).amend hid r.id)

/-- Rules that a hidden configuration will register are not shown. -/
theorem Tidy.unshown (h : e.Tidy) (hc : c ∈ H) (hb : b ∈ (e.configuration c).builders)
    (hr : r ∈ (e.builder b).rules) : e.Unshown H r.id := by
  constructor
  · intro t _ g hg x hx heq
    have hthere : x ∈ e.registry.rulesOf t :=
      List.mem_flatMap.mpr ⟨g, List.mem_filter.mpr ⟨hg, by
        simpa using List.ne_nil_of_mem hx⟩, hx⟩
    have hlisted := h.keyed.registry.mem_rulesOfMember hthere
    exact h.numbered.waiting c b hb r hr t _ x hlisted (.inl heq)
  · intro b' hb' x hx heq
    have hne : b' ≠ b := fun hsame => hb' (by
      rw [hsame, (h.numbered.owned c b hb).2]
      exact hc)
    exact h.numbered.apart b' b hne x hx r hr heq

/-! ## 2. What two builds see -/

/-- The configuration that is built, as it is in two engines.  For a hidden type its settings may
differ; its builders are then hidden as well, or the settings are the same after all. -/
structure Counterpart (K : List SettingKind) (H : Set Nat) (e : Engine) (cfg cfg' : Configuration) :
    Prop where
  bare : cfg'.bare K = cfg.bare K
  changed : cfg'.settingsChanged = cfg.settingsChanged
  settings : ¬ e.Hides H cfg.type → cfg.SameSettings cfg'
  held : ¬ e.Hides H cfg.type → ∀ b ∈ cfg.builders, (e.builder b).owner ∉ H
  alone : cfg'.complete = cfg.complete ∨
    ∀ r ∈ (e.buildersOf cfg).flatMap fun b => b.2.rules, e.Unshown H r.id

theorem Counterpart.type (h : e.Counterpart K H cfg cfg') : cfg'.type = cfg.type :=
  Configuration.read_eq (f := Configuration.type) (fun _ => rfl) h.bare

theorem Counterpart.pending (h : e.Counterpart K H cfg cfg') : cfg'.pending = cfg.pending :=
  Configuration.read_eq (f := Configuration.pending) (fun _ => rfl) h.bare

theorem Counterpart.providers (h : e.Counterpart K H cfg cfg') : cfg'.providers = cfg.providers :=
  Configuration.read_eq (f := Configuration.providers) (fun _ => rfl) h.bare

theorem Counterpart.builders (h : e.Counterpart K H cfg cfg') : cfg'.builders = cfg.builders :=
  Configuration.read_eq (f := Configuration.builders) (fun _ => rfl) h.bare

/-- A configuration that is not loose is seen so. -/
theorem Veiled.counterpart (h : e.Veiled K H L e') (htidy : e.Tidy) (hloose : c ∉ L)
    (hc : c < e.configurations.length) :
    e.Counterpart K H (e.configuration c) (e'.configuration c) := by
  have hcfg := h.configuration c
  have hshown : ¬ e.Hides H (e.configuration c).type → c ∉ H := fun hhides hhidden =>
    hhides ⟨c, hc, hhidden, rfl⟩
  refine ⟨hcfg.bare, hcfg.changed hloose, fun hhides => hcfg.settings hloose (hshown hhides),
    fun hhides b hb => ?_, ?_⟩
  · rw [(htidy.numbered.owned c b hb).2]
    exact hshown hhides
  · by_cases hhidden : c ∈ H
    · refine .inr fun r hr => ?_
      rw [htidy.numbered.flatMap_buildersOf] at hr
      obtain ⟨b, hb, hr⟩ := mem_listedRules.mp hr
      exact htidy.unshown hhidden hb hr
    · exact .inl (hcfg.settings hloose hhidden).complete_eq

/-- Two engines of which the first one has come from an engine without any work done. -/
def Beside (K : List SettingKind) (H L : Set Nat) (e₀ e e' : Engine) : Prop :=
  e.Veiled K H L e' ∧ e₀.SameWork e

/-- Registered rules of a type differ in settings if it is hidden. -/
theorem Beside.rules (h : e₀.Beside K H L e e') (t : TypeId) :
    RulesVeiled K (e₀.Hides H t) (e.registry.rulesOf t) (e'.registry.rulesOf t) := by
  refine rulesVeiled_of_bare (h.1.registry.rulesOf t) fun hhides => ?_
  unfold Registry.rulesOf Registry.groupsOf
  rw [h.1.registry.shown t fun hhidden => hhides (h.2.hides hhidden)]

theorem Beside.rulesOfMember (h : e₀.Beside K H L e e') (t : TypeId) (k : MemberKey) :
    RulesVeiled K (e₀.Hides H t) (e.registry.rulesOfMember t k)
      (e'.registry.rulesOfMember t k) :=
  rulesVeiled_of_bare (h.1.registry.rulesOfMember t k) fun hhides =>
    h.1.registry.rulesOfMember_shown (fun hhidden => hhides (h.2.hides hhidden)) k

/-- The rules of the builders are the same, but for hidden settings. -/
theorem Beside.built (h : e₀.Beside K H L e e') (hboth : e₀.Counterpart K H cfg cfg') :
    RulesVeiled K (e₀.Hides H cfg.type)
      ((e.buildersOf cfg).flatMap fun b => b.2.rules)
      ((e'.buildersOf cfg').flatMap fun b => b.2.rules) := by
  have hsame : e'.buildersOf cfg' = e'.buildersOf cfg := by
    unfold buildersOf
    rw [hboth.builders]
  rw [hsame]
  refine rulesVeiled_of_bare ?_ fun hhides => ?_
  · have hbare : ∀ xs : List (Nat × Builder), (xs.flatMap fun b => b.2.rules).map (Rule.bare K) =
        (xs.map fun x => (x.1, x.2.bare K)).flatMap fun b => b.2.rules := fun xs => by
      rw [List.map_flatMap, List.flatMap_map]
      rfl
    rw [hbare, h.1.buildersOf, ← hbare]
  · refine congrArg (List.flatMap _) ?_
    unfold buildersOf
    refine List.filterMap_congr fun b hb => ?_
    have howner : (e.builder b).owner ∉ H := by
      rw [h.2.builder]
      exact hboth.held hhides b hb
    rw [getElem?_builders, getElem?_builders, h.1.size, (h.1.builder b).held howner]

end Engine

namespace Action

variable {α β : Type} {R : Engine → Engine → Prop} {hidden : Prop}

/-! ## 3. Gathering -/

/-- A step that does no work. -/
theorem respects_beside {x : Action α} (h : Respects (Veiled K H L) x)
    (hkeeps : Keeps (SameWork e₀) x) : Respects (e₀.Beside K H L) x := fun e e' he =>
  have hagree := h e e' he.1
  ⟨hagree.1, hagree.2, (hkeeps e he.2).1⟩

theorem freshId_beside : Respects (e₀.Beside K H L) freshId :=
  respects_beside freshId_veiled freshId_keeps

/-- A rule that was made, in two ways. -/
theorem made_matches {x : Action Rule} (hx : Respects R x) {f g : Rule → Rule}
    (h : ∀ r, (f r).Veiled K hidden (g r)) :
    Matches R (Rule.Veiled K hidden) (do return f (← x)) (do return g (← x)) :=
  .bind (.of_respects hx) fun r _ heq => heq ▸ .pure (h r)

theorem copied_matches (hid : Respects R freshId) (h : r.Veiled K hidden r') :
    Matches R (Rule.Veiled K hidden) (copied r) (copied r') := by
  refine .bind (.of_respects hid) fun id _ heq => heq ▸ .pure ⟨?_, fun hshown => ?_⟩
  · exact congrArg (fun r : Rule => { r with id }) h.bare
  · rw [h.shown hshown]

theorem copies_match (hid : Respects R freshId) {rs rs' : List Rule}
    (h : RulesVeiled K hidden rs rs') :
    Matches R (RulesVeiled K hidden) (rs.mapM copied) (rs'.mapM copied) :=
  .mapM (P := Rule.Veiled K hidden) (fun _ _ => copied_matches hid) h

theorem newCarrier_respects (hid : Respects R freshId) (t : TypeId) (m : MemberRef)
    (kind : String) : Respects R (newCarrier t m kind) := .bind hid fun _ => .pure _

/-- A check that was gathered makes the same rule, but for settings. -/
theorem pendingRule_matches (hboth : e₀.Counterpart K H cfg cfg') (p : PendingRule)
    (k : PendingCheck) :
    Matches (e₀.Beside K H L) (Rule.Veiled K (e₀.Hides H cfg.type)) (pendingRule cfg p k)
      (pendingRule cfg' p k) := by
  unfold pendingRule
  rw [hboth.type]
  exact made_matches (respects_beside (newRule_veiled _ _ _ _) (newRule_keeps _ _ _ _)) fun _ =>
    (Rule.Veiled.refl _ _).complete hboth.bare hboth.settings

/-- Declared rules of a member stay alike with what was gathered for it. -/
theorem declaredWith_veiled (hboth : e₀.Counterpart K H cfg cfg') (p : PendingRule)
    (hr : r.Veiled K (e₀.Hides H cfg.type) r') :
    (declaredWith cfg p r).Veiled K (e₀.Hides H cfg.type) (declaredWith cfg' p r') := by
  let set : Rule → Rule := fun r => { r with
    gate := if p.conditioned then p.gate else r.gate
    message := p.message.or r.message
    errorKey := (Message.present p.code).or r.errorKey
    resourceKey := (Message.present p.resourceKey).or r.resourceKey }
  have hset : (set r).Veiled K (e₀.Hides H cfg.type) (set r') :=
    ⟨congrArg set hr.bare, fun h => congrArg set (hr.shown h)⟩
  exact hset.complete hboth.bare hboth.settings

theorem pendingRules_matches (hboth : e₀.Counterpart K H cfg cfg') (p : PendingRule) :
    Matches (e₀.Beside K H L) (RulesVeiled K (e₀.Hides H cfg.type))
      (pendingRules cfg p) (pendingRules cfg' p) := by
  unfold pendingRules
  split
  · intro e e' he
    rw [bind_ok (get_apply e), bind_ok (get_apply e'), hboth.type]
    have hmade := ((he.rulesOfMember cfg.type p.member.key).filter
      (p := fun r => r.source == .declared) fun _ => rfl).map fun _ _ =>
        declaredWith_veiled hboth p
    refine Matches.bind (copies_match freshId_beside hmade) (fun rs rs' hrs => ?_) e e' he
    refine .bind (.of_respects (newCarrier_respects freshId_beside _ _ _)) fun r _ heq => heq ▸ ?_
    exact .pure (List.rel_append hrs (.cons (.refl _ _) .nil))
  · exact .mapM (fun k _ heq => heq ▸ pendingRule_matches hboth p k)
      (List.forall₂_same.mpr fun _ _ => rfl)

theorem recompleted_matches (hboth : e₀.Counterpart K H cfg cfg') :
    Matches (e₀.Beside K H L) (RulesVeiled K (e₀.Hides H cfg.type))
      (recompleted cfg) (recompleted cfg') := by
  intro e e' he
  unfold recompleted
  rw [bind_ok (get_apply e), bind_ok (get_apply e'), hboth.type]
  have hmade := ((he.rules cfg.type).filter (p := Rule.hasCheck) fun _ => rfl).map fun _ _ hr =>
    hr.complete hboth.bare hboth.settings
  exact copies_match freshId_beside hmade e e' he

/-- **The rules of the builders** are completed where they are held. -/
theorem builderRules_matched (hboth : e₀.Counterpart K H cfg cfg') (he : e₀.Beside K H L e e') :
    Matched (Veiled K H L) (RulesVeiled K (e₀.Hides H cfg.type))
      (builderRules cfg e) (builderRules cfg' e') := by
  have hrun : ∀ cfg e, builderRules cfg e =
      (.ok (((e.buildersOf cfg).flatMap fun b => b.2.rules).map cfg.complete),
        e.amendAll cfg.complete ((e.buildersOf cfg).flatMap fun b => b.2.rules)) := fun cfg e => by
    unfold builderRules
    rw [bind_ok (get_apply e)]
    exact bind_ok (forM_amend_apply _ _ e)
  have hbuilt := he.built hboth
  rw [hrun, hrun]
  refine .ok (hbuilt.map fun _ _ hr => hr.complete hboth.bare hboth.settings) ?_
  have hids := hbuilt.imp fun r r' hr => Rule.read_eq (f := Rule.id) (fun _ => rfl) hr.bare
  have halone : cfg'.complete = cfg.complete ∨
      ∀ r ∈ (e.buildersOf cfg).flatMap fun b => b.2.rules, e.Unshown H r.id :=
    hboth.alone.imp_right fun h r hr => Stable.of_sameWork he.2 (h r (by
      unfold buildersOf at hr ⊢
      rwa [he.2.builders] at hr))
  refine Veiled.amendAll (f := cfg.complete) (fun _ => rfl) (fun r r' hr => ?_) hids he.1 halone
  rw [Configuration.bare_complete, hboth.bare, hr, ← Configuration.bare_complete]

/-- The carriers of value providers. -/
theorem providerRule_matches (hboth : e₀.Counterpart K H cfg cfg') (p : MemberRef × Expr) :
    Matches (Veiled K H L) (Rule.Veiled K hidden) (providerRule cfg p) (providerRule cfg' p) := by
  unfold providerRule
  rw [hboth.type]
  exact made_matches (newCarrier_respects freshId_veiled _ _ _) fun _ => .refl _ _

theorem gatherAfter_matched (hboth : e₀.Counterpart K H cfg cfg') {again again' : List Rule}
    (hagain : RulesVeiled K (e₀.Hides H cfg.type) again again') (he : e₀.Beside K H L e e') :
    Matched (Veiled K H L) (RulesVeiled K (e₀.Hides H cfg.type)) (gatherAfter cfg again e)
      (gatherAfter cfg' again' e') := by
  have hpending : Matches (e₀.Beside K H L) (List.Forall₂ (RulesVeiled K (e₀.Hides H cfg.type)))
      (cfg.pending.mapM (pendingRules cfg)) (cfg'.pending.mapM (pendingRules cfg')) := by
    rw [hboth.pending]
    exact .mapM (fun p _ heq => heq ▸ pendingRules_matches hboth p)
      (List.forall₂_same.mpr fun _ _ => rfl)
  have hproviders : Matches (Veiled K H L) (RulesVeiled K (e₀.Hides H cfg.type))
      (cfg.providers.mapM (providerRule cfg)) (cfg'.providers.mapM (providerRule cfg')) := by
    rw [hboth.providers]
    exact .mapM (fun p _ heq => heq ▸ providerRule_matches hboth p)
      (List.forall₂_same.mpr fun _ _ => rfl)
  refine (hpending e e' he).bind (fun _ _ h => h.1) fun xss xss' hxss e₁ e₁' he₁ => ?_
  refine (builderRules_matched hboth he₁).bind (fun _ _ h => h) fun rs rs' hrs e₂ e₂' he₂ => ?_
  refine (hproviders e₂ e₂' he₂).bind (fun _ _ h => h) fun ps ps' hps e₃ e₃' he₃ => ?_
  exact .ok (List.rel_append (List.rel_append (List.rel_append hagain (List.rel_flatten hxss)) hrs)
    hps) he₃

/-- **What two builds gather** differs in settings, if the type is hidden. -/
theorem gather_matched (hboth : e.Counterpart K H cfg cfg') (he : e.Veiled K H L e') :
    Matched (Veiled K H L) (RulesVeiled K (e.Hides H cfg.type)) (gather cfg e)
      (gather cfg' e') := by
  have hbeside : e.Beside K H L e e' := ⟨he, rfl, rfl, rfl⟩
  rw [gather_eq, gather_eq, Configuration.isIdle_eq hboth.bare hboth.changed, hboth.changed]
  cases cfg.isIdle with
  | true => exact .ok .nil he
  | false =>
    cases cfg.settingsChanged with
    | true =>
      exact (recompleted_matches hboth e e' hbeside).bind (fun _ _ h => h.1)
        fun again again' hagain e₁ e₁' he₁ => gatherAfter_matched hboth hagain he₁
    | false => exact gatherAfter_matched hboth .nil hbeside

/-! ## 4. Building -/

theorem emptied_veiled (he : e.Veiled K H L e') (c : Nat) (rs rs' : List Rule) :
    (e.updateConfiguration c fun cfg =>
      { cfg.emptied with lastBuild := rs, settingsChanged := false }).Veiled K H L
      (e'.updateConfiguration c fun cfg =>
        { cfg.emptied with lastBuild := rs', settingsChanged := false }) := by
  have hcfg := he.configuration c
  refine he.updateConfiguration c (fun _ => rfl) ⟨?_, fun _ => rfl, fun hloose hhidden => ?_⟩
  · exact congrArg Configuration.emptied hcfg.bare
  · have hsame := hcfg.settings hloose hhidden
    exact ⟨hsame.type, hsame.culture, hsame.resource, hsame.fallback, hsame.conventionalKeys, rfl⟩

theorem finish_veiled (htype : cfg'.type = cfg.type) {rs rs' : List Rule}
    (hrs : RulesVeiled K (e.Hides H cfg.type) rs rs') (he : e.Veiled K H L e') :
    (finish c cfg rs e).2.Veiled K H L (finish c cfg' rs' e').2 := by
  have hlength := hrs.length_eq
  have hmembers : (rs'.map fun r => r.member.key) = rs.map fun r => r.member.key := by
    rw [← List.forall₂_eq_eq_eq, List.forall₂_map_left_iff, List.forall₂_map_right_iff]
    exact hrs.flip.imp fun r' r hr =>
      Rule.read_eq (f := fun r => r.member.key) (fun _ => rfl) hr.bare
  have hadded := he.updateRegistry (he.registry.addAll cfg.type hrs)
  have hnoted : Respects (Veiled K H L) (do
      noteAdded cfg.type rs.length true
      note "builder" "type_built"
        [("model_type", .text cfg.type.name), ("rules", .int rs.length),
          ("members", .int (rs.map fun r => r.member.key).eraseDups.length)]) :=
    .bind (.bind (mark_veiled _ true) fun _ => note_veiled _ _ _) fun _ => note_veiled _ _ _
  have hleft := emptied_veiled (hnoted _ _ hadded).2 c rs rs'
  unfold finish addRules
  rw [htype, ← hlength, hmembers]
  exact hleft

/-- **Building** leaves engines that differ in hidden settings, as long as it is not a configuration
that is loose. -/
theorem build_veiled (hloose : c ∉ L) (htidy : e.Tidy) (he : e.Veiled K H L e') :
    (build c e).2.Veiled K H L (build c e').2 := by
  have hcommit := (commit_tidy c e htidy).1
  obtain ⟨hresult, hput⟩ := commit_veiled c e e' he
  rw [build_eq, bind_apply, bind_apply]
  rcases hrun : commit c e with ⟨f | done, e₁⟩ <;>
    rcases hrun' : commit c e' with ⟨f' | done', e₁'⟩ <;>
    rw [hrun, hrun'] at hresult hput <;> rw [hrun] at hcommit <;> cases hresult
  · exact hput
  dsimp only
  have hcfg := hput.configuration c
  rw [configuration_bind, configuration_bind,
    Configuration.isIdle_eq hcfg.bare (hcfg.changed hloose)]
  cases hcase : (e₁.configuration c).isIdle with
  | true =>
    rw [if_pos rfl, if_pos rfl, hput.type c]
    exact hput.updateRegistry (hput.registry.mark _ true)
  | false =>
    have hc : c < e₁.configurations.length := by
      by_contra hge
      have hdefault : e₁.configuration c = default := by
        rw [Engine.configuration, List.getElem?_eq_none (Nat.le_of_not_lt hge), Option.getD_none]
      rw [hdefault] at hcase
      cases hcase
    have hboth := hput.counterpart hcommit hloose hc
    have hsequel := (gather_moves (e₁.configuration c) e₁ (.refl e₁)).1.sequel
    have hgathered := gather_matched hboth hput
    simp only [Bool.false_eq_true, if_false]
    rw [bind_apply, bind_apply]
    generalize gather (e₁.configuration c) e₁ = p at hsequel hgathered ⊢
    generalize gather (e₁'.configuration c) e₁' = q at hgathered ⊢
    cases hgathered with
    | error f hleft => exact hleft
    | ok hrs hleft =>
      refine finish_veiled hboth.type (hrs.imp fun _ _ hr => hr.mono fun hhides => ?_) hleft
      exact hhides.of_same hsequel.length.ge fun c _ => (hsequel.settings c).type

end Action

/-! ## 5. Calls -/

namespace Engine

open Action

/-- If the settings around a block of nested rules are hidden or loose, the configuration of the
block is hidden. -/
def Call.Inherits (H L : Set Nat) (e : Engine) : Call → Prop
  | nest b element => (e.builder b).owner ∈ H ∪ L →
    ∀ child, ((nest b element).run e).1 = .ok child → child ∈ H
  | _ => True

/-- What is only reported makes no difference. -/
theorem Veiled.reporting {α β : Type} {x : Action α} {f : α → Action β}
    (hf : ∀ a e, ∃ rs, (f a e).2 = { e with reports := rs }) (h : (x e).2.Veiled K H L (x e').2) :
    ((x >>= f) e).2.Veiled K H L ((x >>= f) e').2 := by
  have hleft : ∀ e, ∃ rs, ((x >>= f) e).2 = { (x e).2 with reports := rs } := fun e => by
    rw [bind_apply]
    rcases x e with ⟨r | a, e₁⟩
    · exact ⟨e₁.reports, rfl⟩
    · exact hf a e₁
  obtain ⟨rs, hrs⟩ := hleft e
  obtain ⟨rs', hrs'⟩ := hleft e'
  rw [hrs, hrs']
  exact h.report rs rs'

theorem view_report (rs : List Rule) (n : Nat) (e : Engine) :
    ∃ reports, ((do report (.rules (← view rs)); return n : Action Nat) e).2 =
      { e with reports } := by
  have hsame := (view_keeps (I := fun e₁ => e₁ = e) rs e rfl).1
  rw [bind_apply]
  rcases hrun : view rs e with ⟨f | vs, e₁⟩ <;> rw [hrun] at hsame <;> cases hsame
  · exact ⟨e₁.reports, rfl⟩
  · exact ⟨e₁.reports ++ [.rules vs], rfl⟩

theorem guardRules_bare (g : Guard) (rs : List Rule) :
    guardRules g (rs.map (Rule.bare K)) = guardRules g rs := by
  unfold guardRules
  induction rs with
  | nil => rfl
  | cons r rs ih => exact congrArg (_ >>= ·) (funext fun _ => ih)

theorem nest_veiled {element : Option TypeId} (hinherits : (Call.nest b element).Inherits H L e)
    (he : e.Veiled K H L e') :
    Agree (Veiled K H L) ((Call.nest b element).run e) ((Call.nest b element).run e') := by
  obtain ⟨hresult, hleft⟩ := nestedType_veiled b element e e' he
  have hsame := (nestedType_keeps (I := SameWork e) b element e ⟨rfl, rfl, rfl⟩).1
  have hrun : ∀ e, (Call.nest b element).run e =
      (nestedType b element >>= fun t => Action.builder b >>= fun x => newChild x.owner t) e :=
    fun _ => rfl
  rw [hrun, bind_apply, hrun, bind_apply]
  rcases hx : nestedType b element e with ⟨f | t, e₁⟩ <;>
    rcases hy : nestedType b element e' with ⟨f' | t', e₁'⟩ <;>
    rw [hx, hy] at hresult hleft <;> rw [hx] at hsame <;> cases hresult
  · exact ⟨rfl, hleft⟩
  · show Agree (Veiled K H L) (newChild (e₁.builder b).owner t e₁)
      (newChild (e₁'.builder b).owner t e₁')
    rw [hleft.owner]
    refine newChild_veiled hleft fun child e₂ hchild => ?_
    rw [hsame.builder b]
    refine or_iff_not_imp_right.mpr fun howner => ?_
    have hmade : (Call.nest b element).run e = newChild (e₁.builder b).owner t e₁ := by
      rw [hrun, bind_ok hx]
      rfl
    have hout : (e.builder b).owner ∈ H ∪ L := by
      by_contra hno
      exact howner ⟨fun h => hno (.inl h), fun h => hno (.inr h)⟩
    exact hinherits hout child (congrArg Prod.fst (hmade.trans (bind_ok hchild)))

/-- A setting is changed in both engines. -/
theorem setting_veiled (s : TypeSetting) (c : Nat) :
    Respects (Veiled K H L) (Action.updateConfiguration c s.on) := by
  refine .change fun e e' he => he.updateConfiguration c s.on_type ?_
  have hcfg := he.configuration c
  refine ⟨?_, fun _ => ?_, fun hloose hhidden => ?_⟩
  · rw [Configuration.bare_on, hcfg.bare, ← Configuration.bare_on]
  · rw [s.on_settingsChanged, s.on_settingsChanged]
  · exact (hcfg.settings hloose hhidden).on s

/-- **A call** leaves engines that differ in hidden settings, if it builds no configuration that is
loose, and settings that are hidden or loose are inherited by hidden configurations only. -/
theorem Call.after_veiled {call : Call} (hloose : ∀ c, call.builds? = some c → c ∉ L)
    (hinherits : call.Inherits H L e) (htidy : e.Tidy) (he : e.Veiled K H L e') :
    (call.after e).Veiled K H L (call.after e') := by
  have hall : Respects (Veiled K H L) call.run → (call.after e).Veiled K H L (call.after e') :=
    fun h => (h e e' he).2
  cases call with
  | configure t => exact hall (configure_veiled t)
  | build c =>
    exact .reporting (fun _ e => ⟨e.reports, rfl⟩) (build_veiled (hloose c rfl) htidy he)
  | check b s => exact hall (.bind (builderCheckStep_veiled b s) fun _ => .pure _)
  | closeBlock b place g last =>
    refine hall (builder_veiled (fun x => ?_) fun x => .bind (guardRules_veiled g _) fun _ =>
      .bind (.change fun e e' he => he.updateBuilder b (fun _ => rfl) fun x x' hx => ?_) fun _ =>
        .pure _)
    · show (guardRules g ((x.rules.map (Rule.bare K)).drop place) >>= _) = _
      rw [← List.map_drop, guardRules_bare]
    · exact congrArg (fun x : Builder => { x with lastGuard := last }) hx
  | nest b element => exact (nest_veiled hinherits he).2
  | describe b => exact .reporting (fun x e => view_report x.rules b e) he
  | step c s =>
    have hgoes : ∀ {x : Action Unit}, Respects (Veiled K H L) x →
        Respects (Veiled K H L) (do x; return c) := fun hx => .bind hx fun _ => .pure _
    cases s with
    | check s => exact hall (hgoes (checkStep_veiled c s))
    | rule sel must message replace =>
      exact hall (hgoes (startRule_veiled c sel must message replace))
    | builder sel forEach name steps => exact hall (newBuilder_veiled c sel forEach name)
    | gate sel g =>
      exact hall (.bind (startGated_veiled c sel) fun _ => hgoes (updateCurrent_veiled c _))
    | exclude sel => exact hall (hgoes (exclude_veiled c sel))
    | always sel => exact hall (hgoes (always_veiled c sel))
    | resource name => exact hall (hgoes (setting_veiled (.resource name) c))
    | culture name =>
      exact hall (.bind (.lift _) fun value => hgoes (setting_veiled (.culture value) c))
    | fallback text => exact hall (hgoes (setting_veiled (.fallback text) c))
    | withoutConventionalKeys => exact hall (hgoes (setting_veiled .withoutConventionalKeys c))
    | enforce on =>
      exact hall (hgoes (updateConfiguration_veiled c (fun _ => rfl) fun _ => rfl))
    | dropMember sel kind => exact hall (hgoes (dropMember_veiled c sel kind))
    | keepOnly sel => exact hall (hgoes (keepOnly_veiled c sel))
    | clear => exact hall (hgoes (clear_veiled c))
    | switch t => exact hall (switch_veiled c t)
    | build =>
      exact .reporting (fun rs e => view_report rs c e) (build_veiled (hloose c rfl) htidy he)
    | describe =>
      exact .reporting (x := Action.configuration c) (fun cfg e => ⟨_, rfl⟩) he

end Engine
end MemberRules
