/-
# Plans of evaluations

A validation asks one thing of the objects after the other: whether a gate is open, what a member
holds, what a check says of it.  What it asks next depends on the answers, and the failures that it
finds are put together from them.  A plan is such a course of evaluations, without anything else
that happens on the way.

The members of an object are asked about one after the other, but a plan does not say in which order.
So it can be carried out in several ways, and these need not find the same: what one member is asked
may change what another one answers.  If what is asked for one member can be interchanged with what
is asked for another one, there is only one outcome: all ways find the same failures, up to their
order, and leave the same world.

* `Plan`, `Plan.Runs`: plans, and what they find when they are carried out.
* `Plan.Asks`: the evaluations that a plan can come to.
* `Eval.Interchange`: evaluations that come to the same in either order.
* `Plan.Apart`: plans whose members do not disturb each other.
* `Plan.Runs.confluent`: these have only one outcome.
* `Plan.apart_of_quiet`: members that change nothing do not disturb each other.
* `Plan.apart_of_steady`: nor do those of which one does not notice what the other one changes.
-/
import MemberRules.Proofs.Computation

namespace MemberRules

open MemberRules.Computation

/-- A course of evaluations that leads to failures. -/
inductive Plan : Type 1
  /-- Nothing more is asked. -/
  | finds (fs : List Failure)
  /-- It cannot be carried out. -/
  | fails
  /-- An evaluation, and what comes next after each answer. -/
  | ask {β : Type} (x : Eval β) (next : β → Plan)
  /-- One plan after the other. -/
  | both (first second : Plan)
  /-- The plans of members, one after the other in any order. -/
  | members (gs : List RuleGroup) (plan : RuleGroup → Plan)

namespace Plan

/-! ## 1. Carrying out a plan -/

/-- A plan that is carried out in a world finds failures, and leaves a world. -/
inductive Runs : Plan → World → List Failure → World → Prop
  | finds {fs : List Failure} {w : World} : Runs (.finds fs) w fs w
  | ask {β : Type} {x : Eval β} {next : β → Plan} {b : β} {w w₁ w₂ : World} {fs : List Failure} :
    x w = (.ok b, w₁) → Runs (next b) w₁ fs w₂ → Runs (.ask x next) w fs w₂
  | both {p q : Plan} {w w₁ w₂ : World} {fs fs' : List Failure} :
    Runs p w fs w₁ → Runs q w₁ fs' w₂ → Runs (.both p q) w (fs ++ fs') w₂
  | noMember {plan : RuleGroup → Plan} {w : World} : Runs (.members [] plan) w [] w
  /-- Any of the members can be the first one. -/
  | member {gs rest : List RuleGroup} {g : RuleGroup} {plan : RuleGroup → Plan} {w w₁ w₂ : World}
      {fs fs' : List Failure} :
    gs.Perm (g :: rest) → Runs (plan g) w fs w₁ → Runs (.members rest plan) w₁ fs' w₂ →
      Runs (.members gs plan) w (fs ++ fs') w₂

/-- The members of a plan have no order. -/
theorem Runs.perm {gs gs' : List RuleGroup} {plan : RuleGroup → Plan} {w w₁ : World}
    {fs : List Failure} (h : (members gs plan).Runs w fs w₁) (hperm : gs'.Perm gs) :
    (members gs' plan).Runs w fs w₁ := by
  cases h with
  | noMember =>
    obtain rfl := hperm.eq_nil
    exact .noMember
  | member hfirst hg hrest => exact .member (hperm.trans hfirst) hg hrest

/-! ## 2. What a plan asks -/

/-- The evaluations that a plan can come to, with the answers that the worlds of a scene give. -/
inductive Asks (scene : World → Prop) : Plan → {β : Type} → Eval β → Prop
  | here {β : Type} {x : Eval β} {next : β → Plan} : Asks scene (.ask x next) x
  | later {β γ : Type} {x : Eval β} {next : β → Plan} {b : β} {w w₁ : World} {y : Eval γ} :
    scene w → x w = (.ok b, w₁) → Asks scene (next b) y → Asks scene (.ask x next) y
  | first {p q : Plan} {γ : Type} {y : Eval γ} : Asks scene p y → Asks scene (.both p q) y
  | second {p q : Plan} {γ : Type} {y : Eval γ} : Asks scene q y → Asks scene (.both p q) y
  | member {gs : List RuleGroup} {g : RuleGroup} {plan : RuleGroup → Plan} {γ : Type} {y : Eval γ} :
    g ∈ gs → Asks scene (plan g) y → Asks scene (.members gs plan) y

end Plan

/-- An evaluation after which another one can come first: both give what they gave, and leave the
same world. -/
def Eval.Yields {β γ : Type} (scene : World → Prop) (x : Eval β) (y : Eval γ) : Prop :=
  ∀ w b w₁ c w₂, scene w → x w = (.ok b, w₁) → y w₁ = (.ok c, w₂) →
    ∃ w', y w = (.ok c, w') ∧ x w' = (.ok b, w₂)

/-- Evaluations that come to the same in either order. -/
def Eval.Interchange {β γ : Type} (scene : World → Prop) (x : Eval β) (y : Eval γ) : Prop :=
  x.Yields scene y ∧ y.Yields scene x

namespace Plan

variable {scene : World → Prop} {p q : Plan} {gs gs' rest : List RuleGroup} {g : RuleGroup}
  {plan : RuleGroup → Plan} {w w₁ w₂ : World} {fs fs' : List Failure}

/-- Two plans whose evaluations can be interchanged. -/
def Beside (scene : World → Prop) (p q : Plan) : Prop :=
  ∀ {β γ : Type} (x : Eval β) (y : Eval γ), p.Asks scene x → q.Asks scene y → x.Interchange scene y

theorem Beside.symm (h : Beside scene p q) : Beside scene q p := fun x y hx hy =>
  (h y x hy hx).symm

/-- A plan that stays in a scene, and whose members do not disturb each other. -/
def Apart (scene : World → Prop) : Plan → Prop
  | finds _ | fails => True
  | ask x next => ∀ w b w₁, scene w → x w = (.ok b, w₁) → scene w₁ ∧ (next b).Apart scene
  | both p q => p.Apart scene ∧ q.Apart scene
  | members gs plan => (∀ g ∈ gs, (plan g).Apart scene) ∧
    gs.Pairwise fun g g' => (plan g).Beside scene (plan g')

/-- What holds of the members of a plan holds in every order. -/
theorem Apart.perm (h : (members gs plan).Apart scene) (hperm : gs.Perm gs') :
    (members gs' plan).Apart scene :=
  ⟨fun g hg => h.1 g (hperm.mem_iff.mpr hg), h.2.perm hperm fun hbeside => hbeside.symm⟩

/-- What is left of a plan when one of its members has come first. -/
theorem Apart.split (h : (members gs plan).Apart scene) (hperm : gs.Perm (g :: rest)) :
    (plan g).Apart scene ∧ (members rest plan).Apart scene := by
  obtain ⟨heach, hpairs⟩ := Apart.perm h hperm
  obtain ⟨hg, hrest⟩ := List.forall_mem_cons.mp heach
  exact ⟨hg, hrest, hpairs.tail⟩

/-- **A plan stays in its scene.** -/
theorem Runs.stays (h : p.Runs w fs w₁) (hp : p.Apart scene) (hw : scene w) : scene w₁ := by
  induction h with
  | finds | noMember => exact hw
  | ask hx _ ih =>
    obtain ⟨hw₁, hnext⟩ := hp _ _ _ hw hx
    exact ih hnext hw₁
  | both _ _ ihp ihq => exact ihq hp.2 (ihp hp.1 hw)
  | member hperm _ _ ihg ihrest =>
    obtain ⟨hg, hrest⟩ := Apart.split hp hperm
    exact ihrest hrest (ihg hg hw)

/-! ## 3. Interchanging plans -/

/-- An evaluation that follows a plan can come before it.  The induction is on the way in which the
plan was carried out, so that the evaluation moves forward past one evaluation at a time. -/
theorem Runs.yields {γ : Type} {y : Eval γ} {c : γ} (h : p.Runs w fs w₁) (hp : p.Apart scene)
    (hw : scene w) (hy : y w₁ = (.ok c, w₂))
    (hyields : ∀ {β : Type} (x : Eval β), p.Asks scene x → x.Yields scene y) :
    ∃ w', y w = (.ok c, w') ∧ p.Runs w' fs w₂ := by
  induction h generalizing w₂ with
  | finds => exact ⟨w₂, hy, .finds⟩
  | noMember => exact ⟨w₂, hy, .noMember⟩
  | ask hx _ ih =>
    obtain ⟨hw₁, hnext⟩ := hp _ _ _ hw hx
    obtain ⟨w', hy', hrun⟩ := ih hnext hw₁ hy fun x' hx' => hyields x' (.later hw hx hx')
    obtain ⟨w'', hy'', hx''⟩ := hyields _ .here _ _ _ _ _ hw hx hy'
    exact ⟨w'', hy'', .ask hx'' hrun⟩
  | both hrunp _ ihp ihq =>
    have hmid := hrunp.stays hp.1 hw
    obtain ⟨w', hy', hrunq⟩ := ihq hp.2 hmid hy fun x hx => hyields x (.second hx)
    obtain ⟨w'', hy'', hrunp⟩ := ihp hp.1 hw hy' fun x hx => hyields x (.first hx)
    exact ⟨w'', hy'', .both hrunp hrunq⟩
  | member hperm hrung _ ihg ihrest =>
    obtain ⟨hg, hrest⟩ := Apart.split hp hperm
    have hmid := hrung.stays hg hw
    obtain ⟨w', hy', hrunrest⟩ := ihrest hrest hmid hy fun x hx => by
      cases hx with
      | member hmem hx =>
        exact hyields x (.member (hperm.mem_iff.mpr (List.mem_cons_of_mem _ hmem)) hx)
    obtain ⟨w'', hy'', hrung⟩ := ihg hg hw hy' fun x hx =>
      hyields x (.member (hperm.mem_iff.mpr List.mem_cons_self) hx)
    exact ⟨w'', hy'', .member hperm hrung hrunrest⟩

/-- **A plan that follows another one can come before it**, if their evaluations can be
interchanged. -/
theorem Runs.interchange (h' : q.Runs w₁ fs' w₂) (h : p.Runs w fs w₁) (hp : p.Apart scene)
    (hq : q.Apart scene) (hpq : Beside scene p q) (hw : scene w) :
    ∃ w', q.Runs w fs' w' ∧ p.Runs w' fs w₂ := by
  induction h' generalizing w with
  | finds => exact ⟨w, .finds, h⟩
  | noMember => exact ⟨w, .noMember, h⟩
  | ask hy _ ih =>
    obtain ⟨w', hy', hrun⟩ := h.yields hp hw hy fun x hx => (hpq x _ hx .here).1
    obtain ⟨hw', hnext⟩ := hq _ _ _ hw hy'
    obtain ⟨w'', hq', hp'⟩ := ih hrun hnext (fun x y hx hy => hpq x y hx (.later hw hy' hy)) hw'
    exact ⟨w'', .ask hy' hq', hp'⟩
  | both _ _ ihq ihq' =>
    obtain ⟨w', hfirst, hrun⟩ := ihq h hq.1 (fun x y hx hy => hpq x y hx (.first hy)) hw
    obtain ⟨w'', hsecond, hrun⟩ := ihq' hrun hq.2 (fun x y hx hy => hpq x y hx (.second hy))
      (hfirst.stays hq.1 hw)
    exact ⟨w'', .both hfirst hsecond, hrun⟩
  | member hperm _ _ ihg ihrest =>
    obtain ⟨hg, hrest⟩ := Apart.split hq hperm
    obtain ⟨w', hfirst, hrun⟩ := ihg h hg
      (fun x y hx hy => hpq x y hx (.member (hperm.mem_iff.mpr List.mem_cons_self) hy)) hw
    obtain ⟨w'', hsecond, hrun⟩ := ihrest hrun hrest (fun x y hx hy => by
      cases hy with
      | member hmem hy =>
        exact hpq x y hx (.member (hperm.mem_iff.mpr (List.mem_cons_of_mem _ hmem)) hy))
      (hfirst.stays hg hw)
    exact ⟨w'', .member hperm hfirst hsecond, hrun⟩

/-! ## 4. One outcome -/

/-- **Any member can be the first one.**  The induction is on the way in which the members were
carried out; the member moves forward past those that came before it. -/
theorem Runs.bring (h : (members gs plan).Runs w fs w₂) (hp : (members gs plan).Apart scene)
    (hw : scene w) (hperm : gs.Perm (g :: rest)) :
    ∃ fs₁ fs₂ w₁, (plan g).Runs w fs₁ w₁ ∧ (members rest plan).Runs w₁ fs₂ w₂ ∧
      fs.Perm (fs₁ ++ fs₂) := by
  generalize hall : members gs plan = all at h
  induction h generalizing gs rest with
  | finds | ask | both => cases hall
  | noMember =>
    cases hall
    exact absurd hperm.symm.eq_nil (List.cons_ne_nil _ _)
  | @member gs' rest' g' plan' w w₁ w₂ fs fs' hfirst hrun hrest ihg ih =>
    cases hall
    clear ihg
    obtain ⟨hg', hrest'⟩ := Apart.split hp hfirst
    by_cases hsame : g' = g
    · subst hsame
      exact ⟨fs, fs', w₁, hrun, hrest.perm (hperm.symm.trans hfirst).cons_inv, .refl _⟩
    · -- The member stands among the others, and is brought before them first.
      have hmem : g ∈ rest' := by
        have hg : g ∈ g' :: rest' := (hperm.symm.trans hfirst).mem_iff.mp List.mem_cons_self
        exact (List.mem_cons.mp hg).resolve_left (Ne.symm hsame)
      obtain ⟨before, after, rfl⟩ := List.append_of_mem hmem
      have hbring : (before ++ g :: after).Perm (g :: (before ++ after)) := List.perm_middle
      have hothers : rest.Perm (g' :: (before ++ after)) := by
        have hall : (g :: rest).Perm (g :: g' :: (before ++ after)) :=
          (hperm.symm.trans hfirst).trans ((hbring.cons g').trans (.swap _ _ _))
        exact hall.cons_inv
      obtain ⟨fs₁, fs₂, w', hrung, hrunothers, hfs⟩ :=
        ih hrest' (hrun.stays hg' hw) hbring rfl
      have hbeside : Beside scene (plan g') (plan g) :=
        (List.pairwise_cons.mp (Apart.perm hp hfirst).2).1 g hmem
      obtain ⟨w'', hrung', hrun'⟩ := hrung.interchange hrun hg' (hrest'.1 g hmem) hbeside hw
      refine ⟨fs₁, fs ++ fs₂, w'', hrung', .member hothers hrun' hrunothers, ?_⟩
      calc
        (fs ++ fs').Perm (fs ++ (fs₁ ++ fs₂)) := hfs.append_left fs
        _ = (fs ++ fs₁) ++ fs₂ := (List.append_assoc ..).symm
        List.Perm _ ((fs₁ ++ fs) ++ fs₂) := List.perm_append_comm.append_right fs₂
        _ = fs₁ ++ (fs ++ fs₂) := List.append_assoc ..

/-- **A plan whose members do not disturb each other has one outcome**, however it is carried out:
the failures are the same up to their order, and so is the world that is left. -/
theorem Runs.confluent (h : p.Runs w fs w₁) (h' : p.Runs w fs' w₂) (hp : p.Apart scene)
    (hw : scene w) : fs.Perm fs' ∧ w₁ = w₂ := by
  induction h generalizing fs' w₂ with
  | finds =>
    cases h'
    exact ⟨.refl _, rfl⟩
  | noMember =>
    cases h' with
    | noMember => exact ⟨.refl _, rfl⟩
    | member hperm _ _ => exact absurd hperm.symm.eq_nil (List.cons_ne_nil _ _)
  | ask hx _ ih =>
    cases h' with
    | ask hx' hrun' =>
      obtain ⟨hb, rfl⟩ := Prod.mk.inj (hx.symm.trans hx')
      obtain rfl := Except.ok.inj hb
      obtain ⟨hw₁, hnext⟩ := hp _ _ _ hw hx
      exact ih hrun' hnext hw₁
  | both hrunp _ ihp ihq =>
    cases h' with
    | both hp' hq' =>
      obtain ⟨hfirst, rfl⟩ := ihp hp' hp.1 hw
      obtain ⟨hsecond, rfl⟩ := ihq hq' hp.2 (hrunp.stays hp.1 hw)
      exact ⟨hfirst.append hsecond, rfl⟩
  | member hperm hrun _ ihg ihrest =>
    obtain ⟨fs₁, fs₂, w', hrung, hrunrest, hfs⟩ := h'.bring hp hw hperm
    obtain ⟨hg, hrest⟩ := Apart.split hp hperm
    obtain ⟨hfirst, rfl⟩ := ihg hrung hg hw
    obtain ⟨hsecond, rfl⟩ := ihrest hrunrest hrest (hrun.stays hg hw)
    exact ⟨(hfirst.append hsecond).trans hfs.symm, rfl⟩

/-! ## 5. Members that change nothing -/

/-- Evaluations that leave the worlds of a scene as they are can be interchanged. -/
theorem interchange_of_quiet {β γ : Type} {x : Eval β} {y : Eval γ}
    (hx : ∀ w b w₁, scene w → x w = (.ok b, w₁) → w₁ = w)
    (hy : ∀ w c w₁, scene w → y w = (.ok c, w₁) → w₁ = w) : x.Interchange scene y := by
  constructor
  · intro w b w₁ c w₂ hw hrunx hruny
    obtain rfl := hx w b w₁ hw hrunx
    obtain rfl := hy _ c w₂ hw hruny
    exact ⟨_, hruny, hrunx⟩
  · intro w c w₁ b w₂ hw hruny hrunx
    obtain rfl := hy w c w₁ hw hruny
    obtain rfl := hx _ b w₂ hw hrunx
    exact ⟨_, hrunx, hruny⟩

/-- **Members that change nothing do not disturb each other.** -/
theorem apart_of_quiet (hquiet : ∀ {β : Type} (x : Eval β), p.Asks scene x →
    ∀ w b w₁, scene w → x w = (.ok b, w₁) → w₁ = w) : p.Apart scene := by
  induction p with
  | finds | fails => trivial
  | ask x next ih =>
    intro w b w₁ hw hx
    obtain rfl := hquiet x .here w b w₁ hw hx
    exact ⟨hw, ih b fun y hy => hquiet y (.later hw hx hy)⟩
  | both p q ihp ihq =>
    exact ⟨ihp fun x hx => hquiet x (.first hx), ihq fun x hx => hquiet x (.second hx)⟩
  | members gs plan ih =>
    refine ⟨fun g hg => ih g fun x hx => hquiet x (.member hg hx), ?_⟩
    refine List.pairwise_of_forall_mem_list fun g hg g' hg' => ?_
    exact fun x y hx hy => interchange_of_quiet (hquiet x (.member hg hx)) (hquiet y (.member hg' hy))

/-! ## 6. Members that are not disturbed -/

/-- A plan whose evaluations have the same answers throughout a scene, and change nothing. -/
def Steady (scene : World → Prop) : Plan → Prop
  | finds _ | fails => True
  | ask x next => ∃ b, (∀ w, scene w → x w = (.ok b, w)) ∧ (next b).Steady scene
  | both p q => p.Steady scene ∧ q.Steady scene
  | members gs plan => ∀ g ∈ gs, (plan g).Steady scene

theorem Steady.asks {γ : Type} {y : Eval γ} (hp : p.Steady scene) (hy : p.Asks scene y) :
    ∃ c, ∀ w, scene w → y w = (.ok c, w) := by
  induction hy with
  | here =>
    obtain ⟨b, hb, -⟩ := hp
    exact ⟨b, hb⟩
  | later hw hx _ ih =>
    obtain ⟨b, hb, hnext⟩ := hp
    obtain ⟨hsame, -⟩ := Prod.mk.inj ((hb _ hw).symm.trans hx)
    obtain rfl := Except.ok.inj hsame
    exact ih hnext
  | first _ ih => exact ih hp.1
  | second _ ih => exact ih hp.2
  | member hg _ ih => exact ih (hp _ hg)

theorem Steady.apart (hp : p.Steady scene) : p.Apart scene := by
  refine apart_of_quiet fun x hx w b w₁ hw hrun => ?_
  obtain ⟨c, hc⟩ := hp.asks hx
  exact (Prod.mk.inj ((hc w hw).symm.trans hrun)).2.symm

/-- The evaluations of a plan stay in its scene. -/
theorem Apart.asks {γ : Type} {y : Eval γ} (hp : p.Apart scene) (hy : p.Asks scene y) :
    ∀ w c w₁, scene w → y w = (.ok c, w₁) → scene w₁ := by
  induction hy with
  | here => exact fun w c w₁ hw hrun => (hp w c w₁ hw hrun).1
  | later hw hx _ ih => exact ih (hp _ _ _ hw hx).2
  | first _ ih => exact ih hp.1
  | second _ ih => exact ih hp.2
  | member hg _ ih => exact ih (hp.1 _ hg)

/-- What has the same answers throughout a scene is not disturbed by what stays in it. -/
theorem Apart.beside (hp : p.Apart scene) (hq : q.Steady scene) : Beside scene p q := by
  intro β γ x y hx hy
  obtain ⟨a, ha⟩ := hq.asks hy
  have hstays := hp.asks hx
  constructor
  · intro w b w₁ c w₂ hw hrunx hruny
    obtain ⟨hc, rfl⟩ := Prod.mk.inj ((ha _ (hstays w b w₁ hw hrunx)).symm.trans hruny)
    exact ⟨w, hc ▸ ha w hw, hrunx⟩
  · intro w c w₁ b w₂ hw hruny hrunx
    obtain ⟨hc, rfl⟩ := Prod.mk.inj ((ha w hw).symm.trans hruny)
    exact ⟨w₂, hrunx, hc ▸ ha w₂ (hstays _ b w₂ hw hrunx)⟩

/-- **Members do not disturb each other** if of any two of them one has the same answers throughout
the scene, whatever the other one changes there. -/
theorem apart_of_steady (heach : ∀ g ∈ gs, (plan g).Apart scene)
    (hpairs : gs.Pairwise fun g g' => (plan g).Steady scene ∨ (plan g').Steady scene) :
    (members gs plan).Apart scene := by
  refine ⟨heach, hpairs.imp_of_mem fun {g g'} hg hg' hsteady => ?_⟩
  rcases hsteady with h | h
  · exact Beside.symm ((heach g' hg').beside h)
  · exact (heach g hg).beside h

end Plan
end MemberRules
