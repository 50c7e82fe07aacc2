/-
# Changes but for what is gathered

What is registered, and the settings for all rules of a type, do not depend on what exactly is
gathered.  Seen from there, a configuration step makes one small change of the engine after another:
it marks a type, drops rules, goes on with the configuration that it is about, changes a rule wherever
it is held, or registers the declared rules of a type that is not known yet.  All other changes are
of builders, or of what has been made for later.  Only three kinds of steps do something else as
well: a step that makes a configuration, a step that changes a setting for all rules, and a build,
once everything has been gathered.

So what each small change keeps is kept by every other step.

* `Engine.Move`, `Engine.Moves`: a small change, and small changes one after the other.
* `Edits.moves`: small changes that do not make a configuration or change a setting are such.
* `Call.Plain`, `Call.after_moves`: plain calls make nothing but small changes.
-/
import MemberRules.Proofs.Configuration.Deeds

namespace MemberRules

open MemberRules.Computation

/-! ## 1. Small changes -/

/-- A configuration of the same type with the same settings for all rules. -/
structure Configuration.SameSettings (cfg cfg' : Configuration) : Prop where
  type : cfg'.type = cfg.type
  culture : cfg'.culture = cfg.culture
  resource : cfg'.resource = cfg.resource
  fallback : cfg'.fallback = cfg.fallback
  conventionalKeys : cfg'.conventionalKeys = cfg.conventionalKeys
  settingsChanged : cfg'.settingsChanged = cfg.settingsChanged

namespace Engine

/-- A small change. -/
inductive Move (e : Engine) : Engine → Prop
  /-- Of builders, or of what is held by neither configurations nor the registry. -/
  | aside {e' : Engine} (hconfigurations : e'.configurations = e.configurations)
      (hregistry : e'.registry = e.registry) (hconfigured : e'.configured = e.configured) :
      Move e e'
  | mark (t : TypeId) (built : Bool) : Move e { e with registry := e.registry.mark t built }
  | remove (t : TypeId) (member : Option MemberKey) (doomed : Rule → Bool) :
      Move e { e with registry := e.registry.removeWhere t member doomed }
  /-- The declared rules of a type that is not known. -/
  | register (t : TypeId) (rs : List Rule) (hnew : e.registry.knows t = false) :
      Move e { e with registry := e.registry.addAll t rs }
  | work (c : Nat) {f : Configuration → Configuration}
      (hf : ∀ cfg : Configuration, cfg.SameSettings (f cfg)) : Move e (e.updateConfiguration c f)
  | amend (id : Nat) {f : Rule → Rule} (hf : ∀ r : Rule, r.Retains (f r)) : Move e (e.amend id f)

/-- Small changes, one after the other. -/
def Moves : Engine → Engine → Prop := Relation.ReflTransGen Move

theorem Moves.refl (e : Engine) : e.Moves e := Relation.ReflTransGen.refl

theorem Moves.trans {e e' e'' : Engine} (h : e.Moves e') (h' : e'.Moves e'') : e.Moves e'' :=
  Relation.ReflTransGen.trans h h'

theorem Moves.andThen {e e' e'' : Engine} (h : e.Moves e') (h' : e'.Move e'') : e.Moves e'' :=
  Relation.ReflTransGen.tail h h'

/-- What each small change keeps is kept by all of them. -/
theorem Moves.keep {I : Engine → Prop} (hI : ∀ {e e'}, Move e e' → I e → I e') {e e' : Engine}
    (h : e.Moves e') (he : I e) : I e' := by
  induction h with
  | refl => exact he
  | tail _ hmove ih => exact hI hmove ih

/-- A deed that makes no configuration and changes no setting for all rules. -/
def Deed.IsPlain : Deed → Prop
  | setting | configure => False
  | _ => True

end Engine

open Engine

/-! ## 2. Small changes of what is gathered -/

variable {A : Deed → Prop} {e e' : Engine} {c : Nat}

theorem Configuration.Edit.sameSettings {cfg cfg' : Configuration}
    (h : cfg.Edit A c cfg') (hA : ∀ d, A d → d.IsPlain) : cfg.SameSettings cfg' := by
  cases h with
  | setting _ hset => exact (hA _ hset).elim
  | _ => exact ⟨rfl, rfl, rfl, rfl, rfl, rfl⟩

namespace Engine

/-- Going on with a configuration is a small change if its settings stay. -/
theorem move_of_sameSettings {f : Configuration → Configuration}
    (hf : (e.configuration c).SameSettings (f (e.configuration c))) :
    e.Move (e.updateConfiguration c f) := by
  let left := f (e.configuration c)
  -- Only the parts that may change are taken from what is left.
  let taken (cfg : Configuration) : Configuration := { cfg with
    pending := left.pending
    current := left.current
    builders := left.builders
    providers := left.providers
    enforce := left.enforce
    lastBuild := left.lastBuild }
  have hsame : f (e.configuration c) = taken (e.configuration c) := by
    show left = { left with
      type := (e.configuration c).type
      culture := (e.configuration c).culture
      resource := (e.configuration c).resource
      fallback := (e.configuration c).fallback
      conventionalKeys := (e.configuration c).conventionalKeys
      settingsChanged := (e.configuration c).settingsChanged }
    rw [← hf.type, ← hf.culture, ← hf.resource, ← hf.fallback, ← hf.conventionalKeys,
      ← hf.settingsChanged]
  rw [updateConfiguration_congr hsame]
  exact .work c fun _ => ⟨rfl, rfl, rfl, rfl, rfl, rfl⟩

theorem Edit.moves (h : Edit A e e') (hA : ∀ d, A d → d.IsPlain) : e.Moves e' := by
  cases h with
  | aside hsame => exact .single (.aside hsame.configurations hsame.registry hsame.configured)
  | mark t built => exact .single (.mark t built)
  | remove t member doomed => exact .single (.remove t member doomed)
  | register t rs hnew => exact .single (.register t rs hnew)
  | amend id hf => exact .single (.amend id fun r => (hf r).toRetains)
  | work c hf => exact .single (move_of_sameSettings (hf.sameSettings hA))
  | create _ _ _ _ _ hmake => exact (hA _ hmake).elim
  | book _ hmake => exact (hA _ hmake).elim
  | list c m forEach named =>
    let x : Builder := { owner := c, member := m, forEach }
    have hmade : e.Move { e with builders := e.builders ++ [x], named } := .aside rfl rfl rfl
    let listed (cfg : Configuration) : Configuration :=
      { cfg with builders := cfg.builders ++ [e.builders.length] }
    have hlisted : ∀ cfg : Configuration, cfg.SameSettings (listed cfg) := fun _ =>
      ⟨rfl, rfl, rfl, rfl, rfl, rfl⟩
    exact (Moves.refl e).andThen hmade |>.andThen (.work c hlisted)
  | close | attachTo | dropRules => exact .single (.aside rfl rfl rfl)

/-- **Small changes of what is gathered are small changes**, unless they make a configuration or
change a setting for all rules. -/
theorem Edits.moves (h : Edits A e e') (hA : ∀ d, A d → d.IsPlain) : e.Moves e' :=
  h.keep (I := e.Moves) (fun hedit hmoves => hmoves.trans (hedit.moves hA)) (.refl e)

end Engine

namespace Action

variable {α : Type} {e₀ : Engine}

instance : Steady (Moves e₀) where
  of_sameBooks h he := he.andThen (.aside h.configurations h.registry h.configured)

/-- What makes small changes of what is gathered only. -/
theorem moves_of_edits {x : Action α} (hx : ∀ e, Edits Deed.IsPlain e (x e).2) :
    Keeps (Moves e₀) x := fun e he =>
  ⟨he.trans ((hx e).moves fun _ h => h), fun _ _ => trivial⟩

theorem mark_moves (t : TypeId) (built : Bool) :
    Keeps (Moves e₀) (updateRegistry fun reg => reg.mark t built) :=
  moves_of_edits fun _ => edits_of_keeps (mark_edits t built)

theorem ensureWithin_moves (depth : Nat) (t : TypeId) : Keeps (Moves e₀) (ensureWithin depth t) :=
  moves_of_edits fun _ => edits_of_keeps (ensureWithin_edits depth t)

theorem ensure_moves (t : TypeId) : Keeps (Moves e₀) (ensure t) :=
  moves_of_edits fun _ => edits_of_keeps (ensure_edits t)

theorem commit_moves (c : Nat) : Keeps (Moves e₀) (commit c) :=
  moves_of_edits fun _ => commit_edits fun _ _ _ => trivial

theorem gather_moves (cfg : Configuration) : Keeps (Moves e₀) (gather cfg) :=
  moves_of_edits fun _ => edits_of_keeps (gather_edits cfg)

end Action

/-! ## 3. Calls -/

namespace Engine

/-- A call that makes no configuration, changes no setting for all rules, and builds nothing. -/
def Call.Plain : Call → Prop
  | configure _ | build _ | nest _ _ => False
  | step _ s => match s with
    | .resource _ | .culture _ | .fallback _ | .withoutConventionalKeys => False
    | .switch _ | .build => False
    | _ => True
  | _ => True

/-- **A plain call makes nothing but small changes.** -/
theorem Call.after_moves {call : Call} (h : call.Plain) (e : Engine) : e.Moves (call.after e) := by
  have hbuild : call.builds? = none := by
    cases call with
    | build c => cases h
    | step c s => cases s <;> first | rfl | cases h
    | _ => rfl
  refine (Call.after_edits (fun _ hd => hd) hbuild).moves fun d hd => ?_
  cases hd with
  | step hd =>
    cases hd with
    | setting hs =>
      rename_i s
      cases s <;> first | exact h | cases hs
    | switch t => cases h
    | _ => trivial
  | configure t => cases h
  | nest b element => cases h
  | nestSetting b element => cases h
  | _ => trivial

end Engine
end MemberRules
