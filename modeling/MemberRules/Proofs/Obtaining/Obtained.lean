/-
# Which validators have been obtained

An engine keeps the types for which validators have been obtained, so that it prepares each of them
once.  Nothing but obtaining a validator looks there.  So take two engines that differ only in this,
and only for types that both know: obtaining a validator of such a type prepares nothing in either of
them, and every other step does in one what it does in the other.

* `Registry.Retains`: a change of the registry after which all known types are known.
* `Engine.Obtained`: engines that differ in the validators obtained, for types that they know.
* the parts of an engine step respect it, one lemma for each; `prepare_obtained` is about obtaining a
  validator.
* `validate_obtained`, `validatePatiently_obtained`: validations respect it.
-/
import Mathlib.Data.Set.Insert
import MemberRules.Proofs.Registry.History
import MemberRules.Proofs.Respects

namespace MemberRules

open MemberRules.Computation

/-! ## 1. Types that stay known -/

/-- A key of an association list stays one when an entry changes. -/
theorem isSome_lookup_updateEntry {κ α : Type} [BEq κ] [LawfulBEq κ] {k k' : κ} {default : α}
    {f : α → α} {es : List (κ × α)} (h : (es.lookup k').isSome = true) :
    ((updateEntry k default f es).lookup k').isSome = true := by
  by_cases heq : k' = k
  · rw [heq, lookup_updateEntry]
    rfl
  · rwa [lookup_updateEntry_of_ne heq]

namespace Registry

/-- A change of a registry after which all types that were known are known. -/
def Retains (f : Registry → Registry) : Prop :=
  ∀ reg t, reg.knows t = true → (f reg).knows t = true

/-- A change that keeps the keys of both lists of a registry. -/
theorem Retains.of_lookups {f : Registry → Registry}
    (hmarks : ∀ reg t, (reg.marks.lookup t).isSome = true → ((f reg).marks.lookup t).isSome = true)
    (hgroups : ∀ reg t, (reg.groups.lookup t).isSome = true →
      ((f reg).groups.lookup t).isSome = true) : Retains f := by
  intro reg t h
  rcases Bool.or_eq_true_iff.mp h with h | h
  · exact Bool.or_eq_true_iff.mpr (.inl (hmarks reg t h))
  · exact Bool.or_eq_true_iff.mpr (.inr (hgroups reg t h))

/-- A change of each entry that a type has. -/
theorem Retains.of_map {f : Registry → Registry} {g : TypeId × List RuleGroup → List RuleGroup}
    (hmarks : ∀ reg, (f reg).marks = reg.marks)
    (hgroups : ∀ reg, (f reg).groups = reg.groups.map fun e => (e.1, g e)) : Retains f := by
  refine .of_lookups (fun reg t h => hmarks reg ▸ h) fun reg t h => ?_
  rw [hgroups, lookup_map_entry, Option.isSome_map]
  exact h

theorem retains_id : Retains id := fun _ _ h => h

theorem retains_updateGroups (t : TypeId) (f : List RuleGroup → List RuleGroup) :
    Retains fun reg => reg.updateGroups t f :=
  .of_lookups (fun _ _ h => h) fun _ _ h => isSome_lookup_updateEntry h

theorem retains_addAll (t : TypeId) (rs : List Rule) : Retains fun reg => reg.addAll t rs := by
  induction rs with
  | nil => exact retains_id
  | cons r rs ih => exact fun reg u h => ih _ u (retains_updateGroups t _ reg u h)

theorem retains_mark (t : TypeId) (built : Bool) : Retains fun reg => reg.mark t built :=
  .of_lookups (fun _ _ h => isSome_lookup_updateEntry h) fun _ _ h => h

theorem retains_removeWhere (t : TypeId) (member : Option MemberKey) (doomed : Rule → Bool) :
    Retains fun reg => reg.removeWhere t member doomed :=
  .of_map (fun _ => rfl) fun reg => groups_removeWhere reg t member doomed

theorem retains_amend (id : Nat) (f : Rule → Rule) : Retains fun reg => reg.amend id f :=
  .of_map (fun _ => rfl) fun _ => rfl

theorem knows_dropType {reg : Registry} {t u : TypeId} (hne : u ≠ t) (h : reg.knows u = true) :
    (reg.dropType t).knows u = true := by
  unfold knows dropType
  rw [lookup_filter_ne, lookup_filter_ne, if_neg hne.symm, if_neg hne.symm]
  exact h

end Registry

/-! ## 2. Engines that differ in the validators obtained -/

namespace Engine

/-- An engine from which validators of other types have been obtained. -/
def having (ts : List TypeId) (e : Engine) : Engine := { e with validated := ts }

/-- Engines that differ in the validators that have been obtained, at most for types of a set, and
know these types. -/
structure Obtained (S : Set TypeId) (e e' : Engine) : Prop where
  same : e' = e.having e'.validated
  agree : ∀ t ∉ S, (t ∈ e'.validated ↔ t ∈ e.validated)
  known : ∀ t ∈ S, e.registry.knows t = true

variable {S : Set TypeId} {e e' : Engine}

theorem Obtained.refl (h : ∀ t ∈ S, e.registry.knows t = true) : Obtained S e e :=
  ⟨rfl, fun _ _ => .rfl, h⟩

theorem Obtained.having_eq (h : Obtained S e e') (ts : List TypeId) :
    e'.having ts = e.having ts := by
  rw [h.same]
  rfl

/-- A change that does not look at the validators obtained, and after which the types are known. -/
theorem Obtained.change (h : Obtained S e e') {f : Engine → Engine}
    (hf : ∀ e ts, f (e.having ts) = (f e).having ts)
    (hknown : ∀ t ∈ S, (f e).registry.knows t = true) : Obtained S (f e) (f e') := by
  have hleft : f e = (f e).having e.validated := hf e e.validated
  have hright : f e' = (f e).having e'.validated := (congrArg f h.same).trans (hf e _)
  refine ⟨hright.trans (by rw [hright]; rfl), fun t ht => ?_, hknown⟩
  rw [hright, hleft]
  exact h.agree t ht

end Engine

open Engine (Obtained)

namespace Action

variable {α β : Type} {S : Set TypeId} {c b : Nat}

/-- A step that looks at an engine, but not at the validators obtained. -/
theorem look_obtained {f : Engine → Action α} (hf : ∀ e ts, f (e.having ts) = f e)
    (h : ∀ e, Respects (Obtained S) (f e)) : Respects (Obtained S) (get >>= f) := by
  refine .get_bind fun e e' he => ?_
  have hsame : f e' = f e := (congrArg f he.same).trans (hf e _)
  rw [hsame]
  exact h e e e' he

/-- A change that does not look at the validators obtained, and keeps all types known. -/
theorem change_obtained {f : Engine → Engine} (hf : ∀ e ts, f (e.having ts) = (f e).having ts)
    (hknown : ∀ e t, e.registry.knows t = true → (f e).registry.knows t = true) :
    Respects (Obtained S) (modify f) :=
  .change fun e _ he => he.change hf fun t ht => hknown e t (he.known t ht)

/-- A step that does not look at the validators obtained, and leaves the registry alone. -/
theorem aside_obtained {x : Action α}
    (hx : ∀ e ts, x (e.having ts) = ((x e).1, (x e).2.having ts))
    (hregistry : ∀ e, (x e).2.registry = e.registry) : Respects (Obtained S) x := by
  intro e e' he
  constructor
  · exact (congrArg Prod.fst ((congrArg x he.same).trans (hx e _))).symm
  · refine he.change (f := fun e => (x e).2) (fun e ts => congrArg Prod.snd (hx e ts)) fun t ht => ?_
    rw [hregistry]
    exact he.known t ht

/-! ## 3. Parts of the engine -/

theorem updateRegistry_obtained {f : Registry → Registry} (hf : Registry.Retains f) :
    Respects (Obtained S) (updateRegistry f) :=
  change_obtained (fun _ _ => rfl) fun e t h => hf e.registry t h

/-- A change that does not look at the validators obtained, and leaves the registry alone. -/
theorem modify_obtained {f : Engine → Engine} (hf : ∀ e ts, f (e.having ts) = (f e).having ts)
    (hregistry : ∀ e, (f e).registry = e.registry) :
    Respects (Obtained S) (modify f : Action PUnit) :=
  change_obtained hf fun e _ h => hregistry e ▸ h

theorem eval_obtained (x : Eval α) : Respects (Obtained S) (eval x) :=
  aside_obtained (fun _ _ => rfl) fun _ => rfl

theorem reflecting_obtained (x : Reflecting α) : Respects (Obtained S) (reflecting x) :=
  aside_obtained (fun _ _ => rfl) fun _ => rfl

theorem lookup_obtained (x : Lookup α) : Respects (Obtained S) (lookup x) :=
  aside_obtained (fun _ _ => rfl) fun _ => rfl

theorem schema_obtained : Respects (Obtained S) schema := aside_obtained (fun _ _ => rfl) fun _ => rfl

theorem note_obtained (logger name : String) (fields : Details) :
    Respects (Obtained S) (note logger name fields) := modify_obtained (fun _ _ => rfl) fun _ => rfl

theorem report_obtained (r : Report) : Respects (Obtained S) (report r) :=
  modify_obtained (fun _ _ => rfl) fun _ => rfl

theorem takeReports_obtained : Respects (Obtained S) takeReports :=
  aside_obtained (fun _ _ => rfl) fun _ => rfl

theorem freshId_obtained : Respects (Obtained S) freshId := aside_obtained (fun _ _ => rfl) fun _ => rfl

theorem numbered_obtained (rs : List Rule) : Respects (Obtained S) (numbered rs) :=
  aside_obtained (fun _ _ => rfl) fun _ => rfl

theorem members_obtained (t : TypeId) : Respects (Obtained S) (members t) :=
  .bind schema_obtained fun _ => reflecting_obtained _

theorem select_obtained (t : TypeId) (sel : Selector) : Respects (Obtained S) (select t sel) :=
  look_obtained (fun _ _ => rfl) fun _ => .lift _

theorem view_obtained (rs : List Rule) : Respects (Obtained S) (view rs) :=
  look_obtained (fun _ _ => rfl) fun _ => .mapM fun _ => .bind (.lift _) fun _ => .pure _

/-! ## 4. Declared rules -/

theorem declaredRules_obtained (t : TypeId) : Respects (Obtained S) (declaredRules t) :=
  .bind (members_obtained t) fun _ => .bind schema_obtained fun _ => .bind (.lift _) fun _ =>
    .bind (numbered_obtained _) fun _ => .bind (note_obtained _ _ _) fun _ => .pure _

theorem noteAdded_obtained (t : TypeId) (count : Nat) (built : Bool) :
    Respects (Obtained S) (noteAdded t count built) := by
  cases built with
  | false => exact note_obtained _ _ _
  | true =>
    exact .bind (updateRegistry_obtained (Registry.retains_mark t true)) fun _ =>
      note_obtained _ _ _

theorem addRules_obtained (t : TypeId) (rs : List Rule) (built : Bool) :
    Respects (Obtained S) (addRules t rs built) :=
  .bind (updateRegistry_obtained (Registry.retains_addAll t rs)) fun _ => noteAdded_obtained t _ built

theorem noteRemoved_obtained (t : TypeId) (member : Option MemberRef) (count : Nat) :
    Respects (Obtained S) (noteRemoved t member count) := by
  unfold noteRemoved
  split
  · exact .pure _
  · exact note_obtained _ _ _

theorem removeRules_obtained (t : TypeId) (member : Option MemberRef) (doomed : Rule → Bool) :
    Respects (Obtained S) (removeRules t member doomed) :=
  look_obtained (fun _ _ => rfl) fun _ =>
    .bind (updateRegistry_obtained (Registry.retains_removeWhere t _ doomed)) fun _ =>
      .bind (noteRemoved_obtained t member _) fun _ => .pure _

theorem ensureWithin_obtained (n : Nat) (t : TypeId) : Respects (Obtained S) (ensureWithin n t) := by
  induction n generalizing t with
  | zero => exact .throw _
  | succ n ih =>
    refine look_obtained (fun _ _ => rfl) fun e => ?_
    cases e.registry.knows t with
    | true => exact .pure _
    | false =>
      exact .bind (declaredRules_obtained t) fun rs => .bind (addRules_obtained t rs true) fun _ =>
        .forM ih

theorem ensure_obtained (t : TypeId) : Respects (Obtained S) (ensure t) :=
  .bind schema_obtained fun _ => ensureWithin_obtained _ t

/-! ## 5. Messages -/

theorem computedText_obtained (rule : Option Rule) (object : Value) :
    Respects (Obtained S) (computedText rule object) := by
  unfold computedText
  split
  · exact .bind (eval_obtained _) fun _ => look_obtained (fun _ _ => rfl) fun _ =>
      .bind (.lift _) fun _ => .pure _
  · exact .pure _

theorem message_obtained (w : Message.Wanted) (object : Value) :
    Respects (Obtained S) (message w object) :=
  .bind (computedText_obtained _ _) fun _ => look_obtained (fun _ _ => rfl) fun _ =>
    lookup_obtained _

end Action

namespace Validation

variable {S : Set TypeId} {d : Drive} {nested : Value → TypeId → String → Finding}

open Action

/-! ## 6. Validations -/

theorem collect_obtained {α : Type} {f : α → Finding} {as : List α}
    (h : ∀ a, Respects (Obtained S) (f a)) : Respects (Obtained S) (collect f as) := by
  induction as with
  | nil => exact .pure _
  | cons a as ih => exact .bind (h a) fun _ => .bind ih fun _ => .pure _

theorem applyCheck_obtained (d : Drive) (r : Rule) (a : Attribute) (pos : Position) (v : Value) :
    Respects (Obtained S) (applyCheck d r a pos v) := by
  refine .bind (eval_obtained _) fun outcome => ?_
  split
  · exact .pure _
  · have hmessage : Respects (Obtained S) (messageOf r a pos outcome.message) := by
      unfold messageOf
      split
      · exact .pure _
      · exact message_obtained _ _
    exact .bind hmessage fun _ => .bind (.lift _) fun _ => .pure _

theorem applyRule_obtained (hn : ∀ v t path, Respects (Obtained S) (nested v t path)) (r : Rule)
    (a : Attribute) (pos : Position) (v : Value) :
    Respects (Obtained S) (applyRule nested d r a pos v) := by
  unfold applyRule
  split
  · exact .pure _
  · exact .pure _
  · exact .pure _
  · exact hn _ _ _
  · exact .bind (ensure_obtained _) fun _ => hn _ _ _
  · exact .bind (ensure_obtained _) fun _ => hn _ _ _
  · exact applyCheck_obtained d r a pos _

theorem visitRule_obtained (hn : ∀ v t path, Respects (Obtained S) (nested v t path))
    (pos : Position) (v : Value) (r : Rule) :
    Respects (Obtained S) (visitRule nested d pos v r) := by
  unfold visitRule
  split
  · exact .pure _
  · refine .bind (eval_obtained _) fun isOpen => ?_
    split
    · exact .pure _
    · split
      · exact look_obtained (fun _ _ => rfl) fun _ => collect_obtained fun _ =>
          applyRule_obtained hn r _ _ _
      · exact applyRule_obtained hn r _ _ _

theorem provided_obtained (g : RuleGroup) (owner : Value) :
    Respects (Obtained S) (provided g owner) := by
  refine .bind (eval_obtained _) fun _ => ?_
  split
  · exact .pure _
  · exact .bind (eval_obtained _) fun _ => .bind (eval_obtained _) fun _ => .pure _

theorem visitMember_obtained (hn : ∀ v t path, Respects (Obtained S) (nested v t path))
    (owner : Value) (t : TypeId) (path : String) (g : RuleGroup) :
    Respects (Obtained S) (visitMember nested d owner t path g) := by
  unfold visitMember
  split
  · exact .pure _
  · exact .bind (provided_obtained g owner) fun v => collect_obtained fun r =>
      visitRule_obtained hn _ v r

theorem requireBuilt_obtained (t : TypeId) : Respects (Obtained S) (requireBuilt t) := by
  refine look_obtained (fun _ _ => rfl) fun e => ?_
  dsimp only
  split
  · exact .throw _
  · exact .pure _

theorem visitObject_obtained (d : Drive) (depth : Nat) (owner : Value) (t : TypeId) (path : String) :
    Respects (Obtained S) (visitObject d depth owner t path) := by
  induction depth generalizing owner t path with
  | zero => exact .throw _
  | succ depth ih =>
    exact .bind (requireBuilt_obtained t) fun _ => look_obtained (fun _ _ => rfl) fun _ =>
      collect_obtained fun g => visitMember_obtained ih owner t path g

theorem run_obtained (d : Drive) (owner : Value) (t : TypeId) :
    Respects (Obtained S) (run d owner t) :=
  .bind (visitObject_obtained _ _ _ _ _) fun _ => .bind (note_obtained _ _ _) fun _ => .pure _

theorem rulesType_obtained (t : TypeId) (v : Value) : Respects (Obtained S) (rulesType t v) := by
  unfold rulesType
  split
  · exact .throw _
  · exact look_obtained (fun _ _ => rfl) fun _ => .pure _

/-- **Validating at once does not depend on which validators have been obtained.** -/
theorem validate_obtained (t : TypeId) (v : Value) : Respects (Obtained S) (validate t v) := by
  refine .bind (rulesType_obtained t v) fun own => look_obtained (fun _ _ => rfl) fun e =>
    .bind (.lift _) fun waits => ?_
  cases waits with
  | true => exact .bind (note_obtained _ _ _) fun _ => run_obtained _ _ _
  | false => exact run_obtained _ _ _

/-- **Nor does validating with time to wait.** -/
theorem validatePatiently_obtained (t : TypeId) (v : Value) (limit : Option Bool) :
    Respects (Obtained S) (validatePatiently t v limit) := by
  refine .bind (rulesType_obtained t v) fun own => ?_
  cases limit with
  | none => exact run_obtained _ _ _
  | some _ => exact run_obtained _ _ _

/-! ## 7. Obtaining a validator -/

variable {t : TypeId} {e e' : Engine}

theorem prepare_of_mem (h : t ∈ e.validated) : prepare t e = (.ok (), e) := by
  show (if !e.validated.contains t then _ else pure () : Action Unit) e = _
  rw [List.contains_iff_mem.mpr h]
  rfl

theorem prepare_of_notMem (h : t ∉ e.validated) : prepare t e =
    (do ensure t; modify fun e => e.having (e.validated ++ [t]) : Action Unit) e := by
  have hnew : e.validated.contains t = false := by simpa using h
  show (if !e.validated.contains t then _ else pure () : Action Unit) e = _
  rw [hnew]
  rfl

/-- Obtaining a validator of a type that is known prepares nothing. -/
theorem prepare_of_knows (h : e.registry.knows t = true) :
    ∃ ts, prepare t e = (.ok (), e.having ts) ∧ ∀ u, u ∈ ts ↔ u ∈ e.validated ∨ u = t := by
  by_cases hmem : t ∈ e.validated
  · refine ⟨e.validated, prepare_of_mem hmem, fun u => ⟨.inl, ?_⟩⟩
    rintro (hu | rfl)
    · exact hu
    · exact hmem
  · refine ⟨e.validated ++ [t], ?_, fun u => by simp⟩
    rw [prepare_of_notMem hmem, bind_ok (ensure_of_knows h)]
    rfl

/-- **Obtaining a validator respects the difference**: of a type that is known it prepares nothing in
either engine, and any other type is prepared in both engines or in none. -/
theorem prepare_obtained (t : TypeId) : Respects (Obtained S) (prepare t) := by
  intro e e' he
  by_cases hmem : t ∈ S
  -- Whether one was obtained before may differ, but the type is known, and only the notes change.
  · have hknown : e'.registry.knows t = true := by
      rw [he.same]
      exact he.known t hmem
    obtain ⟨ts, hrun, hts⟩ := prepare_of_knows (he.known t hmem)
    obtain ⟨ts', hrun', hts'⟩ := prepare_of_knows hknown
    rw [hrun, hrun']
    refine ⟨rfl, he.having_eq ts', fun u hu => ?_, he.known⟩
    exact (hts' u).trans ((or_congr_left (he.agree u hu)).trans (hts u).symm)
  -- The engines agree on the type, so they take the same way.
  · by_cases hprepared : t ∈ e.validated
    · rw [prepare_of_mem hprepared, prepare_of_mem ((he.agree t hmem).mpr hprepared)]
      exact ⟨rfl, he⟩
    · rw [prepare_of_notMem hprepared, prepare_of_notMem (mt (he.agree t hmem).mp hprepared)]
      refine Respects.bind (ensure_obtained t) (fun _ => .change fun e e' he => ?_) e e' he
      refine ⟨he.having_eq (e'.validated ++ [t]), fun u hu => ?_, he.known⟩
      show u ∈ e'.validated ++ [t] ↔ u ∈ e.validated ++ [t]
      rw [List.mem_append, List.mem_append, he.agree u hu]

end Validation
end MemberRules
