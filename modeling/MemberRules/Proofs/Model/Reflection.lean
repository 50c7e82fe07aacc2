/-
# Reading the members of a type

Members are read once and then remembered, so what a type gives depends, as it seems, on what was
read before it.  It does not: a type gives what reading it anew gives, its members or a fault, whatever
is remembered, as long as what is remembered was found that way.

A memory can only spare depth.  So what a type gives within a depth, with whatever memory, lies between
what it gives within that depth without one and what it gives in the end; and the depth that is used
suffices.

* `Schema.Faithful`: a memory in which every type has the members that reading it anew gives.
* `Schema.reading_reflectWithin`: what reading with a memory gives within a depth.
* `Schema.reflect_eq_read`: reflecting a type gives what reading it gives.
* `Schema.faithful_reflect`: what is remembered afterwards was found that way too.
-/
import MemberRules.Proofs.Model.Depth

namespace MemberRules
namespace Schema

open MemberRules.Computation

variable {s : Schema} {t : TypeId} {ms : List MemberInfo} {known : Reflected}

/-! ## 1. What is remembered -/

/-- A memory in which every type has the members that reading it anew gives. -/
def Faithful (s : Schema) (known : Reflected) : Prop :=
  ∀ t ms, known.lookup t = some ms → s.Reads t ms

/-- Nothing is remembered wrongly where nothing is remembered. -/
theorem faithful_nil (s : Schema) : s.Faithful [] := fun _ _ h => by cases h

theorem Faithful.snoc (h : s.Faithful known) (hms : s.Reads t ms) :
    s.Faithful (known ++ [(t, ms)]) := by
  intro u ms' hlookup
  rw [List.lookup_append] at hlookup
  cases hknown : known.lookup u with
  | some ms'' =>
    rw [hknown] at hlookup
    cases hlookup
    exact h u _ hknown
  | none =>
    rw [hknown, Option.none_or, List.lookup_cons] at hlookup
    split at hlookup
    · rename_i heq
      cases hlookup
      exact LawfulBEq.eq_of_beq heq ▸ hms
    · cases hlookup

/-! ## 2. Reading with a memory -/

/-- A reading with a memory that keeps it faithful, and gives a result between two others. -/
def Reading {α : Type} (s : Schema) (low : Except Fault α) (x : Reflecting α)
    (high : Except Fault α) : Prop :=
  ∀ known, s.Faithful known →
    s.Faithful (x known).2 ∧ Approximates low (x known).1 ∧ Approximates (x known).1 high

namespace Reading

variable {α β : Type} {low high : Except Fault α} {x : Reflecting α}

theorem lift (r : Except Fault α) : s.Reading r (liftReflecting r) r := fun _ hknown =>
  ⟨hknown, .refl r, .refl r⟩

theorem pure (a : α) : s.Reading (.ok a) (pure a) (.ok a) := lift (.ok a)

/-- A smaller depth may give less. -/
theorem between {a : α} (h : Approximates low (.ok a)) : s.Reading low (Pure.pure a) (.ok a) :=
  fun _ hknown => ⟨hknown, h, .refl _⟩

theorem bind {f : α → Reflecting β} {low' high' : α → Except Fault β} (hx : s.Reading low x high)
    (hf : ∀ a, high = .ok a → s.Reading (low' a) (f a) (high' a)) :
    s.Reading (low >>= low') (x >>= f) (high >>= high') := by
  intro known hknown
  obtain ⟨hkept, hlow, hhigh⟩ := hx known hknown
  rw [bind_apply]
  rcases hrun : x known with ⟨e | a, known'⟩ <;> rw [hrun] at hkept hlow hhigh
  · have hlow' : Approximates (low >>= low') ((.error e : Except Fault α) >>= low') :=
      hlow.bind fun _ _ => .refl _
    have hhigh' : Approximates ((.error e : Except Fault α) >>= high') (high >>= high') :=
      hhigh.bind fun _ _ => .refl _
    exact ⟨hkept, hlow', hhigh'⟩
  · obtain rfl : .ok a = high := hhigh.eq (by simp)
    obtain ⟨hend, hlow', hhigh'⟩ := hf a rfl known' hkept
    have hfirst : Approximates (low >>= low') ((.ok a : Except Fault α) >>= low') :=
      hlow.bind fun _ _ => .refl _
    exact ⟨hend, hfirst.trans hlow', hhigh'⟩

theorem mapM {γ : Type} {low high : γ → Except Fault β} {f : γ → Reflecting β} {cs : List γ}
    (h : ∀ c ∈ cs, s.Reading (low c) (f c) (high c)) :
    s.Reading (cs.mapM low) (cs.mapM f) (cs.mapM high) := by
  induction cs with
  | nil => exact pure []
  | cons c cs ih =>
    simp only [List.mapM_cons]
    refine bind (h c List.mem_cons_self) fun b _ => ?_
    exact bind (ih fun c' hc' => h c' (List.mem_cons_of_mem c hc')) fun bs _ => pure (b :: bs)

/-- A type that is not remembered yet is remembered with the members that it gives. -/
theorem remember (h : s.Reads t ms) :
    s.Reading (.ok ms) (do modify fun known => known ++ [(t, ms)]; return ms) (.ok ms) :=
  fun _ hknown => ⟨hknown.snoc h, .refl _, .refl _⟩

end Reading

/-- **What a type gives within a depth, with whatever memory**, lies between what it gives within that
depth without one and what it gives in the end. -/
theorem reading_reflectWithin (s : Schema) (depth : Nat) (t : TypeId) :
    s.Reading (s.membersWithin depth t) (s.reflectWithin depth t) (s.read t) := by
  induction depth generalizing t with
  | zero => exact fun known hknown => ⟨hknown, .refl _, .inl rfl⟩
  | succ depth ih =>
    intro known hknown
    unfold reflectWithin
    rw [bind_ok (get_apply known)]
    cases hlookup : known.lookup t with
    | some ms =>
      have hread : s.read t = .ok ms := reads_iff.mp (hknown t ms hlookup)
      have hlow := membersWithin_read s (depth + 1) t
      rw [hread] at hlow ⊢
      exact Reading.between hlow known hknown
    | none =>
      rw [read_eq s t]
      refine Reading.bind (.lift (s.ownMembers t)) (fun own hown => ?_) known hknown
      have hreads : ∀ sources,
          (if own.isEmpty then .ok [] else (s.sourcesOf t).mapM s.read) = .ok sources →
            s.Reads t (own.map (takeOver sources)) := fun _ => .of_sources hown
      by_cases hempty : own.isEmpty
      · simp only [hempty, if_true] at hreads ⊢
        exact Reading.bind (.pure []) fun sources hsources => .remember (hreads sources hsources)
      · simp only [hempty, Bool.false_eq_true, if_false] at hreads ⊢
        refine Reading.bind (.mapM fun u _ => ih u) fun sources hsources => ?_
        exact .remember (hreads sources hsources)

theorem reflect_of_lookup (h : known.lookup t = some ms) : s.reflect t known = (.ok ms, known) := by
  unfold reflect reflectWithin
  rw [bind_ok (get_apply known), h]
  rfl

/-- A type that has been reflected is remembered. -/
theorem lookup_reflect (h : (s.reflect t known).1 = .ok ms) :
    ∃ ms, (s.reflect t known).2.lookup t = some ms := by
  rcases hrun : s.reflect t known with ⟨r, known'⟩
  rw [hrun] at h
  obtain rfl : r = .ok ms := h
  unfold reflect reflectWithin at hrun
  rw [bind_ok (get_apply known)] at hrun
  cases hlookup : known.lookup t with
  | some ms' =>
    rw [hlookup] at hrun
    cases hrun
    exact ⟨_, hlookup⟩
  | none =>
    simp only [hlookup] at hrun
    obtain ⟨own, known₁, -, hrun⟩ := bind_eq_ok.mp hrun
    have hlast : ∀ (sources : List (List MemberInfo)) known₂,
        (do
          modify fun known => known ++ [(t, own.map (takeOver sources))]
          return own.map (takeOver sources) : Reflecting (List MemberInfo)) known₂ =
            (.ok ms, known') → ∃ ms, known'.lookup t = some ms := fun sources known₂ h => by
      cases h
      refine Option.isSome_iff_exists.mp ?_
      dsimp only
      rw [List.lookup_append, Option.isSome_or, List.lookup_cons, beq_self_eq_true]
      exact Bool.or_true _
    split at hrun
    · exact hlast [] known₁ hrun
    · obtain ⟨sources, known₂, -, hrun⟩ := bind_eq_ok.mp hrun
      exact hlast sources known₂ hrun

/-- **Reflecting a type gives what reading it gives**, whatever is remembered. -/
theorem reflect_eq_read (s : Schema) (t : TypeId) (h : s.Faithful known) :
    (s.reflect t known).1 = s.read t := by
  obtain ⟨-, hlow, hhigh⟩ := reading_reflectWithin s (s.types.length + 2) t known h
  rw [membersWithin_eq_read (Nat.le_succ _)] at hlow
  exact hhigh.antisymm hlow

/-- **What is remembered after reflecting a type** was found by reading anew, as what it gave was. -/
theorem faithful_reflect (s : Schema) (t : TypeId) (h : s.Faithful known) :
    s.Faithful (s.reflect t known).2 ∧ ∀ ms, (s.reflect t known).1 = .ok ms → s.Reads t ms :=
  ⟨(reading_reflectWithin s _ t known h).1, fun _ hms =>
    reads_iff.mpr ((reflect_eq_read s t h).symm.trans hms)⟩

/-- A type that has been reflected is remembered with what it gave. -/
theorem Faithful.lookup_reflect {known' : Reflected} (h : s.Faithful known)
    (hrun : s.reflect t known = (.ok ms, known')) : known'.lookup t = some ms := by
  obtain ⟨hfaithful, hreads⟩ := faithful_reflect s t h
  obtain ⟨ms', hlookup⟩ := Schema.lookup_reflect (congrArg Prod.fst hrun)
  rw [hrun] at hlookup hfaithful hreads
  rw [hlookup, (hreads ms rfl).unique (hfaithful t ms' hlookup)]

end Schema
end MemberRules
