/-
# How deep reading a type goes

A type takes attributes over from its sources, these from theirs, and so on, so reading the members of
a type needs a depth.  Where the sources lead back to the type no depth suffices, and reading fails as
too deep.  Everywhere else a depth that is one more than the number of declared types does: a type that
comes to a result at some depth, but not at the one before, has a source that comes to one at the depth
before, but not at the one before that, and so on down; and these types are all declared and all
different.

So there is one result of reading a type, its members or a fault, and every greater depth gives the same.

* `Approximates`: results of the same reading at a smaller and at a greater depth.
* `Schema.settled_within`: which depth suffices for every type for which one does.
* `Schema.read`: what reading a type gives.
* `Schema.reads_iff`: the members of a type are what reading it gives.
-/
import Mathlib.Data.Finset.Card
import Mathlib.Data.Finset.Dedup
import MemberRules.Proofs.Model.Members

namespace MemberRules

open MemberRules.Computation

/-! ## 1. Results of a smaller depth -/

section

variable {α β : Type} {r r' r'' : Except Fault α}

/-- A result that is another one, unless it is that the reading went too deep. -/
def Approximates (r r' : Except Fault α) : Prop := r = .error .tooDeep ∨ r = r'

namespace Approximates

theorem refl (r : Except Fault α) : Approximates r r := .inr rfl

theorem trans (h : Approximates r r') (h' : Approximates r' r'') : Approximates r r'' := by
  rcases h with rfl | rfl
  · exact .inl rfl
  · exact h'

theorem antisymm (h : Approximates r r') (h' : Approximates r' r) : r = r' := by
  rcases h with rfl | rfl
  · rcases h' with rfl | rfl <;> rfl
  · rfl

/-- A result that is not too deep is the other one. -/
theorem eq (h : Approximates r r') (hr : r ≠ .error .tooDeep) : r = r' := h.resolve_left hr

theorem bind {f f' : α → Except Fault β} (h : Approximates r r')
    (hf : ∀ a, r' = .ok a → Approximates (f a) (f' a)) : Approximates (r >>= f) (r' >>= f') := by
  rcases h with rfl | rfl
  · exact .inl rfl
  · cases r with
    | error e => exact .refl _
    | ok a => exact hf a rfl

theorem mapM {γ : Type} {f f' : γ → Except Fault β} {cs : List γ}
    (h : ∀ c ∈ cs, Approximates (f c) (f' c)) : Approximates (cs.mapM f) (cs.mapM f') := by
  induction cs with
  | nil => exact .refl _
  | cons c cs ih =>
    rw [List.mapM_cons, List.mapM_cons]
    refine (h c List.mem_cons_self).bind fun b _ => ?_
    exact (ih fun c' hc' => h c' (List.mem_cons_of_mem c hc')).bind fun bs _ => .refl _

end Approximates

end

namespace Schema

variable {s : Schema} {t : TypeId} {ms : List MemberInfo} {depth depth' : Nat}

/-! ## 2. Types that are not declared -/

/-- The identities of the declared types. -/
def ids (s : Schema) : List TypeId := s.types.map TypeDecl.id

/-- Along the line of a type that is not declared there are no declared types. -/
theorem lineOf_of_notMem (h : t ∉ s.ids) : s.lineOf t = [] := by
  refine List.filterMap_eq_nil_iff.mpr fun id hid => ?_
  cases t with
  | declared name =>
    cases hfind : s.find? name with
    | none => simp [lineIds, hfind] at hid
    | some d =>
      have hmem : d.id ∈ s.ids := List.mem_map_of_mem (List.mem_of_find?_eq_some hfind)
      have hname : d.name = name := by simpa using List.find?_some hfind
      exact absurd (hname ▸ hmem) h
  | enumeration name =>
    rcases List.mem_cons.mp hid with rfl | hid
    · rfl
    · rw [List.mem_singleton.mp hid]
  | builtin b =>
    obtain ⟨b', -, rfl⟩ := List.mem_map.mp hid
    rfl

/-- A type that is not declared has no members. -/
theorem ownMembers_of_notMem (h : t ∉ s.ids) : s.ownMembers t = .ok [] := by
  unfold ownMembers announcedMembers computedMembers hints announcements
  rw [lineOf_of_notMem h]
  rfl

theorem membersWithin_of_notMem (h : t ∉ s.ids) : s.membersWithin (depth + 1) t = .ok [] := by
  unfold membersWithin
  rw [ownMembers_of_notMem h]
  rfl

/-! ## 3. Depths that suffice -/

/-- What a type gives at a depth follows from what its sources give at the one before. -/
theorem membersWithin_approximates
    (h : ∀ u ∈ s.sourcesOf t, Approximates (s.membersWithin depth u) (s.membersWithin depth' u)) :
    Approximates (s.membersWithin (depth + 1) t) (s.membersWithin (depth' + 1) t) := by
  unfold membersWithin
  refine (Approximates.refl _).bind fun own _ => .bind ?_ fun sources _ => .refl _
  split
  · exact .refl _
  · exact .mapM h

/-- **A greater depth gives the same**, unless the smaller one is too small. -/
theorem membersWithin_le (h : depth ≤ depth') (t : TypeId) :
    Approximates (s.membersWithin depth t) (s.membersWithin depth' t) := by
  have hnext : ∀ depth t, Approximates (s.membersWithin depth t) (s.membersWithin (depth + 1) t) := by
    intro depth
    induction depth with
    | zero => exact fun t => .inl rfl
    | succ depth ih => exact fun t => membersWithin_approximates fun u _ => ih u
  induction h with
  | refl => exact .refl _
  | step _ ih => exact ih.trans (hnext _ t)

/-- Reading a type comes to a result within a depth. -/
def Settled (s : Schema) (depth : Nat) (t : TypeId) : Prop :=
  s.membersWithin depth t ≠ .error .tooDeep

theorem Settled.eq_of_le (h : s.Settled depth t) (hle : depth ≤ depth') :
    s.membersWithin depth t = s.membersWithin depth' t := (membersWithin_le hle t).eq h

theorem Settled.of_le (h : s.Settled depth t) (hle : depth ≤ depth') : s.Settled depth' t := by
  unfold Settled
  rw [← h.eq_of_le hle]
  exact h

/-- **A type that is settled at a depth, but not at the one before, has a source** that is settled at
the one before, but not at the one before that. -/
theorem exists_settling (hnot : ¬ s.Settled (depth + 1) t) (h : s.Settled (depth + 2) t) :
    ∃ u, ¬ s.Settled depth u ∧ s.Settled (depth + 1) u := by
  by_contra hnone
  -- otherwise the greater depth makes no difference to any source
  have hsame : ∀ u ∈ s.sourcesOf t,
      Approximates (s.membersWithin (depth + 1) u) (s.membersWithin depth u) := by
    intro u _
    by_cases hu : s.Settled depth u
    · exact .inr (hu.eq_of_le (Nat.le_succ depth)).symm
    · exact .inl (not_not.mp fun hnext => hnone ⟨u, hu, hnext⟩)
  exact hnot fun htoo => h (((membersWithin_approximates hsame).eq h).trans htoo)

/-- The declared types that are settled at a depth. -/
noncomputable def settledAt (s : Schema) (depth : Nat) : Finset TypeId :=
  open scoped Classical in s.ids.toFinset.filter (s.Settled depth)

theorem mem_settledAt : t ∈ s.settledAt depth ↔ t ∈ s.ids ∧ s.Settled depth t := by
  simp [settledAt]

/-- A type that is not settled at a depth greater than zero is declared. -/
theorem mem_ids_of_not_settled (h : ¬ s.Settled (depth + 1) t) : t ∈ s.ids := by
  by_contra hnot
  refine h fun htoo => ?_
  rw [membersWithin_of_notMem hnot] at htoo
  cases htoo

/-- Each depth at which some type is the first time settled brings one more declared type, but for the
first two: without sources there is no need for depth. -/
theorem le_card_settledAt (hnot : ¬ s.Settled depth t) (h : s.Settled (depth + 1) t) :
    depth ≤ (s.settledAt depth).card + 1 := by
  induction depth generalizing t with
  | zero => exact Nat.zero_le _
  | succ depth ih =>
    obtain ⟨u, hu, hu'⟩ := exists_settling hnot h
    have hbefore := ih hu hu'
    cases depth with
    | zero => exact Nat.le_add_left _ _
    | succ depth =>
      have hgrows : s.settledAt (depth + 1) ⊂ s.settledAt (depth + 1 + 1) := by
        refine Finset.ssubset_iff_of_subset (fun v hv => ?_) |>.mpr ⟨u, ?_, fun hmem => ?_⟩
        · obtain ⟨hv, hsettled⟩ := mem_settledAt.mp hv
          exact mem_settledAt.mpr ⟨hv, hsettled.of_le (Nat.le_succ _)⟩
        · exact mem_settledAt.mpr ⟨mem_ids_of_not_settled hu, hu'⟩
        · exact hu (mem_settledAt.mp hmem).2
      have hcard := Finset.card_lt_card hgrows
      omega

/-- **One more than the number of declared types suffices** for every type for which a depth does. -/
theorem settled_within (h : s.Settled depth t) : s.Settled (s.types.length + 1) t := by
  induction depth with
  | zero => exact absurd rfl h
  | succ depth ih =>
    by_cases hbefore : s.Settled depth t
    · exact ih hbefore
    · cases depth with
      | zero => exact h.of_le (Nat.le_add_left _ _)
      | succ depth =>
        have hcard := le_card_settledAt hbefore h
        -- the type itself is declared, and is not among those that are settled before
        have hfewer : (s.settledAt (depth + 1)).card < s.ids.toFinset.card := by
          refine Finset.card_lt_card (Finset.ssubset_iff_of_subset (fun v hv => ?_) |>.mpr
            ⟨t, ?_, fun hmem => ?_⟩)
          · exact List.mem_toFinset.mpr (mem_settledAt.mp hv).1
          · exact List.mem_toFinset.mpr (mem_ids_of_not_settled hbefore)
          · exact hbefore (mem_settledAt.mp hmem).2
        have hids : s.ids.toFinset.card ≤ s.types.length :=
          (List.toFinset_card_le _).trans_eq (List.length_map _)
        exact h.of_le (by omega)

/-! ## 4. The result of reading a type -/

/-- What reading a type gives. -/
def read (s : Schema) (t : TypeId) : Except Fault (List MemberInfo) :=
  s.membersWithin (s.types.length + 1) t

/-- What a depth gives is what reading gives, unless the depth is too small. -/
theorem membersWithin_read (s : Schema) (depth : Nat) (t : TypeId) :
    Approximates (s.membersWithin depth t) (s.read t) := by
  by_cases h : s.Settled depth t
  · rcases Nat.le_total depth (s.types.length + 1) with hle | hle
    · exact membersWithin_le hle t
    · exact .inr ((settled_within h).eq_of_le hle).symm
  · exact .inl (not_not.mp h)

/-- **Every greater depth gives what reading gives.** -/
theorem membersWithin_eq_read (h : s.types.length + 1 ≤ depth) :
    s.membersWithin depth t = s.read t := by
  rcases membersWithin_read s depth t with htoo | heq
  · have hread := (membersWithin_le h t).trans (.inr htoo)
    rcases hread with hread | hread <;> exact htoo.trans hread.symm
  · exact heq

/-- Reading a type comes down to reading its sources. -/
theorem read_eq (s : Schema) (t : TypeId) : s.read t = s.ownMembers t >>= fun own =>
    (if own.isEmpty then .ok [] else (s.sourcesOf t).mapM s.read) >>= fun sources =>
      .ok (own.map (takeOver sources)) :=
  (membersWithin_eq_read (Nat.le_succ _)).symm

/-- **The members of a type are what reading it gives.** -/
theorem reads_iff : s.Reads t ms ↔ s.read t = .ok ms := by
  refine ⟨fun ⟨depth, h⟩ => ?_, fun h => ⟨_, h⟩⟩
  have heq := (membersWithin_read s depth t).eq (by simp [h])
  exact heq.symm.trans h

/-- A type whose sources can be read can be read. -/
theorem Reads.of_sources {own : List MemberInfo} {sources : List (List MemberInfo)}
    (hown : s.ownMembers t = .ok own)
    (h : (if own.isEmpty then .ok [] else (s.sourcesOf t).mapM s.read) = .ok sources) :
    s.Reads t (own.map (takeOver sources)) := by
  rw [reads_iff, read_eq]
  exact except_bind_eq_ok.mpr ⟨own, hown, except_bind_eq_ok.mpr ⟨sources, h, rfl⟩⟩

/-- **There is one list of members to each type.** -/
theorem Reads.unique {ms' : List MemberInfo} (h : s.Reads t ms) (h' : s.Reads t ms') : ms = ms' :=
  Except.ok.inj ((reads_iff.mp h).symm.trans (reads_iff.mp h'))

end Schema
end MemberRules
