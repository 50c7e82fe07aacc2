/-
# The members of a type

The members of a type have different names.  Hints are gathered under their names, a computed member
is taken from the nearest type that has it and only if it is not announced, and taking attributes
over leaves the names alone.

* `Schema.membersWithin`: the members of a type, read without any memory.
* `Schema.Reads`: there is a depth that suffices to read them.
* `Schema.Reads.nodup`: no two members of a type have the same name.
-/
import Mathlib.Data.List.Nodup
import MemberRules.Proofs.Computation

namespace MemberRules
namespace Schema

open MemberRules.Computation

variable {s : Schema} {t : TypeId} {ms : List MemberInfo}

/-! ## 1. Names -/

/-- The names of members. -/
def memberNames (ms : List MemberInfo) : List String := ms.map fun m => m.member.name

theorem keys_setHint (hs : List (String × Hint)) (name : String) (h : Hint) :
    (setHint hs name h).map Prod.fst =
      if name ∈ hs.map Prod.fst then hs.map Prod.fst else hs.map Prod.fst ++ [name] := by
  unfold setHint
  have hany : (hs.any fun e => e.1 == name) = true ↔ name ∈ hs.map Prod.fst := by
    simp only [List.any_eq_true, List.mem_map, beq_iff_eq]
  by_cases hmem : name ∈ hs.map Prod.fst
  · rw [if_pos (hany.mpr hmem), if_pos hmem, List.map_map]
    refine List.map_congr_left fun e _ => ?_
    by_cases he : e.1 = name
    · simp [he]
    · simp [he]
  · rw [if_neg fun h => hmem (hany.mp h), if_neg hmem, List.map_append]
    rfl

/-- A list that gets an element at its end unless it has it stays without repetition. -/
theorem nodup_snoc_of_notMem {α : Type} {l : List α} {a : α} (hl : l.Nodup) (ha : a ∉ l) :
    (l ++ [a]).Nodup :=
  List.nodup_append.mpr ⟨hl, List.nodup_singleton a, fun _ hb _ hc heq =>
    ha (List.mem_singleton.mp hc ▸ heq ▸ hb)⟩

/-- Hints are gathered under different names. -/
theorem gather_nodup (line : List TypeDecl) (announced : TypeDecl → List (String × Hint)) :
    ((gather line announced).map Prod.fst).Nodup := by
  unfold gather
  have hfold : ∀ (es hs : List (String × Hint)), (hs.map Prod.fst).Nodup →
      ((es.foldl (fun hs e => setHint hs e.1 e.2) hs).map Prod.fst).Nodup := by
    intro es
    induction es with
    | nil => exact fun hs h => h
    | cons e es ih =>
      intro hs h
      refine ih _ ?_
      rw [keys_setHint]
      split
      · exact h
      · exact nodup_snoc_of_notMem h ‹_›
  exact hfold _ [] List.nodup_nil

theorem hints_nodup {hs : List (String × Hint)} (h : s.hints t = .ok hs) :
    (hs.map Prod.fst).Nodup := by
  unfold hints at h
  cases hrecord : (s.lineOf t).head?.filter TypeDecl.isRecord with
  | some record =>
    rw [hrecord] at h
    cases h
    exact (gather_nodup _ _).sublist (List.filter_sublist.map _)
  | none =>
    rw [hrecord] at h
    have hkeys : hs.map Prod.fst = (s.announcements t).map Prod.fst := by
      refine map_of_mapM_eq_ok h fun e e' he => ?_
      cases hresolve : s.resolve? e.2 with
      | none => simp [hresolve] at he
      | some hint =>
        simp only [hresolve] at he
        cases he
        rfl
    rw [hkeys]
    exact gather_nodup _ _

theorem member_name {name : String} {m : MemberRef} (h : s.member t name = .ok m) :
    m.name = name := by
  unfold member at h
  split at h
  · rename_i m' hm
    cases h
    unfold member? at hm
    split at hm
    · cases hm
    · obtain ⟨d, -, rfl⟩ := Option.map_eq_some_iff.mp hm
      rfl
  · cases h

theorem announcedMembers_nodup (h : s.announcedMembers t = .ok ms) : (memberNames ms).Nodup := by
  obtain ⟨hs, hhints, h⟩ := except_bind_eq_ok.mp h
  have hnames : memberNames ms = (hs.filter fun e => isModelField e.1 e.2).map Prod.fst := by
    refine map_of_mapM_eq_ok h fun e m hm => ?_
    obtain ⟨ref, href, hm⟩ := except_bind_eq_ok.mp hm
    cases hm
    exact member_name href
  rw [hnames]
  exact (hints_nodup hhints).sublist (List.filter_sublist.map _)

/-- Of the computed members, the nearest one of each name is taken. -/
theorem computedMembers_nodup (s : Schema) (t : TypeId) (announced : List String) :
    ((s.computedMembers t announced).map fun p => p.2.1).Nodup := by
  unfold computedMembers
  refine List.Nodup.sublist (List.filter_sublist.map _) ?_
  have hfold : ∀ (ps kept : List (TypeId × String × Option Hint)),
      (kept.map fun q => q.2.1).Nodup →
      ((ps.foldl (fun (kept : List (TypeId × String × Option Hint)) p =>
        if kept.any fun q => q.2.1 == p.2.1 then kept else kept ++ [p]) kept).map
          fun q => q.2.1).Nodup := by
    intro ps
    induction ps with
    | nil => exact fun kept h => h
    | cons p ps ih =>
      intro kept h
      refine ih _ ?_
      dsimp only
      split
      · exact h
      · rename_i hnew
        rw [List.map_append]
        refine nodup_snoc_of_notMem h fun hmem => hnew ?_
        obtain ⟨q, hq, heq⟩ := List.mem_map.mp hmem
        exact List.any_eq_true.mpr ⟨q, hq, beq_iff_eq.mpr heq⟩
  exact hfold _ [] List.nodup_nil

/-- A computed member makes no member but itself. -/
theorem annotatedMember_cases {p : TypeId × String × Option Hint} (h : s.annotatedMember p = .ok ms) :
    ms = [] ∨ ∃ m, ms = [m] ∧ m.member = ⟨p.1, p.2.1, .property⟩ := by
  unfold annotatedMember at h
  split at h
  · split at h
    · split at h
      · cases h
      · split at h <;> cases h
        · exact .inl rfl
        · exact .inr ⟨_, rfl, rfl⟩
    · cases h
      exact .inl rfl
  · cases h
    exact .inl rfl

theorem annotatedMember_names {p : TypeId × String × Option Hint}
    (h : s.annotatedMember p = .ok ms) : (memberNames ms).Sublist [p.2.1] := by
  rcases annotatedMember_cases h with rfl | ⟨m, rfl, hm⟩
  · exact List.nil_sublist _
  · simp [memberNames, hm]

theorem annotatedMembers_names {ps : List (TypeId × String × Option Hint)}
    {mss : List (List MemberInfo)} (h : ps.mapM s.annotatedMember = .ok mss) :
    (memberNames mss.flatten).Sublist (ps.map fun p => p.2.1) := by
  induction mapM_eq_ok_iff.mp h with
  | nil => exact .refl _
  | cons hms _ ih =>
    have hfirst := annotatedMember_names hms
    have hrest := ih (mapM_eq_ok_iff.mpr ‹_›)
    unfold memberNames at hfirst hrest ⊢
    rw [List.flatten_cons, List.map_append, List.map_cons]
    exact hfirst.append hrest

theorem ownMembers_nodup (h : s.ownMembers t = .ok ms) : (memberNames ms).Nodup := by
  obtain ⟨fields, hfields, h⟩ := except_bind_eq_ok.mp h
  obtain ⟨computed, hcomputed, h⟩ := except_bind_eq_ok.mp h
  cases h
  have hsub := annotatedMembers_names hcomputed
  have hannounced : ∀ name ∈ (s.computedMembers t (memberNames fields)).map (fun p => p.2.1),
      name ∉ memberNames fields := by
    intro name hname
    obtain ⟨p, hp, rfl⟩ := List.mem_map.mp hname
    have hnot := (List.mem_filter.mp hp).2
    simpa using hnot
  unfold memberNames at hsub hannounced ⊢
  rw [List.map_append]
  refine List.nodup_append.mpr
    ⟨announcedMembers_nodup hfields, (computedMembers_nodup s t _).sublist hsub, ?_⟩
  intro a ha b hb hab
  exact hannounced b (hsub.subset hb) (hab ▸ ha)

theorem memberNames_takeOver (sources : List (List MemberInfo)) (ms : List MemberInfo) :
    memberNames (ms.map (takeOver sources)) = memberNames ms := by
  unfold memberNames
  rw [List.map_map]
  rfl

/-! ## 2. Reading anew -/

/-- The members of a type, read without any memory; `depth` bounds how far its sources reach. -/
def membersWithin (s : Schema) : Nat → TypeId → Except Fault (List MemberInfo)
  | 0, _ => .error .tooDeep
  | depth + 1, t =>
    s.ownMembers t >>= fun own =>
      (if own.isEmpty then .ok [] else (s.sourcesOf t).mapM (s.membersWithin depth)) >>= fun sources =>
        .ok (own.map (takeOver sources))

/-- What reading a type anew gives. -/
def Reads (s : Schema) (t : TypeId) (ms : List MemberInfo) : Prop :=
  ∃ depth, s.membersWithin depth t = .ok ms

/-- The members of a type are its own, with the attributes of its sources. -/
theorem Reads.exists_own (h : s.Reads t ms) :
    ∃ own sources, s.ownMembers t = .ok own ∧ ms = own.map (takeOver sources) := by
  obtain ⟨depth, h⟩ := h
  cases depth with
  | zero => cases h
  | succ depth =>
    obtain ⟨own, hown, h⟩ := except_bind_eq_ok.mp h
    obtain ⟨sources, -, h⟩ := except_bind_eq_ok.mp h
    cases h
    exact ⟨own, sources, hown, rfl⟩

/-- **No two members of a type have the same name.** -/
theorem Reads.nodup (h : s.Reads t ms) : (memberNames ms).Nodup := by
  obtain ⟨own, sources, hown, rfl⟩ := h.exists_own
  rw [memberNames_takeOver]
  exact ownMembers_nodup hown

end Schema
end MemberRules
