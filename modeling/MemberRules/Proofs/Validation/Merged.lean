/-
# Merging results

A merge goes through the failures of several results and keeps those of which it has not kept one with
the same identity and path before.  So what is kept depends on the failures only, not on how they are
divided into results, and what has been left out once could have been kept nowhere later: a merge can be
done in parts, and done again, and comes to the same.

The laws follow from one fact about putting lists of failures one after the other: of the second list
those of its first failures come in whose marks the first list does not have.

* `Failure.mark`: what a merge tells failures apart by.
* `ValidationResult.firstOccurrences_eq`: for each mark, in the order of first occurrence, the first
  failure that has it.
* `ValidationResult.firstOccurrences_append`: failures after other failures.
* `ValidationResult.merge_keeps_firsts`: what a merge keeps, and merging in parts and again.
-/
import Mathlib.Data.List.Induction
import MemberRules.Validation.Failure

namespace MemberRules

/-- What a merge tells failures apart by: their identity and their path. -/
def Failure.mark (f : Failure) : FailureIdentity × String := (f.identity, f.path)

namespace ValidationResult

open Failure (mark)

variable {fs gs hs : List Failure} {m : FailureIdentity × String}

/-! ## 1. The first failures of each mark -/

/-- The marks of failures. -/
def marks (fs : List Failure) : List (FailureIdentity × String) := fs.map mark

@[simp] theorem marks_nil : marks [] = [] := rfl

@[simp] theorem marks_append (fs gs : List Failure) : marks (fs ++ gs) = marks fs ++ marks gs :=
  List.map_append

@[simp] theorem marks_singleton (f : Failure) : marks [f] = [f.mark] := rfl

@[simp] theorem firstOccurrences_nil : firstOccurrences [] = [] := rfl

/-- A failure is kept unless one with its mark has been kept. -/
theorem firstOccurrences_snoc (fs : List Failure) (f : Failure) :
    firstOccurrences (fs ++ [f]) =
      if f.mark ∈ marks (firstOccurrences fs) then firstOccurrences fs
      else firstOccurrences fs ++ [f] := by
  have hany : ((firstOccurrences fs).any fun g => g.identity == f.identity && g.path == f.path) = true ↔
      f.mark ∈ marks (firstOccurrences fs) := by
    simp [marks, mark]
  have hstep : firstOccurrences (fs ++ [f]) =
      if (firstOccurrences fs).any (fun g => g.identity == f.identity && g.path == f.path) then
        firstOccurrences fs
      else firstOccurrences fs ++ [f] := by
    simp [firstOccurrences, List.foldl_append]
  rw [hstep]
  simp only [hany]

/-- Every mark is kept once, in the order of first occurrence. -/
theorem marks_firstOccurrences (fs : List Failure) :
    marks (firstOccurrences fs) = (marks fs).eraseDups := by
  induction fs using List.reverseRecOn with
  | nil => rfl
  | append_singleton fs f ih =>
    rw [firstOccurrences_snoc, marks_append, List.eraseDups_append, ← ih]
    by_cases h : f.mark ∈ marks fs
    · have hkept : f.mark ∈ marks (firstOccurrences fs) := by rw [ih]; simpa using h
      simp [hkept, h, List.removeAll]
    · have hnew : f.mark ∉ marks (firstOccurrences fs) := by rw [ih]; simpa using h
      simp [hnew, h, List.removeAll, List.eraseDups_cons]

@[simp] theorem mem_marks_firstOccurrences : m ∈ marks (firstOccurrences fs) ↔ m ∈ marks fs := by
  rw [marks_firstOccurrences, List.mem_eraseDups]

/-- The first failure with a mark stays the first one when others come after it. -/
theorem find?_append_of_mem (h : m ∈ marks fs) :
    (fs ++ gs).find? (fun f => f.mark == m) = fs.find? fun f => f.mark == m := by
  obtain ⟨f, hf, rfl⟩ := List.mem_map.mp h
  have hfound : (fs.find? fun g => g.mark == f.mark).isSome := by
    rw [List.find?_isSome]
    exact ⟨f, hf, beq_self_eq_true _⟩
  rw [List.find?_append, Option.or_of_isSome hfound]

/-- **What is kept: the first failure of each mark**, in the order of the first occurrences of the
marks. -/
theorem firstOccurrences_eq (fs : List Failure) : (firstOccurrences fs).map some =
    (marks fs).eraseDups.map fun m => fs.find? fun f => f.mark == m := by
  induction fs using List.reverseRecOn with
  | nil => rfl
  | append_singleton fs f ih =>
    -- the first failures with the marks that were there before stay what they were
    have hbefore : ((marks fs).eraseDups.map fun m => (fs ++ [f]).find? fun g => g.mark == m) =
        (firstOccurrences fs).map some := by
      rw [ih]
      refine List.map_congr_left fun m hm => ?_
      exact find?_append_of_mem (List.mem_eraseDups.mp hm)
    rw [firstOccurrences_snoc, marks_append, List.eraseDups_append, List.map_append, hbefore]
    by_cases h : f.mark ∈ marks fs
    · simp [h, List.removeAll]
    · have hnone : fs.find? (fun g => g.mark == f.mark) = none := by
        refine List.find?_eq_none.mpr fun g hg heq => h ?_
        exact eq_of_beq heq ▸ List.mem_map_of_mem hg
      simp [h, List.removeAll, List.eraseDups_cons, List.find?_append, hnone]

/-! ## 2. Failures after other failures -/

/-- **Of failures that come after others**, those first ones are kept whose marks the others do not
have. -/
theorem firstOccurrences_append (fs gs : List Failure) : firstOccurrences (fs ++ gs) =
    firstOccurrences fs ++ (firstOccurrences gs).filter fun g => g.mark ∉ marks fs := by
  induction gs using List.reverseRecOn with
  | nil => simp
  | append_singleton gs g ih =>
    rw [← List.append_assoc, firstOccurrences_snoc, firstOccurrences_snoc]
    simp only [mem_marks_firstOccurrences, marks_append, List.mem_append]
    by_cases hfirst : g.mark ∈ marks fs
    · by_cases hsecond : g.mark ∈ marks gs <;> simp [ih, hfirst, hsecond]
    · by_cases hsecond : g.mark ∈ marks gs <;> simp [ih, hfirst, hsecond]

/-- First failures are all kept when they are gone through again. -/
@[simp] theorem firstOccurrences_firstOccurrences (fs : List Failure) :
    firstOccurrences (firstOccurrences fs) = firstOccurrences fs := by
  induction fs using List.reverseRecOn with
  | nil => rfl
  | append_singleton fs f ih =>
    rw [firstOccurrences_snoc]
    split
    · exact ih
    · rename_i hnew
      rw [firstOccurrences_snoc, ih, if_neg hnew]

/-- What has been left out of a part is left out of the whole: first failures may stand for all
failures in front. -/
@[simp] theorem firstOccurrences_append_left (fs gs : List Failure) :
    firstOccurrences (firstOccurrences fs ++ gs) = firstOccurrences (fs ++ gs) := by
  simp [firstOccurrences_append]

/-- First failures may stand for all failures behind others. -/
@[simp] theorem firstOccurrences_append_right (fs gs : List Failure) :
    firstOccurrences (fs ++ firstOccurrences gs) = firstOccurrences (fs ++ gs) := by
  simp [firstOccurrences_append]

/-- Failures whose marks have all come before are left out. -/
theorem firstOccurrences_append_of_subset (h : marks gs ⊆ marks fs) :
    firstOccurrences (fs ++ gs) = firstOccurrences fs := by
  have hnone : (firstOccurrences gs).filter (fun g => g.mark ∉ marks fs) = [] := by
    refine List.filter_eq_nil_iff.mpr fun g hg => ?_
    have hmem : g.mark ∈ marks gs := mem_marks_firstOccurrences.mp (List.mem_map_of_mem hg)
    simpa using h hmem
  rw [firstOccurrences_append, hnone, List.append_nil]

/-! ## 3. Merging -/

/-- All failures of results. -/
def allFailures (rs : List ValidationResult) : List Failure := rs.flatMap failures

@[simp] theorem allFailures_cons (r : ValidationResult) (rs : List ValidationResult) :
    allFailures (r :: rs) = r.failures ++ allFailures rs := List.flatMap_cons

@[simp] theorem allFailures_append (rs rs' : List ValidationResult) :
    allFailures (rs ++ rs') = allFailures rs ++ allFailures rs' := List.flatMap_append

theorem failures_merge (rs : List ValidationResult) :
    (merge rs).failures = firstOccurrences (allFailures rs) := rfl

theorem merge_eq_merge_iff {rs rs' : List ValidationResult} : merge rs = merge rs' ↔
    firstOccurrences (allFailures rs) = firstOccurrences (allFailures rs') :=
  ⟨congrArg failures, congrArg ValidationResult.mk⟩

/-- A part may be merged before the rest. -/
theorem merge_part (before rs after : List ValidationResult) :
    merge (before ++ merge rs :: after) = merge (before ++ rs ++ after) := by
  rw [merge_eq_merge_iff]
  calc firstOccurrences (allFailures (before ++ merge rs :: after))
    _ = firstOccurrences ((allFailures before ++ firstOccurrences (allFailures rs)) ++
          allFailures after) := by simp [failures_merge]
    _ = firstOccurrences (firstOccurrences (allFailures before ++ allFailures rs) ++
          allFailures after) := by
      rw [← firstOccurrences_append_left, firstOccurrences_append_right]
    _ = firstOccurrences (allFailures (before ++ rs ++ after)) := by simp

/-- All parts may be merged before the whole is. -/
theorem merge_parts (rss : List (List ValidationResult)) :
    merge (rss.map merge) = merge rss.flatten := by
  induction rss with
  | nil => rfl
  | cons rs rss ih =>
    rw [merge_eq_merge_iff] at ih ⊢
    calc firstOccurrences (allFailures (merge rs :: rss.map merge))
      _ = firstOccurrences (allFailures rs ++ firstOccurrences (allFailures (rss.map merge))) := by
        simp [failures_merge]
      _ = firstOccurrences (allFailures (rs ++ rss.flatten)) := by
        rw [ih]
        simp

/-- A merge, merged with itself any number of times, stays what it is. -/
theorem merge_replicate (rs : List ValidationResult) (n : Nat) :
    merge (List.replicate (n + 1) (merge rs)) = merge rs := by
  rw [merge_eq_merge_iff]
  have hsame : ∀ n, marks (allFailures (List.replicate n (merge rs))) ⊆ marks (allFailures rs) := by
    intro n
    induction n with
    | zero => exact List.nil_subset _
    | succ n ih =>
      intro m hm
      rw [List.replicate_succ, allFailures_cons, marks_append, List.mem_append] at hm
      rcases hm with hm | hm
      · exact mem_marks_firstOccurrences.mp hm
      · exact ih hm
  rw [List.replicate_succ, allFailures_cons, failures_merge, firstOccurrences_append_left]
  exact firstOccurrences_append_of_subset (hsame n)

/-- A merge is valid if and only if nothing was merged but valid results. -/
theorem isValid_merge (rs : List ValidationResult) :
    (merge rs).isValid = true ↔ ∀ r ∈ rs, r.isValid = true := by
  have hnone : ∀ fs : List Failure, firstOccurrences fs = [] ↔ fs = [] := by
    intro fs
    refine ⟨fun h => ?_, fun h => by rw [h]; rfl⟩
    have hmarks : (marks fs) = [] := List.eq_nil_iff_forall_not_mem.mpr fun m hm => by
      have hkept := mem_marks_firstOccurrences.mpr hm
      rw [h] at hkept
      cases hkept
    exact List.map_eq_nil_iff.mp hmarks
  unfold isValid
  rw [List.isEmpty_iff, failures_merge, hnone, allFailures, List.flatMap_eq_nil_iff]
  simp

/-- **What a merge keeps is, for each identity and path among the failures of the results, the first
failure that has them**, in the order of their first occurrences.  So it makes no difference whether
parts are merged first, one or all of them, a merge stays what it is when it is merged again, alone or
with itself, and it is valid if and only if all results are. -/
theorem merge_keeps_firsts (rs : List ValidationResult) :
    (merge rs).failures.map some =
        ((allFailures rs).map Failure.mark).eraseDups.map
          (fun m => (allFailures rs).find? fun f => f.mark == m) ∧
      (∀ before after, merge (before ++ merge rs :: after) = merge (before ++ rs ++ after)) ∧
      (∀ rss : List (List ValidationResult), merge (rss.map merge) = merge rss.flatten) ∧
      (∀ n, merge (List.replicate (n + 1) (merge rs)) = merge rs) ∧
      ((merge rs).isValid = true ↔ ∀ r ∈ rs, r.isValid = true) :=
  ⟨firstOccurrences_eq _, fun before after => merge_part before rs after, merge_parts,
    merge_replicate rs, isValid_merge rs⟩

end ValidationResult
end MemberRules
