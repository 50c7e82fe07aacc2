/-
# Spellings of cultures

A text is cut at the places of a character, and that is told by its list of characters.  So it can be
said which texts spell the same culture: blanks around a text do not count, and a dash counts as a low
line.

* `Text.splitOn_singleton`: the parts of a text, by its list of characters.
* `Culture.parse_eq`, `Culture.parse_respelled`: the characters of a text that its culture depends on.
-/
import Mathlib.Data.String.Basic
import MemberRules.Culture.Basic

namespace MemberRules

/-! ## 1. The parts of a text -/

namespace Text

/-- Looking for a text of one character is looking for the character. -/
theorem splitOnAux_singleton (s : String) (c : Char) (b i : String.Pos.Raw) (parts : List String) :
    s.splitOnAux (String.singleton c) b i 0 parts = s.splitAux (· == c) b i parts := by
  have hget : String.Pos.Raw.get (String.singleton c) 0 = c := by
    simpa using String.get_of_valid [] [c]
  have hnext : String.Pos.Raw.next (String.singleton c) 0 = ⟨c.utf8Size⟩ := by
    simpa using String.next_of_valid [] c []
  have hend : String.Pos.Raw.atEnd (String.singleton c) ⟨c.utf8Size⟩ = true := by
    simpa using (String.atEnd_of_valid [c] []).mpr rfl
  induction b, i, parts using String.splitAux.induct s (· == c) with
  | case1 b i parts hatEnd =>
    rw [String.splitOnAux, String.splitAux, if_pos hatEnd, dif_pos hatEnd]
  | case2 b i parts hatEnd _ heq i' ih =>
    -- the part ends where the character that was found begins
    have hback : (String.Pos.Raw.next s i).unoffsetBy ⟨c.utf8Size⟩ = i := by
      have hc : String.Pos.Raw.get s i = c := by simpa using heq
      simp [String.Pos.Raw.next, String.Pos.Raw.unoffsetBy, hc]
    rw [String.splitOnAux, String.splitAux, if_neg hatEnd, dif_neg hatEnd, hget, if_pos heq, if_pos heq]
    simp only [hnext, hend, if_true, hback]
    exact ih
  | case3 b i parts hatEnd _ hne ih =>
    have hback : i.unoffsetBy 0 = i := by
      simp [String.Pos.Raw.unoffsetBy]
    rw [String.splitOnAux, String.splitAux, if_neg hatEnd, dif_neg hatEnd, hget, if_neg hne, if_neg hne,
      hback]
    exact ih

/-- **The parts of a text between the places of a character.** -/
theorem splitOn_singleton (s : String) (c : Char) :
    s.splitOn (String.singleton c) = (s.toList.splitOn c).map String.ofList := by
  have hne : (String.singleton c == "") = false := by simp
  unfold String.splitOn
  rw [hne, if_neg Bool.false_ne_true]
  exact (splitOnAux_singleton s c 0 0 []).trans (String.splitToList_of_valid s (· == c))

theorem splitOn_dash (s : String) : s.splitOn "-" = (s.toList.splitOn '-').map String.ofList :=
  splitOn_singleton s '-'

theorem splitOn_lowLine (s : String) : s.splitOn "_" = (s.toList.splitOn '_').map String.ofList :=
  splitOn_singleton s '_'

/-- Parts that are joined by another character than they were cut at. -/
theorem intercalate_splitOn_eq_map {α : Type} [DecidableEq α] (a b : α) (xs : List α) :
    [b].intercalate (xs.splitOn a) = xs.map fun x => if x = a then b else x := by
  induction xs with
  | nil => rfl
  | cons x xs ih =>
    obtain ⟨part, parts, hparts⟩ := List.exists_cons_of_ne_nil (List.splitOn_ne_nil a xs)
    rw [List.splitOn_cons_eq_if_modifyHead, hparts]
    rw [hparts] at ih
    by_cases hx : x = a
    · simp [hx, ← ih]
    · cases parts <;> simp_all

end Text

/-! ## 2. Texts that spell the same -/

namespace Culture

/-- What a text is read as: without the blanks around it, and with low lines for dashes. -/
def tagOf (s : String) : String :=
  String.ofList ((Text.strip s).toList.map fun x => if x = '-' then '_' else x)

theorem tagOf_eq (s : String) : "_".intercalate ((Text.strip s).splitOn "-") = tagOf s := by
  have hparts (parts : List (List Char)) : (parts.map String.ofList).map String.toList = parts := by
    simp
  apply String.toList_inj.mp
  calc ("_".intercalate ((Text.strip s).splitOn "-")).toList
    _ = ['_'].intercalate ((Text.strip s).toList.splitOn '-') := by
      rw [Text.splitOn_dash, String.toList_intercalate, hparts]
      rfl
    _ = (tagOf s).toList := by
      rw [Text.intercalate_splitOn_eq_map, tagOf, String.toList_ofList]

/-- The culture of a text depends on its tag alone. -/
theorem toOption_parse (s : String) : (parse (some s)).toOption =
    if (tagOf s).isEmpty then some none else (find "_" (tagOf s)).toOption.map some := by
  unfold parse
  dsimp only
  rw [tagOf_eq]
  split
  · rfl
  · cases find "_" (tagOf s) <;> rfl

/-- **Texts of one tag spell the same culture**: blanks around them do not count, and dashes count as low
lines. -/
theorem parse_respelled {s s' : String} (h : tagOf s = tagOf s') :
    (parse (some s)).toOption = (parse (some s')).toOption := by
  rw [toOption_parse, toOption_parse, h]

end Culture
end MemberRules
