/-
# Cultures and their names

Look-ups are remembered by the name of the culture, but strings are searched for along its chain,
which goes by the language as well.  So a name has to say what the language is.  It does if the
language is a word: the name starts with it, and goes on with a low line or an at sign, if at all, and
these are no letters.  All cultures that are read from texts have such languages.

* `Culture.IsWorded`: the invariant culture, and those whose language is a word.
* `Culture.language_eq_of_name`: the name of one of these says what its language is.
* `Resources.find_eq_of_nameOf`: so a resource gives the same for all of a name.
* `Culture.find_isWorded`, `Culture.parse_isWorded`: a culture that is read from a text is one.
-/
import MemberRules.Proofs.Computation
import MemberRules.Resource.Basic

namespace MemberRules

open MemberRules.Computation

namespace Culture

/-! ## 1. The language in a name -/

/-- A culture whose language is a word of letters, or the invariant culture. -/
def IsWorded (culture : Option Culture) : Prop := ∀ c ∈ culture, isAlphabetic c.language = true

/-- What can come after a word. -/
def Stops (cs : List Char) : Prop := ∀ x ∈ cs.head?, Text.isLetter x = false

theorem takeWhile_of_stops {word rest : List Char} (hword : ∀ x ∈ word, Text.isLetter x = true)
    (hrest : Stops rest) : (word ++ rest).takeWhile Text.isLetter = word := by
  rw [List.takeWhile_append_of_pos hword]
  cases rest with
  | nil => rw [List.takeWhile_nil, List.append_nil]
  | cons x rest => rw [List.takeWhile_cons_of_neg (by simp [hrest x rfl]), List.append_nil]

theorem baseName_toList (c : Culture) :
    ∃ rest, c.baseName.toList = c.language.toList ++ rest ∧ Stops rest := by
  have hparts : c.baseName = "_".intercalate
      (c.language :: (c.script.toList ++ c.territory.toList ++ c.variant.toList)) := rfl
  rw [hparts]
  rcases c.script.toList ++ c.territory.toList ++ c.variant.toList with _ | ⟨part, parts⟩
  · exact ⟨[], by simp, fun x hx => by cases hx⟩
  · refine ⟨'_' :: ("_".intercalate (part :: parts)).toList, by simp, ?_⟩
    intro x hx
    obtain rfl := Option.some.inj hx
    decide +kernel

/-- A name starts with the language. -/
theorem name_toList (c : Culture) :
    ∃ rest, c.name.toList = c.language.toList ++ rest ∧ Stops rest := by
  obtain ⟨rest, hbase, hrest⟩ := c.baseName_toList
  unfold name
  cases c.modifier with
  | none => exact ⟨rest, hbase, hrest⟩
  | some m =>
    refine ⟨rest ++ '@' :: m.toList, by simp [hbase], ?_⟩
    cases rest with
    | nil =>
      intro x hx
      obtain rfl := Option.some.inj hx
      decide +kernel
    | cons y rest => exact hrest

/-- **Cultures of the same name have the same language**, if it is a word. -/
theorem language_eq_of_name {c c' : Culture} (hc : isAlphabetic c.language = true)
    (hc' : isAlphabetic c'.language = true) (h : c.name = c'.name) : c.language = c'.language := by
  have hletters : ∀ {s : String}, isAlphabetic s = true → ∀ x ∈ s.toList, Text.isLetter x = true := by
    intro s hs
    unfold isAlphabetic at hs
    exact List.all_eq_true.mp (Bool.and_eq_true_iff.mp hs).2
  obtain ⟨rest, hname, hrest⟩ := c.name_toList
  obtain ⟨rest', hname', hrest'⟩ := c'.name_toList
  apply String.toList_inj.mp
  calc c.language.toList
    _ = c.name.toList.takeWhile Text.isLetter := by
      rw [hname, takeWhile_of_stops (hletters hc) hrest]
    _ = c'.language.toList := by
      rw [h, hname', takeWhile_of_stops (hletters hc') hrest']

/-- The name of a culture that is not the invariant one is not empty. -/
theorem name_ne_empty {c : Culture} (hc : isAlphabetic c.language = true) : c.name ≠ "" := by
  intro h
  obtain ⟨rest, hname, -⟩ := c.name_toList
  rw [h] at hname
  have hempty : c.language.toList = [] := (List.append_eq_nil_iff.mp hname.symm).1
  unfold isAlphabetic at hc
  simp [String.toList_eq_nil_iff.mp hempty] at hc

/-- Cultures of the same name are both the invariant one, or have the same language. -/
theorem eq_none_or_of_nameOf {culture culture' : Option Culture} (h : IsWorded culture)
    (h' : IsWorded culture') (hname : nameOf culture = nameOf culture') :
    culture = none ∧ culture' = none ∨
      ∃ c c', culture = some c ∧ culture' = some c' ∧ c.name = c'.name ∧ c.language = c'.language := by
  match culture, culture' with
  | none, none => exact .inl ⟨rfl, rfl⟩
  | none, some c' => exact absurd hname.symm (name_ne_empty (h' c' rfl))
  | some c, none => exact absurd hname (name_ne_empty (h c rfl))
  | some c, some c' =>
    exact .inr ⟨c, c', rfl, rfl, hname, language_eq_of_name (h c rfl) (h' c' rfl) hname⟩

end Culture

/-! ## 2. Strings for a name -/

/-- **A resource gives the same for cultures of the same name.** -/
theorem Resources.find_eq_of_nameOf {culture culture' : Option Culture}
    (h : Culture.IsWorded culture) (h' : Culture.IsWorded culture')
    (hname : Culture.nameOf culture = Culture.nameOf culture') (rs : Resources)
    (resource : Option String) (key : String) :
    rs.find resource key culture = rs.find resource key culture' := by
  rcases Culture.eq_none_or_of_nameOf h h' hname with ⟨rfl, rfl⟩ | ⟨c, c', rfl, rfl, hnames, hlanguage⟩
  · rfl
  · have hchain : Culture.chain (some c) = Culture.chain (some c') := by
      show [c.name, c.language, ""].eraseDups = [c'.name, c'.language, ""].eraseDups
      rw [hnames, hlanguage]
    have hvalue : ∀ v, ResourceMember.callValue? key (some c) v =
        ResourceMember.callValue? key (some c') v := by
      intro v
      unfold ResourceMember.callValue?
      rfl
    have hcall : ∀ onObject m, ResourceMember.call? onObject key (some c) m =
        ResourceMember.call? onObject key (some c') m := by
      intro onObject m
      cases m <;> simp only [ResourceMember.call?, hvalue]
    have hstring : ∀ r, rs.string? r key (some c) = rs.string? r key (some c') := by
      intro r
      cases r with
      | catalog t => simp only [Resources.string?, Catalog.get?, hchain]
      | members t => simp only [Resources.string?, hcall]
    unfold Resources.find Resources.miss
    simp only [hstring, hname]

/-! ## 3. Cultures that are read -/

namespace Culture

/-- A tag is only read if its language is a word. -/
theorem isAlphabetic_of_ofTag {separator tag : String} {c : Culture}
    (h : ofTag separator tag = .ok c) : isAlphabetic c.language = true := by
  unfold ofTag at h
  simp only at h
  split at h
  · cases h
  · rename_i hword
    split at h <;> cases h
    simpa using hword

theorem isAlphabetic_of_likely? {s : String} {c : Culture} (h : likely? s = some c) :
    isAlphabetic c.language = true := by
  unfold likely? at h
  split at h <;> cases h <;> decide +kernel

theorem language_of_reduced? {c found : Culture} (h : c.reduced? = some found) :
    found.language = c.language := by
  unfold reduced? at h
  dsimp only at h
  split at h
  · cases h
    rfl
  · split at h <;> cases h
    rfl

/-- A tag is resolved to a culture whose language is a word. -/
theorem isAlphabetic_of_resolve {c found : Culture} (hc : isAlphabetic c.language = true)
    (h : resolve c = .ok found) : isAlphabetic found.language = true := by
  unfold resolve at h
  split at h
  · cases h
    exact hc
  · dsimp only at h
    split at h <;> cases h
    rename_i hfound
    rcases Option.or_eq_some_iff.mp hfound with hwhole | ⟨-, hlanguage⟩
    · obtain ⟨l, hl, hreduced⟩ := Option.bind_eq_some_iff.mp hwhole
      rw [language_of_reduced? hreduced]
      exact isAlphabetic_of_likely? hl
    · obtain ⟨l, hl, hreduced⟩ := Option.bind_eq_some_iff.mp hlanguage
      have hlanguage : isAlphabetic l.language = true := isAlphabetic_of_likely? hl
      rwa [language_of_reduced? hreduced]

/-- **A culture that is found by a tag has a word for its language.** -/
theorem find_isWorded {separator tag : String} {c : Culture} (h : find separator tag = .ok c) :
    IsWorded (some c) := by
  obtain ⟨c₀, htag, hresolve⟩ := except_bind_eq_ok.mp h
  rintro _ ⟨⟩
  exact isAlphabetic_of_resolve (isAlphabetic_of_ofTag htag) hresolve

/-- **A culture that is read from a text has a word for its language.** -/
theorem parse_isWorded {text : Option String} {culture : Option Culture}
    (h : parse text = .ok culture) : IsWorded culture := by
  unfold parse at h
  split at h
  · cases h
    rintro _ ⟨⟩
  · dsimp only at h
    split at h
    · cases h
      rintro _ ⟨⟩
    · split at h <;> cases h
      rename_i hfind
      exact find_isWorded hfind

end Culture
end MemberRules
