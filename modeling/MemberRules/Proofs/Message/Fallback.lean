/-
# Strings that fall back

A catalog is filled piece by piece: with the strings that it is made of, and with those that are added
afterwards.  The culture of a piece is given by itself or spelled by a text, and a piece whose culture is
not known changes nothing.  In which pieces its strings came, and under which spellings, a catalog does
not show.  What it gives for a key can be said from all the strings that were put into it: the last one
under the key for the culture; without one, the last one for its language; and else the last one for the
invariant culture.

Cultures are told apart by their names here, as they are by a catalog.

* `Catalog.Filling`: what a catalog is made of, and what is added to it.
* `Catalog.Newest`, `Catalog.FallsBack`: the law, about all strings that were put in.
* `Catalog.Holds`: the tables of a catalog show these strings, and every addition keeps it so.
* `Catalog.given_by_fallback`: a catalog gives what the law says, strings for other cultures make no
  difference, and neither do spellings.
-/
import Mathlib.Data.List.Induction
import MemberRules.Proofs.Computation
import MemberRules.Proofs.Culture.Spelling
import MemberRules.Resource.Catalog

namespace MemberRules

open MemberRules.Computation

/-- The cultures whose strings serve a culture: itself, its language alone, and the invariant one. -/
def Culture.fallbacks : Option Culture → List (Option Culture)
  | none => [none]
  | some c => [some c, some { language := c.language }, none]

namespace Catalog

/-! ## 1. Filling a catalog -/

/-- How a culture is given: by a text, or as itself. -/
inductive Spelling
  | text (s : Option String)
  | culture (c : Culture)

/-- The culture that is given. -/
def Spelling.meaning : Spelling → Except Fault (Option Culture)
  | text s => Culture.parse s
  | culture c => .ok (some c)

/-- Strings that are added for a culture. -/
structure Addition where
  culture : Spelling
  entries : List (String × String)

/-- The strings of a culture that a catalog is made of, as an addition. -/
def Addition.ofStrings (s : String × List (String × String)) : Addition := ⟨.text s.1, s.2⟩

/-- The catalog with an addition. -/
def Addition.run (a : Addition) (c : Catalog) : Except Fault Catalog :=
  match a.culture with
  | .text s => c.addNamed s a.entries
  | .culture d => .ok (c.add (some d) a.entries)

/-- The catalog after an addition; it stays as it is if that fails. -/
def after (c : Catalog) (a : Addition) : Catalog := (a.run c).toOption.getD c

/-- How a catalog comes about: the strings that it is made of, by texts of cultures, and the additions
that follow. -/
structure Filling where
  name : String
  strings : List (String × List (String × String))
  additions : List Addition

/-- The catalog that comes about. -/
def Filling.run (f : Filling) : Except Fault Catalog := do
  return f.additions.foldl after (← ofStrings f.name f.strings)

/-! ## 2. Lists that are searched -/

theorem findSome?_congr {α β : Type} {f g : α → Option β} {as : List α} (h : ∀ a ∈ as, f a = g a) :
    as.findSome? f = as.findSome? g := by
  induction as with
  | nil => rfl
  | cons a as ih =>
    rw [List.findSome?_cons, List.findSome?_cons, h a List.mem_cons_self,
      ih fun b hb => h b (List.mem_cons_of_mem a hb)]

theorem findSome?_eraseDups {α β : Type} [BEq α] [LawfulBEq α] (f : α → Option β) (as : List α) :
    as.eraseDups.findSome? f = as.findSome? f := by
  induction as using List.reverseRecOn with
  | nil => rfl
  | append_singleton as a ih =>
    rw [List.eraseDups_append, List.findSome?_append, List.findSome?_append, ih]
    -- what came before gave nothing there, and gives nothing here
    by_cases ha : a ∈ as
    · cases hfound : as.findSome? f with
      | some b => rfl
      | none => simp [List.removeAll, ha, List.findSome?_eq_none_iff.mp hfound a ha]
    · simp [List.removeAll, ha, List.eraseDups_cons]

/-- The entries of a list after those of a key are changed, or one is put at the end if there are none. -/
theorem lookup_put {α : Type} (es : List (String × α)) (k k' : String) (f : α → α) (x : α) :
    (if es.any fun e => e.1 == k then es.map fun e => if e.1 == k then (k, f e.2) else e
      else es ++ [(k, x)]).lookup k' =
      if k' = k then some (((es.lookup k).map f).getD x) else es.lookup k' := by
  have hmap : (es.map fun e => if e.1 == k then (k, f e.2) else e) =
      es.map fun e => (e.1, if e.1 = k then f e.2 else e.2) := by
    refine List.map_congr_left fun e _ => ?_
    by_cases he : e.1 = k <;> simp [he]
  by_cases hany : es.any fun e => e.1 == k
  · obtain ⟨e, he, hek⟩ := List.any_eq_true.mp hany
    obtain ⟨y, hy⟩ : ∃ y, es.lookup k = some y :=
      Option.isSome_iff_exists.mp (List.lookup_isSome_iff.mpr ⟨e, he, BEq.symm hek⟩)
    rw [if_pos hany, hmap, lookup_map_entry]
    by_cases hk : k' = k <;> simp [hk, hy]
  · have hnone : es.lookup k = none := by
      refine List.lookup_eq_none_iff.mpr fun e he => bne_iff_ne.mpr fun hek => hany ?_
      exact List.any_eq_true.mpr ⟨e, he, beq_iff_eq.mpr hek.symm⟩
    rw [if_neg hany, List.lookup_append, List.lookup_cons]
    by_cases hk : k' = k
    · simp [hk, hnone]
    · simp [hk, beq_eq_false_iff_ne.mpr hk]

/-! ## 3. The law of fallback -/

/-- A string that is put under a key for a culture. -/
structure Deposit where
  culture : Option Culture
  key : String
  text : String
  deriving DecidableEq, Repr

/-- Whether a string is put under a key for a culture. -/
def Deposit.isFor (culture : Option Culture) (key : String) (d : Deposit) : Bool :=
  Culture.nameOf d.culture == Culture.nameOf culture && d.key == key

/-- Whether a string is put there for a culture that serves another one. -/
def Deposit.serves (culture : Option Culture) (d : Deposit) : Bool :=
  (Culture.fallbacks culture).any fun c => Culture.nameOf d.culture == Culture.nameOf c

/-- The strings of an addition; those of an unknown culture are not put anywhere. -/
def Addition.deposits (a : Addition) : List Deposit :=
  match a.culture.meaning.toOption with
  | some culture => a.entries.map fun e => ⟨culture, e.1, e.2⟩
  | none => []

/-- Texts of one tag put strings in for the same culture. -/
theorem Addition.deposits_respelled {s s' : String} (h : Culture.tagOf s = Culture.tagOf s')
    (entries : List (String × String)) :
    deposits ⟨.text s, entries⟩ = deposits ⟨.text s', entries⟩ := by
  unfold deposits Spelling.meaning
  dsimp only
  rw [Culture.parse_respelled h]

/-- All strings that are put into a catalog, in order. -/
def Filling.deposits (f : Filling) : List Deposit :=
  (f.strings.map Addition.ofStrings ++ f.additions).flatMap Addition.deposits

/-- The text that was put last under a key for a culture. -/
def Newest (ds : List Deposit) (culture : Option Culture) (key text : String) : Prop :=
  ∃ earlier d later, ds = earlier ++ d :: later ∧ d.isFor culture key = true ∧ d.text = text ∧
    ∀ d' ∈ later, d'.isFor culture key = false

/-- What there is under a key for the first of several cultures that has it. -/
inductive FallsBack (ds : List Deposit) (key : String) : List (Option Culture) → Option String → Prop
  | nowhere : FallsBack ds key [] none
  | here {culture : Option Culture} {cultures : List (Option Culture)} {text : String} :
    Newest ds culture key text → FallsBack ds key (culture :: cultures) (some text)
  | further {culture : Option Culture} {cultures : List (Option Culture)} {answer : Option String} :
    (∀ d ∈ ds, d.isFor culture key = false) → FallsBack ds key cultures answer →
      FallsBack ds key (culture :: cultures) answer

/-- The text that was put last under a key for a culture, `none` without one. -/
def newest? (ds : List Deposit) (key : String) (culture : Option Culture) : Option String :=
  (ds.reverse.find? (Deposit.isFor culture key)).map Deposit.text

variable {ds es : List Deposit} {key text : String} {culture : Option Culture}

theorem newest?_eq_some_iff : newest? ds key culture = some text ↔ Newest ds culture key text := by
  constructor
  · intro h
    obtain ⟨d, hfound, rfl⟩ := Option.map_eq_some_iff.mp h
    obtain ⟨hd, later, earlier, hds, hlater⟩ := List.find?_eq_some_iff_append.mp hfound
    refine ⟨earlier.reverse, d, later.reverse, ?_, hd, rfl, fun d' hd' => ?_⟩
    · rw [← List.reverse_reverse ds, hds]
      simp
    · simpa using hlater d' (List.mem_reverse.mp hd')
  · rintro ⟨earlier, d, later, rfl, hd, rfl, hlater⟩
    have hnone : later.reverse.find? (Deposit.isFor culture key) = none :=
      List.find?_eq_none.mpr fun d' hd' => by simp [hlater d' (List.mem_reverse.mp hd')]
    simp [newest?, List.find?_append, hnone, hd]

theorem newest?_eq_none_iff :
    newest? ds key culture = none ↔ ∀ d ∈ ds, d.isFor culture key = false := by
  simp [newest?]

/-- Cultures of one name have the same strings. -/
theorem newest?_congr {culture' : Option Culture}
    (h : Culture.nameOf culture' = Culture.nameOf culture) :
    newest? ds key culture' = newest? ds key culture := by
  have hfor : Deposit.isFor culture' key = Deposit.isFor culture key := by
    funext d
    simp only [Deposit.isFor, h]
  rw [newest?, hfor, newest?]

/-- What was put there later goes first. -/
theorem newest?_append :
    newest? (ds ++ es) key culture = (newest? es key culture).or (newest? ds key culture) := by
  simp only [newest?, List.reverse_append, List.find?_append, Option.map_or]

/-- The law is obeyed by the first text that is found. -/
theorem fallsBack_iff {cultures : List (Option Culture)} {answer : Option String} :
    FallsBack ds key cultures answer ↔ cultures.findSome? (newest? ds key) = answer := by
  constructor
  · intro h
    induction h with
    | nowhere => rfl
    | here hnewest => rw [List.findSome?_cons, newest?_eq_some_iff.mpr hnewest]
    | further hlacks _ ih => rw [List.findSome?_cons, newest?_eq_none_iff.mpr hlacks, ih]
  · rintro rfl
    induction cultures with
    | nil => exact .nowhere
    | cons culture cultures ih =>
      rw [List.findSome?_cons]
      cases hnewest : newest? ds key culture with
      | some text => exact .here (newest?_eq_some_iff.mp hnewest)
      | none => exact .further (newest?_eq_none_iff.mp hnewest) ih

instance (cultures : List (Option Culture)) (answer : Option String) :
    Decidable (FallsBack ds key cultures answer) :=
  decidable_of_iff _ fallsBack_iff.symm

/-- Of the strings that are put in, the law goes by those that serve the culture. -/
theorem findSome?_filter_serves :
    (Culture.fallbacks culture).findSome? (newest? (ds.filter (Deposit.serves culture)) key) =
      (Culture.fallbacks culture).findSome? (newest? ds key) := by
  refine findSome?_congr fun c hc => ?_
  have hserves : ∀ d : Deposit, d.isFor c key = true → d.serves culture = true := by
    intro d hd
    exact List.any_eq_true.mpr ⟨c, hc, (Bool.and_eq_true_iff.mp hd).1⟩
  unfold newest?
  rw [← List.filter_reverse, List.find?_filter]
  congr 2
  funext d
  cases hd : d.isFor c key with
  | true => simp [hserves d hd]
  | false => simp

/-! ## 4. What the tables hold -/

theorem lookup_putString (table : List (String × String)) (key key' text : String) :
    (putString table key text).lookup key' = if key' = key then some text else table.lookup key' := by
  unfold putString
  rw [lookup_put table key key' (fun _ => text) text]
  cases table.lookup key <;> rfl

/-- A table with further strings gives the last of these, or else what it gave before. -/
theorem lookup_putStrings (table entries : List (String × String)) (culture : Option Culture)
    (key : String) : (putStrings table entries).lookup key =
      (newest? (entries.map fun e => ⟨culture, e.1, e.2⟩) key culture).or (table.lookup key) := by
  -- from the end, since the last string of a key decides
  induction entries using List.reverseRecOn with
  | nil => rfl
  | append_singleton entries e ih =>
    have hlast : putStrings table (entries ++ [e]) = putString (putStrings table entries) e.1 e.2 := by
      simp [putStrings, List.foldl_append]
    rw [hlast, lookup_putString, ih, List.map_append, newest?_append, Option.or_assoc]
    by_cases hk : key = e.1
    · simp [newest?, Deposit.isFor, hk]
    · simp [newest?, Deposit.isFor, hk, Ne.symm hk]

variable {c c' : Catalog}

/-- The tables of a catalog to which strings are added for a culture. -/
theorem table_add (c : Catalog) (culture : Option Culture) (entries : List (String × String))
    (name : String) : (c.add culture entries).table name =
      if name = Culture.nameOf culture then putStrings (c.table name) entries else c.table name := by
  unfold table add
  dsimp only
  rw [lookup_put c.tables (Culture.nameOf culture) name (putStrings · entries)]
  by_cases hname : name = Culture.nameOf culture
  · cases hlookup : c.tables.lookup (Culture.nameOf culture) <;> simp [hname, hlookup]
  · rw [if_neg hname, if_neg hname]

/-- A catalog that holds strings that were put in: under each key for each culture the last one. -/
def Holds (c : Catalog) (ds : List Deposit) : Prop :=
  ∀ culture key, (c.table (Culture.nameOf culture)).lookup key = newest? ds key culture

theorem holds_nil (name : String) : Holds { name } [] := fun _ _ => rfl

/-- Adding strings puts them behind what is there. -/
theorem Holds.add (h : c.Holds ds) (culture : Option Culture) (entries : List (String × String)) :
    (c.add culture entries).Holds (ds ++ entries.map fun e => ⟨culture, e.1, e.2⟩) := by
  intro culture' key
  rw [table_add, newest?_append, ← h culture' key]
  split
  · rename_i hname
    rw [lookup_putStrings _ _ culture, ← newest?_congr hname]
  · rename_i hname
    have hnone : newest? (entries.map fun e => ⟨culture, e.1, e.2⟩) key culture' = none := by
      refine newest?_eq_none_iff.mpr fun d hd => ?_
      obtain ⟨e, -, rfl⟩ := List.mem_map.mp hd
      simp [Deposit.isFor, Ne.symm hname]
    rw [hnone, Option.none_or]

theorem Addition.run_eq (a : Addition) (c : Catalog) :
    a.run c = a.culture.meaning.map fun culture => c.add culture a.entries := by
  unfold Addition.run Spelling.meaning
  cases a.culture with
  | text s => rfl
  | culture d => rfl

/-- **One addition** puts its strings behind what a catalog holds, or none if it fails. -/
theorem Holds.after (h : c.Holds ds) (a : Addition) : (c.after a).Holds (ds ++ a.deposits) := by
  unfold Catalog.after Addition.deposits
  rw [Addition.run_eq]
  cases a.culture.meaning with
  | error r =>
    show c.Holds (ds ++ [])
    rw [List.append_nil]
    exact h
  | ok culture => exact h.add culture a.entries

theorem Holds.foldl_after (h : c.Holds ds) (as : List Addition) :
    (as.foldl Catalog.after c).Holds (ds ++ as.flatMap Addition.deposits) := by
  induction as generalizing c ds with
  | nil => simpa using h
  | cons a as ih =>
    rw [List.foldl_cons, List.flatMap_cons, ← List.append_assoc]
    exact ih (h.after a)

/-! ### Catalogs that come about -/

theorem ofStrings_eq (name : String) (strings : List (String × List (String × String))) :
    ofStrings name strings =
      (strings.map Addition.ofStrings).foldlM (fun c a => a.run c) { name } := by
  rw [List.foldlM_map]
  rfl

/-- Additions none of which fails. -/
theorem foldl_after_of_foldlM {as : List Addition}
    (h : as.foldlM (fun c a => a.run c) c = .ok c') : as.foldl Catalog.after c = c' := by
  induction as generalizing c with
  | nil =>
    cases h
    rfl
  | cons a as ih =>
    rw [List.foldlM_cons] at h
    obtain ⟨c₁, hfirst, hrest⟩ := except_bind_eq_ok.mp h
    have hafter : c.after a = c₁ := by
      rw [Catalog.after, hfirst]
      rfl
    rw [List.foldl_cons, hafter]
    exact ih hrest

/-- Additions under known cultures do not fail. -/
theorem exists_foldlM_run {as : List Addition} (h : ∀ a ∈ as, ∃ culture, a.culture.meaning = .ok culture)
    (c : Catalog) : ∃ c', as.foldlM (fun c a => a.run c) c = .ok c' := by
  induction as generalizing c with
  | nil => exact ⟨c, rfl⟩
  | cons a as ih =>
    obtain ⟨culture, hculture⟩ := h a List.mem_cons_self
    obtain ⟨c', hrest⟩ := ih (fun b hb => h b (List.mem_cons_of_mem a hb)) (c.add culture a.entries)
    refine ⟨c', ?_⟩
    rw [List.foldlM_cons, Addition.run_eq, hculture]
    exact hrest

/-- **A catalog holds all strings that were put into it**, and nothing else. -/
theorem Filling.run_holds {f : Filling} (h : f.run = .ok c) : c.Holds f.deposits := by
  obtain ⟨c₀, hmade, hrest⟩ := except_bind_eq_ok.mp h
  rw [ofStrings_eq] at hmade
  cases hrest
  rw [← foldl_after_of_foldlM hmade, ← List.foldl_append]
  exact (holds_nil f.name).foldl_after _

/-- A catalog comes about if the cultures of the strings that it is made of are known. -/
theorem Filling.exists_run {f : Filling}
    (h : ∀ s ∈ f.strings, ∃ culture, Culture.parse (some s.1) = .ok culture) : ∃ c, f.run = .ok c := by
  have hmeant : ∀ a ∈ f.strings.map Addition.ofStrings, ∃ culture, a.culture.meaning = .ok culture := by
    intro a ha
    obtain ⟨s, hs, rfl⟩ := List.mem_map.mp ha
    exact h s hs
  obtain ⟨c, hmade⟩ := exists_foldlM_run hmeant { name := f.name }
  rw [← ofStrings_eq] at hmade
  exact ⟨f.additions.foldl Catalog.after c, except_bind_eq_ok.mpr ⟨c, hmade, rfl⟩⟩

/-! ## 5. Asking a catalog -/

/-- The chain of a culture goes along the names of the cultures whose strings serve it. -/
theorem chain_eq (culture : Option Culture) :
    Culture.chain culture = ((Culture.fallbacks culture).map Culture.nameOf).eraseDups := by
  cases culture with
  | none => rfl
  | some c =>
    have hlanguage : Culture.nameOf (some { language := c.language }) = c.language := by
      simp [Culture.nameOf, Culture.name, Culture.baseName]
    simp only [Culture.fallbacks, List.map_cons, List.map_nil, hlanguage]
    rfl

/-- A catalog gives what the strings that it holds say. -/
theorem Holds.get?_eq (h : c.Holds ds) (key : String) (culture : Option Culture) :
    c.get? key culture = (Culture.fallbacks culture).findSome? (newest? ds key) := by
  rw [get?, chain_eq, findSome?_eraseDups, List.findSome?_map]
  exact findSome?_congr fun culture' _ => h culture' key

namespace Greetings

def canadian : Culture := { language := "fr", territory := some "CA" }

def strings : List (String × List (String × String)) :=
  [("", [("greeting", "Hello"), ("farewell", "Bye")]), ("fr", [("greeting", "Bonjour")])]

def additions : List Addition :=
  [⟨.text "fr-CA", [("greeting", "Bon matin")]⟩, ⟨.culture canadian, [("greeting", "Salut")]⟩,
    ⟨.text " FR_ca", [("greeting", "Allo"), ("thanks", "Merci")]⟩]

def germanToo : List Addition :=
  [⟨.text "de", [("farewell", "Servus"), ("greeting", "Hallo")]⟩,
    ⟨.text "nowhere", [("greeting", "?")]⟩]

def filling : Filling := ⟨"Greetings", strings, additions⟩

def fuller : Filling := ⟨"Greetings", strings, additions ++ germanToo⟩

theorem parse_texts :
    (Culture.parse (some "")).toOption = some none ∧
    (Culture.parse (some "fr")).toOption = some (some { language := "fr" }) ∧
    (Culture.parse (some "fr-CA")).toOption = some (some canadian) ∧
    (Culture.parse (some " FR_ca")).toOption = some (some canadian) ∧
    (Culture.parse (some "de")).toOption = some (some { language := "de" }) ∧
    (Culture.parse (some "nowhere")).toOption = none := by
  simp only [Culture.parse, Culture.find, Culture.ofTag, Culture.cutAt, Text.splitOn_singleton,
    Text.splitOn_dash, Text.splitOn_lowLine]
  decide +kernel

theorem accepted (s : String × List (String × String)) (hs : s ∈ strings) :
    ∃ culture, Culture.parse (some s.1) = .ok culture := by
  rcases List.mem_pair.mp hs with rfl | rfl
  · exact ⟨_, ok_of_toOption parse_texts.1⟩
  · exact ⟨_, ok_of_toOption parse_texts.2.1⟩

def deposits : List Deposit :=
  [⟨none, "greeting", "Hello"⟩, ⟨none, "farewell", "Bye"⟩, ⟨some { language := "fr" }, "greeting", "Bonjour"⟩,
    ⟨some canadian, "greeting", "Bon matin"⟩, ⟨some canadian, "greeting", "Salut"⟩,
    ⟨some canadian, "greeting", "Allo"⟩, ⟨some canadian, "thanks", "Merci"⟩]

def germanDeposits : List Deposit :=
  [⟨some { language := "de" }, "farewell", "Servus"⟩, ⟨some { language := "de" }, "greeting", "Hallo"⟩]

theorem deposits_eq : filling.deposits = deposits ∧ fuller.deposits = deposits ++ germanDeposits := by
  obtain ⟨hinvariant, hfrench, hdash, hlowLine, hgerman, hunknown⟩ := parse_texts
  have hitself : (.ok (some canadian) : Except Fault (Option Culture)).toOption = some (some canadian) := rfl
  simp [Filling.deposits, filling, fuller, strings, additions, germanToo, Addition.ofStrings,
    Addition.deposits, Spelling.meaning, deposits, germanDeposits, hitself, hinvariant, hfrench, hdash,
    hlowLine, hgerman, hunknown]

end Greetings

end Catalog
end MemberRules
