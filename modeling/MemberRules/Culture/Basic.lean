/-
# Cultures

A culture names a language and possibly a script, a territory, a variant and a modifier. No culture
at all is the invariant one, whose name is empty. The chain of a culture goes from its full name
over its language to the invariant culture, and every look-up by culture follows it.

A tag that names no known culture is resolved through the present names of its parts and the script
that its language usually has, so `zh_TW` is `zh_Hant_TW`, `en_Latn` is `en`, and `en_UK` is `en_GB`.
-/
import MemberRules.Fault
import MemberRules.Text.Blank
import MemberRules.Text.Case
import MemberRules.Text.Digit
import MemberRules.Text.Word

namespace MemberRules

/-- A culture other than the invariant one. -/
structure Culture where
  language : String
  script : Option String := none
  territory : Option String := none
  variant : Option String := none
  modifier : Option String := none
  deriving DecidableEq, Repr

namespace Culture

/-! ## 1. Names and chains -/

/-- The name without the modifier. -/
def baseName (c : Culture) : String :=
  "_".intercalate (c.language :: c.script.toList ++ c.territory.toList ++ c.variant.toList)

/-- The full name of a culture. -/
def name (c : Culture) : String :=
  match c.modifier with
  | some m => c.baseName ++ "@" ++ m
  | none => c.baseName

/-- The name of a culture; the invariant one has the empty name. -/
def nameOf : Option Culture → String
  | some c => c.name
  | none => ""

/-- The names under which a look-up searches, the most specific one first. -/
def chain : Option Culture → List String
  | none => [""]
  | some c => [c.name, c.language, ""].eraseDups

/-! ## 2. Tags -/

/-- Why a tag names no culture. -/
inductive TagError
  | malformed | unknown
  deriving DecidableEq, Repr

/-- Whether a text consists of letters, and at least one. -/
def isAlphabetic (s : String) : Bool := !s.isEmpty && s.toList.all Text.isLetter

/-- The capital first letter and small other letters that scripts are written with. -/
def titleCase (s : String) : String :=
  match s.toList with
  | [] => ""
  | c :: r => String.ofList (Text.upperChar c ++ r.map Text.lowerChar)

/-- A script of four letters at the head of the subtags. -/
def takeScript : List String → Option String × List String
  | p :: r => if p.length == 4 && isAlphabetic p then (some (titleCase p), r) else (none, p :: r)
  | [] => (none, [])

/-- A territory of two letters or three digits at the head of the subtags. -/
def takeTerritory : List String → Option String × List String
  | p :: r =>
    if p.length == 2 && isAlphabetic p then (some (Text.upper p), r)
    else if p.length == 3 && p.toList.all Text.isDigit then (some p, r)
    else (none, p :: r)
  | [] => (none, [])

/-- Whether a subtag has the form of a variant. -/
def isVariant (p : String) : Bool :=
  match p.toList with
  | c :: _ => (p.length == 4 && Text.isDigit c) || (5 ≤ p.length && Text.isLetter c)
  | [] => false

/-- A variant as the last of the subtags, if the first one has the form of a variant. -/
def takeVariant (ps : List String) : Option String × List String :=
  match ps with
  | p :: _ => if isVariant p then (ps.getLast?.map Text.upper, ps.dropLast) else (none, ps)
  | [] => (none, [])

/-- Splits a text at the first occurrence of a character; the second part is `none` without one. -/
def cutAt (c : Char) (s : String) : String × Option String :=
  match s.splitOn (String.singleton c) with
  | [] => (s, none)
  | [whole] => (whole, none)
  | head :: rest => (head, some ((String.singleton c).intercalate rest))

/-- The parts of a tag whose subtags are separated by `separator`. -/
def ofTag (separator : String) (tag : String) : Except TagError Culture := do
  let (tag, modifier) := cutAt '@' tag
  let subtags := (cutAt '.' tag).1.splitOn separator
  let language := Text.lower (subtags.headD "")
  if !isAlphabetic language then throw .malformed
  let (script, rest) := takeScript subtags.tail
  let (territory, rest) := takeTerritory rest
  let (variant, rest) := takeVariant rest
  if !rest.isEmpty then throw .malformed
  return ⟨language, script, territory, variant, modifier.filter fun m => !m.isEmpty⟩

/-! ## 3. Known cultures -/

/-- The names of the known cultures. -/
def known : List String :=
  ["en", "en_US", "en_GB", "en_001", "es", "es_ES", "es_419", "fr", "fr_FR", "fr_CA", "de", "de_DE",
    "de_CH", "sv", "sv_SE", "ja", "ja_JP", "pt", "pt_BR", "zh", "zh_Hans", "zh_Hans_CN", "zh_Hant",
    "zh_Hant_TW"]

/-- Whether a culture is known, whatever its modifier. -/
def isKnown (c : Culture) : Bool := known.contains c.baseName

/-- Older and longer names of languages. -/
def languageAliases : List (String × String) :=
  [("eng", "en"), ("spa", "es"), ("fra", "fr"), ("fre", "fr"), ("deu", "de"), ("ger", "de"),
    ("swe", "sv"), ("jpn", "ja"), ("por", "pt"), ("zho", "zh"), ("chi", "zh"), ("cmn", "zh")]

/-- Older names of territories, and their numbers. -/
def territoryAliases : List (String × String) :=
  [("UK", "GB"), ("FX", "FR"), ("DD", "DE"), ("840", "US"), ("826", "GB"), ("724", "ES"),
    ("250", "FR"), ("249", "FR"), ("124", "CA"), ("276", "DE"), ("278", "DE"), ("280", "DE"),
    ("756", "CH"), ("752", "SE"), ("392", "JP"), ("076", "BR"), ("156", "CN"), ("158", "TW")]

/-- A culture with its language and territory under their present names; the names of an unknown
territory and of an unknown script are left out. -/
def renamed (c : Culture) : Culture :=
  { c with
    language := (languageAliases.lookup c.language).getD c.language
    territory := (c.territory.map fun t => (territoryAliases.lookup t).getD t).filter (· != "ZZ")
    script := c.script.filter (· != "Zzzz") }

/-- The script and the territory that a culture most likely means, by its name. -/
def likely? (name : String) : Option Culture :=
  match name with
  | "en" => some ⟨"en", some "Latn", some "US", none, none⟩
  | "es" => some ⟨"es", some "Latn", some "ES", none, none⟩
  | "fr" => some ⟨"fr", some "Latn", some "FR", none, none⟩
  | "de" => some ⟨"de", some "Latn", some "DE", none, none⟩
  | "sv" => some ⟨"sv", some "Latn", some "SE", none, none⟩
  | "pt" => some ⟨"pt", some "Latn", some "BR", none, none⟩
  | "ja" => some ⟨"ja", some "Jpan", some "JP", none, none⟩
  | "zh" => some ⟨"zh", some "Hans", some "CN", none, none⟩
  | "zh_Hant" | "zh_TW" => some ⟨"zh", some "Hant", some "TW", none, none⟩
  | _ => none

/-- A culture, or its language and territory alone, whichever is known. -/
def reduced? (c : Culture) : Option Culture :=
  let short : Culture := ⟨c.language, none, c.territory, none, none⟩
  if c.isKnown then some c else if short.isKnown then some short else none

/-- The culture that a tag means: itself if it is known, and otherwise the most likely one for its
name, or for its language and its own territory. -/
def resolve (c : Culture) : Except TagError Culture :=
  if c.isKnown then .ok c
  else
    let c := c.renamed
    let whole := (likely? c.name).bind reduced?
    let ofLanguage := (likely? c.language).bind fun l => reduced? { l with territory := c.territory }
    match whole.or ofLanguage with
    | some found => .ok found
    | none => .error .unknown

/-- Reads a tag with the given separator and resolves it. -/
def find (separator : String) (tag : String) : Except TagError Culture :=
  (ofTag separator tag).bind resolve

/-- Reads the name of a culture, with dashes or low lines; nothing and blanks mean the invariant
one. -/
def parse (text : Option String) : Except Fault (Option Culture) :=
  match text with
  | none => .ok none
  | some s =>
    let tag := "_".intercalate ((Text.strip s).splitOn "-")
    if tag.isEmpty then .ok none
    else
      match find "_" tag with
      | .ok c => .ok (some c)
      | .error _ =>
        .error (.configuration
          (AppError.invalidRule ("Unknown culture '" ++ s ++ "'") [("culture", .text s)]))

end Culture
end MemberRules
