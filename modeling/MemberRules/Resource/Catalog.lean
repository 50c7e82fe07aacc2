/-
# Catalogs of message strings

A catalog holds a table of strings for each of several cultures. A look-up goes along the chain of
a culture and takes the first table that has the key, so a string for a language serves its
territories, and one of the invariant culture serves all. Adding strings replaces those of the same
key and culture.
-/
import MemberRules.Culture.Basic
import MemberRules.Text.Quoted

namespace MemberRules

/-- Strings by culture and key. -/
structure Catalog where
  name : String
  /-- The tables by the names of their cultures, in the order in which these were first added. -/
  tables : List (String × List (String × String)) := []
  deriving Inhabited

namespace Catalog

/-- A table with a string put under a key. -/
def putString (table : List (String × String)) (key text : String) : List (String × String) :=
  if table.any fun e => e.1 == key then
    table.map fun e => if e.1 == key then (key, text) else e
  else table ++ [(key, text)]

/-- A table with further strings. -/
def putStrings (table entries : List (String × String)) : List (String × String) :=
  entries.foldl (fun t e => putString t e.1 e.2) table

/-- The table of a culture name; empty if nothing was added under it. -/
def table (c : Catalog) (culture : String) : List (String × String) :=
  (c.tables.lookup culture).getD []

/-- The catalog with strings added for a culture. -/
def add (c : Catalog) (culture : Option Culture) (entries : List (String × String)) : Catalog :=
  let name := Culture.nameOf culture
  { c with tables :=
      if c.tables.any fun t => t.1 == name then
        c.tables.map fun t => if t.1 == name then (name, putStrings t.2 entries) else t
      else c.tables ++ [(name, putStrings [] entries)] }

/-- The catalog with strings added for the culture of a name. -/
def addNamed (c : Catalog) (culture : Option String) (entries : List (String × String)) :
    Except Fault Catalog := do
  return c.add (← Culture.parse culture) entries

/-- A catalog made of strings by culture name. -/
def ofStrings (name : String) (strings : List (String × List (String × String))) :
    Except Fault Catalog :=
  strings.foldlM (fun c s => c.addNamed (some s.1) s.2) { name }

/-- The string of a key under a culture: the first along its chain. -/
def get? (c : Catalog) (key : String) (culture : Option Culture) : Option String :=
  (Culture.chain culture).findSome? fun name => (c.table name).lookup key

/-- The names of the cultures of a catalog, in ascending order. -/
def cultures (c : Catalog) : List String :=
  (c.tables.map Prod.fst).mergeSort fun a b => a ≤ b

/-- A catalog in one line. -/
def text (c : Catalog) : String :=
  "ResourceCatalog(" ++ Text.quote c.name ++ ", cultures=[" ++
    ", ".intercalate (c.cultures.map Text.quote) ++ "])"

end Catalog
end MemberRules
