/-
# Filling in messages

A message template is filled in with the texts that its arguments have under a culture.
-/
import MemberRules.Culture.Format
import MemberRules.Template.Render

namespace MemberRules
namespace Message

/-- The texts of named arguments under a culture. -/
def namedTexts (culture : Option Culture) (named : List (String × Value)) :
    Except Fault (List (String × String)) :=
  named.mapM fun e => (Culture.formatValue culture e.2).map fun s => (e.1, s)

/-- The names of the template and the culture themselves, which no argument may have. -/
def takenNames : List String := ["template", "culture"]

/-- Fills in a template for a culture. -/
def fill (template : String) (culture : Option Culture) (args : List Value)
    (named : List (String × Value) := []) : Except Fault String := do
  if named.any fun e => takenNames.contains e.1 then throw .wrongType
  let positional ← args.mapM (Culture.formatValue culture)
  let named ← namedTexts culture named
  Template.render template ⟨positional, named⟩

end Message
end MemberRules
