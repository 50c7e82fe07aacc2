/-
# Filling in a template

`render` goes through the parts of a template from left to right and stops at the first fault. A
position beyond the arguments is `noIndex`, an unknown name `noKey`, an attribute of a text
`noAttribute`, an item that is no number `wrongType`, a width that nothing can have `outOfMemory`;
everything malformed is `badValue`.

Fields without a name take the arguments in order; they do not mix with positions. A layout may
hold fields of its own, which are filled in first, but those may not hold further ones.
-/
import MemberRules.Fault
import MemberRules.Text.Quoted
import MemberRules.Template.Layout

namespace MemberRules
namespace Template

/-- The arguments of a template: texts by position and by name. -/
structure Arguments where
  positional : List String
  named : List (String × String) := []

/-- How the fields so far chose their arguments. -/
inductive Numbering
  | undecided
  /-- Fields without a name; the position of the next one. -/
  | counted (next : Nat)
  /-- Fields with positions. -/
  | given
  deriving DecidableEq, Repr

/-- The argument of a field and the numbering after it. -/
def argument (args : Arguments) (numbering : Numbering) (name : List Char) :
    Except Fault (String × Numbering) :=
  let byPosition (i : Nat) (numbering : Numbering) : Except Fault (String × Numbering) :=
    match args.positional[i]? with
    | some s => .ok (s, numbering)
    | none => .error .noIndex
  match index? name with
  | some none => .error .badValue
  | some (some i) =>
    match numbering with
    | .counted _ => .error .badValue
    | _ => byPosition i .given
  | none =>
    if name.isEmpty then
      match numbering with
      | .undecided => byPosition 0 (.counted 1)
      | .counted i => byPosition i (.counted (i + 1))
      | .given => .error .badValue
    else
      match args.named.lookup (String.ofList name) with
      | some s => .ok (s, numbering)
      | none => .error .noKey

/-- One access to a text: its items are its characters and it has no attributes. -/
def access (s : String) : Access → Except Fault String
  | .malformed => .error .badValue
  | .attribute _ => .error .noAttribute
  | .item name =>
    match index? name with
    | none => .error .wrongType
    | some none => .error .badValue
    | some (some i) =>
      match s.toList[i]? with
      | some c => .ok (String.singleton c)
      | none => .error .noIndex

/-- The form of a text that a field asks for. -/
def convert (s : String) : Option Char → Except Fault String
  | none | some 's' => .ok s
  | some 'r' => .ok (Text.quote s)
  | some 'a' => .ok (Text.quoteAscii s)
  | some _ => .error .badValue

/-- The result of filling in a part: its characters, and the numbering after it. -/
abbrev Filled := Except Fault (List Char × Numbering)

/-- Fills in one field. `layoutParts` fills in the parts of a layout that holds fields itself; where
there is none, such a layout is refused. -/
def renderField (args : Arguments) (layoutParts : Option (Numbering → List Part → Filled))
    (numbering : Numbering) (f : Field) : Filled := do
  let (s, numbering) ← argument args numbering (argumentName f.name)
  let s ← (accesses f.name).foldlM access s
  let s ← convert s f.conversion
  let (layout, numbering) ←
    if f.layout.contains '\x7b' then
      match layoutParts with
      | none => .error .badValue
      | some fill => fill numbering (parts f.layout)
    else .ok (f.layout, numbering)
  match Layout.ofText? layout with
  | some l =>
    Fault.checkLength l.width
    return (l.apply s.toList, numbering)
  | none => .error .badValue

/-- Fills in parts from left to right, the fields by `field`. -/
def renderParts (field : Numbering → Field → Filled) (numbering : Numbering) :
    List Part → Filled
  | [] => .ok ([], numbering)
  | .malformed :: _ => .error .badValue
  | .literal s :: parts => do
    let (rest, numbering) ← renderParts field numbering parts
    return (s ++ rest, numbering)
  | .field f :: parts => do
    let (s, numbering) ← field numbering f
    let (rest, numbering) ← renderParts field numbering parts
    return (s ++ rest, numbering)

/-- A template filled in with its arguments. -/
def render (template : String) (args : Arguments) : Except Fault String :=
  let inner := renderParts (renderField args none)
  let outer := renderParts (renderField args (some inner))
  (outer .undecided (parts template.toList)).map fun r => String.ofList r.1

end Template
end MemberRules
