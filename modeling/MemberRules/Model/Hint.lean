/-
# Declared types of members

A hint is the declared type of a member: a type, a collection of types, a choice between types, or
one of these with attributes attached. `Hint.core` is what remains without attributes and without
the option to be missing; `Hint.element?` is the type of the elements of a collection.
-/
import MemberRules.Attribute.Basic

namespace MemberRules

/-- The declared type of a member. -/
inductive Hint
  | type (t : TypeId)
  /-- One of several types; a value that may be missing has `nothing` among them. -/
  | union (members : List Hint)
  | list (element : Hint)
  | set (element : Hint)
  | sequence (element : Hint)
  | dict (key value : Hint)
  /-- A tuple of any length. -/
  | variadic (element : Hint)
  | tuple (elements : List Hint)
  /-- A type as a value. -/
  | typeOf (t : Hint)
  /-- A member of the type itself, not of its objects. -/
  | classLevel (t : Hint)
  /-- A value that only initialises an object. -/
  | initOnly (t : Hint)
  | annotated (t : Hint) (attributes : List Attribute)
  /-- A type that is named before it is declared. -/
  | reference (name : String)
  deriving Inhabited

namespace Hint

/-- The hint of a value that is nothing. -/
def nothing : Hint := type (.builtin .nothing)

/-- Whether a hint is the one of nothing. -/
def isNothing : Hint → Bool
  | type (.builtin .nothing) => true
  | _ => false

mutual

/-- Whether two hints are the same. Choices are, whatever the order of their members; hints with
attributes never are. -/
def same (a b : Hint) : Bool :=
  match a with
  | type t => match b with
    | type u => t == u
    | _ => false
  | reference n => match b with
    | reference m => n == m
    | _ => false
  | union ms => match b with
    | union ns => ms.length == ns.length && within ms ns
    | _ => false
  | list e => match b with
    | list f => same e f
    | _ => false
  | set e => match b with
    | set f => same e f
    | _ => false
  | sequence e => match b with
    | sequence f => same e f
    | _ => false
  | variadic e => match b with
    | variadic f => same e f
    | _ => false
  | typeOf e => match b with
    | typeOf f => same e f
    | _ => false
  | dict k v => match b with
    | dict l w => same k l && same v w
    | _ => false
  | tuple es => match b with
    | tuple fs => sameAll es fs
    | _ => false
  | classLevel _ | initOnly _ | annotated _ _ => false

/-- Whether two lists of hints are the same, one by one. -/
def sameAll (as bs : List Hint) : Bool :=
  match as with
  | [] => bs.isEmpty
  | a :: as => match bs with
    | [] => false
    | b :: bs => same a b && sameAll as bs

/-- Whether every hint of the first list is one of the second. -/
def within (as bs : List Hint) : Bool :=
  match as with
  | [] => true
  | a :: as => bs.any (fun b => same a b) && within as bs

end

/-- The members of a choice; any other hint is the only member of itself. -/
def choices : Hint → List Hint
  | union ms => ms
  | h => [h]

/-- A choice between hints: choices inside are taken apart, each hint occurs once, and a choice of
one is that one. -/
def unionOf (hs : List Hint) : Hint :=
  let flat := hs.flatMap choices
  let members := flat.foldl
    (fun seen h => if seen.any (same h) then seen else seen ++ [h]) []
  match members with
  | [h] => h
  | ms => union ms

/-- A hint with the option to be missing. -/
def optional (h : Hint) : Hint := unionOf [h, nothing]

/-- Attaches attributes; those already attached stay in front. -/
def annotate (h : Hint) (attributes : List Attribute) : Hint :=
  match h with
  | annotated t inner => annotated t (inner ++ attributes)
  | h => annotated h attributes

/-- A hint without the attributes attached to it and without the option to be missing. -/
def core : Hint → Hint
  | annotated t _ => t.core
  | union ms =>
    if ms.any isNothing then
      match coreOfPresent ms with
      | some h => h
      | none => union ms
    else union ms
  | h => h
where
  /-- The core of the only member that is not nothing. -/
  coreOfPresent : List Hint → Option Hint
    | [] => none
    | m :: ms =>
      if m.isNothing then coreOfPresent ms
      else if ms.all isNothing then some m.core
      else none

/-- The attributes attached to a hint, those inside the option to be missing left out. -/
def attributes : Hint → List Attribute
  | annotated t as => as ++ t.attributes
  | _ => []

/-- Whether a hint is that of a member of the type itself, with or without attributes. -/
def belongsToType : Hint → Bool
  | classLevel _ => true
  | annotated t _ => t.belongsToType
  | _ => false

/-- The type that a hint is, if it is a single type. -/
def type? : Hint → Option TypeId
  | type t => some t
  | _ => none

/-- The elements that a collection declares. -/
def element? (h : Hint) : Option Hint :=
  match h.core with
  | list e | set e | sequence e | variadic e => some e
  | dict _ v => some v
  | tuple (e :: _) => some e
  | _ => none

mutual

/-- Replaces the types that are only named by those found for the names, `none` if one is not
found. -/
def resolve (find : String → Option Hint) : Hint → Option Hint
  | type t => some (type t)
  | reference name => find name
  | union ms => (resolveAll find ms).map unionOf
  | list e => (resolve find e).map list
  | set e => (resolve find e).map set
  | sequence e => (resolve find e).map sequence
  | variadic e => (resolve find e).map variadic
  | typeOf t => (resolve find t).map typeOf
  | classLevel t => (resolve find t).map classLevel
  | initOnly t => some (initOnly t)
  | dict k v =>
    match resolve find k, resolve find v with
    | some k, some v => some (dict k v)
    | _, _ => none
  | tuple es => (resolveAll find es).map tuple
  | annotated t as => (resolve find t).map fun t => annotated t as

/-- Resolves every hint of a list. -/
def resolveAll (find : String → Option Hint) : List Hint → Option (List Hint)
  | [] => some []
  | h :: hs =>
    match resolve find h, resolveAll find hs with
    | some h, some hs => some (h :: hs)
    | _, _ => none

end

end Hint
end MemberRules
