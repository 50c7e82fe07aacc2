/-
# The attributes of members

A type is reflected once: its announced members in order, then the computed members whose result is
annotated with attributes, each with its attributes, its display name and its type. A type that
takes over the attributes of other types gets theirs, member by member, in front of its own, in the
order in which the sources were named; the sources are reflected the same way.

What has been reflected is remembered. A type that reaches itself through its sources cannot be
reflected: this is `tooDeep`. A fault leaves the types remembered that were finished before it.
-/
import MemberRules.Model.Member

namespace MemberRules

/-- A member and what was declared for it. -/
structure MemberInfo where
  member : MemberRef
  attributes : List Attribute
  displayName : String
  /-- The declared type without attributes and without the option to be missing. -/
  hint : Hint
  deriving Inhabited

/-- The types that have been reflected, with their members. -/
abbrev Reflected := List (TypeId × List MemberInfo)

/-- A computation that may reflect types. -/
abbrev Reflecting (α : Type) := ExceptT Fault (StateM Reflected) α

namespace TypeDecl

/-- The values and functions that the type itself holds, each name once. -/
def definitions (t : TypeDecl) : List (String × MemberBody) :=
  (t.members.map MemberDecl.name).eraseDups.filterMap fun n =>
    (t.defined? n).map fun body => (n, body)

/-- The computed members of the type itself, with the declared types of their results. -/
def properties (t : TypeDecl) : List (String × Option Hint) :=
  t.definitions.filterMap fun d =>
    match d.2 with
    | .property _ returns _ => if d.1.startsWith "_" then none else some (d.1, returns)
    | _ => none

end TypeDecl

/-- Whether attributes are attached to a hint. -/
def Hint.isAnnotated : Hint → Bool
  | annotated .. => true
  | _ => false

namespace Schema

/-- The announced members of a type. -/
def announcedMembers (s : Schema) (t : TypeId) : Except Fault (List MemberInfo) := do
  let fields := (← s.hints t).filter fun e => isModelField e.1 e.2
  fields.mapM fun (name, h) => do
    return ⟨← s.member t name, h.attributes, s.displayName t name, h.core⟩

/-- The computed members along the line of a type with the types that define them, the nearest one
of each name, without those that are announced. -/
def computedMembers (s : Schema) (t : TypeId) (announced : List String) :
    List (TypeId × String × Option Hint) :=
  let all := (s.lineOf t).flatMap fun d => d.properties.map fun p => (d.id, p.1, p.2)
  (all.foldl (fun (kept : List (TypeId × String × Option Hint)) p =>
    if kept.any fun q => q.2.1 == p.2.1 then kept else kept ++ [p]) []).filter fun p =>
      !announced.contains p.2.1

/-- The members that a computed member with an annotated result makes. -/
def annotatedMember (s : Schema) (p : TypeId × String × Option Hint) :
    Except Fault (List MemberInfo) :=
  match p.2.2 with
  | some h =>
    if h.isAnnotated then
      match s.resolve? h with
      | none => .error .noName
      | some h =>
        if h.attributes.isEmpty then .ok []
        else .ok [⟨⟨p.1, p.2.1, .property⟩, h.attributes, p.2.1, h.core⟩]
    else .ok []
  | none => .ok []

/-- The members of a type with their own attributes. -/
def ownMembers (s : Schema) (t : TypeId) : Except Fault (List MemberInfo) := do
  let fields ← s.announcedMembers t
  let computed ← (s.computedMembers t (fields.map fun m => m.member.name)).mapM s.annotatedMember
  return fields ++ computed.flatten

/-- The types whose attributes a type takes over. -/
def sourcesOf (s : Schema) (t : TypeId) : List TypeId := (s.lineOf t).flatMap TypeDecl.inherits

/-- The attributes of the member of a name. -/
def attributesOf (ms : List MemberInfo) (name : String) : List Attribute :=
  match ms.find? fun m => m.member.name == name with
  | some m => m.attributes
  | none => []

/-- A member with the attributes of the sources in front of its own. -/
def takeOver (sources : List (List MemberInfo)) (m : MemberInfo) : MemberInfo :=
  { m with attributes :=
      sources.flatMap (fun ms => attributesOf ms m.member.name) ++ m.attributes }

/-- The result of a computation that reflects nothing. -/
def liftReflecting (r : Except Fault α) : Reflecting α := fun known => (r, known)

/-- The members of a type; `depth` bounds how far its sources reach. -/
def reflectWithin (s : Schema) : Nat → TypeId → Reflecting (List MemberInfo)
  | 0, _ => throw .tooDeep
  | depth + 1, t => do
    match (← get).lookup t with
    | some ms => return ms
    | none =>
      let own ← liftReflecting (s.ownMembers t)
      let sources ← if own.isEmpty then pure [] else (s.sourcesOf t).mapM (s.reflectWithin depth)
      let ms := own.map (takeOver sources)
      modify fun known => known ++ [(t, ms)]
      return ms

/-- The members of a type. -/
def reflect (s : Schema) (t : TypeId) : Reflecting (List MemberInfo) :=
  s.reflectWithin (s.types.length + 2) t

end Schema
end MemberRules
