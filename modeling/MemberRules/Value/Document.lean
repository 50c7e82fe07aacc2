/-
# Documents

A document says how a value is made, without being one: objects come to be only when the document
is read, a type or a variable is looked up then, and a document that is read twice makes two
objects. `Document.ofEntries` tells by the tags of an entry which kind of document it is; entries
without a tag are a record of named values.
-/
import MemberRules.Value.Written

namespace MemberRules

/-- What a value is made from. -/
inductive Document
  /-- A value without parts that are made anew. -/
  | plain (v : Value)
  | list (xs : List Document)
  | tuple (xs : List Document)
  | set (xs : List Document)
  | dict (entries : List (Document × Document))
  /-- A dictionary with texts as keys. -/
  | record (entries : List (String × Document))
  | enumMember (type name : String) (value : Document)
  /-- A type by its name. -/
  | type (name : String)
  /-- A new object of a type with fields that are set in order. -/
  | object (type : String) (fields : List (String × Document))
  /-- The value that was kept under a name. -/
  | kept (name : String)
  /-- A written form that cannot be read. -/
  | malformed (f : Fault)
  deriving Inhabited

namespace Document

/-- A number with some decimal places: an integer if it has none. -/
def ofNumber (mantissa : Int) (places : Nat) : Document :=
  if places == 0 then plain (.int mantissa)
  else plain (.float (.ofDecimal (decide (mantissa < 0)) mantissa.natAbs (-(places : Int))))

/-- A text that is repeated. -/
def repeated (s : String) (n : Int) : Document :=
  plain (.text (String.join (List.replicate n.toNat s)))

/-- The entries of a dictionary, each a pair. -/
def pairs? : List Document → Option (List (Document × Document))
  | [] => some []
  | list [k, v] :: ds => (pairs? ds).map ((k, v) :: ·)
  | _ => none

/-- The written form of a value of a kind. -/
def written (tag text : String) : Document :=
  match if tag.startsWith "$" then Value.ofWritten? (tag.drop 1).toString text else none with
  | some (.ok v) => plain v
  | some (.error f) => malformed f
  | none => record [(tag, plain (.text text))]

/-- Named documents inside an entry. -/
def named : Document → List (String × Document)
  | record es => es
  | _ => []

/-- The document that entries stand for, by their tags. -/
def ofEntries (es : List (String × Document)) : Document :=
  match es with
  | [("$tuple", list xs)] => tuple xs
  | [("$set", list xs)] => set xs
  | [("$dict", list xs)] =>
    match pairs? xs with
    | some entries => dict entries
    | none => malformed .badValue
  | [("$rep", list [plain (.text s), plain (.int n)])] => repeated s n
  | [("$enum", list [plain (.text t), plain (.text n), d])] => enumMember t n d
  | [("$type", plain (.text n))] => type n
  | [("$var", plain (.text n))] => kept n
  | [("$obj", plain (.text t))] => object t []
  | [("$obj", plain (.text t)), ("fields", d)] | [("fields", d), ("$obj", plain (.text t))] =>
    object t d.named
  | [(tag, plain (.text s))] => written tag s
  | es => record es

end Document
end MemberRules
