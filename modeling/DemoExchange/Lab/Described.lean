import DemoExchange.Lab.Json

/-!
# The binding of described structs

`lab/json.hpp` and `lab/defaulted_field.hpp`. A struct is described by its
members: their names, the pointers to them, and how the overloads of
`read_field` and `write_field` treat them.
-/

namespace DemoExchange.Lab
set_option autoImplicit false
open Text Json

/-- The serializer of a type. `fromJson` writes over a value that is there;
`initial` is the one that `get` starts from. -/
structure Codec (α : Type) where
  toJson : α → Value
  fromJson : Nlohmann → Value → α → Throws α
  initial : α

/-- The families of overloads, by the type of the field. A `defaulted_field` is its `value`. -/
inductive FieldKind : Type → Type 1 where
  | plain {α : Type} (codec : Codec α) : FieldKind α
  | defaulted {α : Type} (codec : Codec α) (defaultValue : α) : FieldKind α
  | optional {α : Type} (codec : Codec α) : FieldKind (Option α)

/-- A pointer to a member of a struct. -/
structure Pointer (σ α : Type) where
  get : σ → α
  set : α → σ → σ

/-- What `describe_members` lists of a struct. -/
structure Member (σ : Type) where
  name : Bytes
  type : Type
  kind : FieldKind type
  pointer : Pointer σ type

/-- Writing through neither pointer changes what the other reads. -/
def Member.Apart {σ : Type} (member member' : Member σ) : Prop :=
  (∀ field object, member.pointer.get (member'.pointer.set field object) = member.pointer.get object) ∧
    ∀ field object, member'.pointer.get (member.pointer.set field object) = member'.pointer.get object

/-- A described struct: members with names of their own, which make up its values. -/
structure Described (σ : Type) where
  members : List (Member σ)
  names : (members.map Member.name).Nodup
  written : ∀ member ∈ members, ∀ field object, member.pointer.get (member.pointer.set field object) = field
  apart : members.Pairwise Member.Apart
  whole : ∀ object object', (∀ member ∈ members, member.pointer.get object = member.pointer.get object') → object = object'

section Fields

variable {α : Type} (lib : Nlohmann) (document : Value) (key : Bytes)

/-- `from_json` of a `std::optional`. -/
def optionalFromJson (codec : Codec α) : Value → Throws (Option α)
  | .null => .ok none
  | value => do
    let value ← codec.fromJson lib value codec.initial
    return some value

def readField : FieldKind α → α → Throws α
  | .plain codec, field => do
    let value ← lib.member document key
    codec.fromJson lib value field
  | .defaulted codec _, field =>
    match document.find? key with
    | some value => codec.fromJson lib value field
    | none => .ok field
  | .optional codec, field =>
    match document.find? key with
    | some value => optionalFromJson lib codec value
    | none => .ok field

def writeField : FieldKind α → α → Value
  | .plain codec, field => document.assign key (codec.toJson field)
  | .defaulted codec _, field => document.assign key (codec.toJson field)
  | .optional codec, some value => document.assign key (codec.toJson value)
  | .optional _, none => document

end Fields

section Objects

variable {σ : Type} (lib : Nlohmann) (members : List (Member σ))

def hasDescribedField (key : Bytes) : Bool := members.any fun member => key = member.name

/-- `reject_unknown_fields` on the items of an object. -/
def rejectUnknownItems : List (Bytes × Value) → Throws Unit
  | [] => .ok ()
  | (key, _) :: items =>
    if hasDescribedField members key then rejectUnknownItems items
    else .error (ascii "unknown json field '" ++ key ++ ascii "'")

def rejectUnknownFields : Value → Throws Unit
  | .object items => rejectUnknownItems members items
  | _ => .error (ascii "expected json object")

/-- The loop over the members. -/
def readFields (document : Value) : List (Member σ) → σ → Throws σ
  | [], object => .ok object
  | member :: members, object => do
    let field ← readField lib document member.name member.kind (member.pointer.get object)
    readFields document members (member.pointer.set field object)

def readDescribedObject (described : Described σ) (document : Value) (object : σ) : Throws σ := do
  rejectUnknownFields described.members document
  readFields lib document described.members object

/-- The loop over the members. -/
def writeFields (object : σ) (document : Value) : Value :=
  members.foldl (fun document member => writeField document member.name member.kind (member.pointer.get object)) document

def writeDescribedObject (described : Described σ) (object : σ) : Value := writeFields described.members object (.object [])

end Objects

end DemoExchange.Lab
