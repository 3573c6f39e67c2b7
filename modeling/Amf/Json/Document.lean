import Amf.Json.Named

/-!
# Typed documents

A document is a type whose values are written in JSON and read from it. A record is written as an
object. It is read from an object, by names, or from a list, by the order of its fields:

| field | absent from an object | null | absent from the end of a list |
| --- | --- | --- | --- |
| `required` | refused | as its type says | refused |
| `optional` | `none` | `none` | refused |
| `optionalAtEnd` | `none` | `none` | `none` |
| `withDefault` | its default | as its type says | its default |

Further members of an object are ignored; further items of a list are refused.
-/

namespace Amf

/-- A type whose values are written in JSON and read from it. -/
class Document (α : Type) where
  /-- A value in JSON. -/
  toJson : α → Json
  /-- The value that a JSON value stands for. -/
  ofJson? : Json → Option α

namespace Document

instance : Document Json := ⟨id, some⟩

instance : Document String := ⟨.str, Json.asString?⟩

instance : Document Bool := ⟨.bool, Json.asBool?⟩

instance : Document UInt8 := ⟨fun n => .ofNat n.toNat, Json.asUInt8?⟩

instance : Document UInt16 := ⟨fun n => .ofNat n.toNat, Json.asUInt16?⟩

instance : Document UInt32 := ⟨fun n => .ofNat n.toNat, Json.asUInt32?⟩

variable {α : Type}

instance [Named α] : Document α := ⟨Named.toJson, Named.ofJson?⟩

instance [Document α] : Document (List α) := ⟨Json.list toJson, Json.asList? ofJson?⟩

/-- What a record is read from. -/
inductive Fields where
  /-- The members of an object. -/
  | byName (members : List (String × Json))
  /-- The items of a list that are not yet read. -/
  | inOrder (items : List Json)

/-- A reader of some fields of a record: their values and what is left, or a refusal. -/
abbrev FieldReader (α : Type) := StateT Fields Option α

/-- The value of a field and what is left. -/
def Fields.take? (name : String) : Fields → Option (Json × Fields)
  | byName members => (members.lookup name).map fun j => (j, byName members)
  | inOrder [] => none
  | inOrder (j :: rest) => some (j, inOrder rest)

/-- A value, or `none` for null. -/
def nullable? [Document α] : Json → Option (Option α)
  | .null => some none
  | j => (ofJson? j).map some

/-- A field that has to be there. -/
def required [Document α] (name : String) : FieldReader α := fun fields =>
  (fields.take? name).bind fun (j, rest) => (ofJson? j).map fun a => (a, rest)

/-- A field that may be absent from an object, or null. -/
def optional [Document α] (name : String) : FieldReader (Option α) := fun fields =>
  match fields.take? name, fields with
  | some (j, rest), _ => (nullable? j).map fun a => (a, rest)
  | none, .byName members => some (none, .byName members)
  | none, .inOrder _ => none

/-- A field that may be absent, also from the end of a list, or null. -/
def optionalAtEnd [Document α] (name : String) : FieldReader (Option α) := fun fields =>
  match fields.take? name with
  | some (j, rest) => (nullable? j).map fun a => (a, rest)
  | none => some (none, fields)

/-- A field with a value to take when it is absent. -/
def withDefault [Document α] (name : String) (dflt : α) : FieldReader α := fun fields =>
  match fields.take? name with
  | some (j, rest) => (ofJson? j).map fun a => (a, rest)
  | none => some (dflt, fields)

/-- A record, read field by field. -/
def ofRecord? (fields : FieldReader α) : Json → Option α
  | .obj members => (fields (.byName members)).map (·.1)
  | .arr items =>
    match fields (.inOrder items) with
    | some (a, .inOrder []) => some a
    | _ => none
  | _ => none

/-- A member of a record, unless it is left out. -/
abbrev Member := Option (String × Json)

/-- A field that is always written. -/
def field [Document α] (name : String) (a : α) : Member := some (name, toJson a)

/-- A field that is null when its value is absent. -/
def fieldOrNull [Document α] (name : String) (a : Option α) : Member :=
  some (name, (a.map toJson).getD .null)

/-- A field that is left out when its value is absent. -/
def fieldIf [Document α] (name : String) (a : Option α) : Member :=
  a.map fun x => (name, toJson x)

/-- A list that is left out when it is empty. -/
def fieldIfAny [Document α] (name : String) (xs : List α) : Member :=
  if xs.isEmpty then none else field name xs

/-- A record, with the fields that are not left out. -/
def record (members : List Member) : Json := .obj (members.filterMap id)

end Document
end Amf
