import Amf.Json.Basic

/-!
# Named values

A finite type whose values have names on the wire, such as `3GPP_ACCESS`. A value is written as its
name; it is read from its name, or from an object with one member of that name that is null.
-/

namespace Amf

/-- A type whose values have names on the wire. -/
class Named (α : Type) where
  /-- Every value, in the order of their definition. -/
  values : List α
  /-- The name of a value. -/
  name : α → String

namespace Named

variable {α : Type} [Named α]

/-- The value of a name. -/
def ofName? (s : String) : Option α :=
  values.find? fun a => name a == s

theorem name_of_ofName? {s : String} {a : α} (h : ofName? s = some a) : name a = s := by
  simpa using List.find?_some h

/-- A value as its name. -/
def toJson (a : α) : Json := .str (name a)

/-- The value of a name, or of an object `{name: null}`. -/
def ofJson? : Json → Option α
  | .str s => ofName? s
  | .obj [(s, .null)] => ofName? s
  | _ => none

theorem ofJson?_toJson (a : α) : ofJson? (toJson a) = (ofName? (name a) : Option α) := rfl

end Named
end Amf
