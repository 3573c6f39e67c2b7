/-!
# JSON values

The values that service bodies are made of. A number is an integer of 64 bits, or a decimal, which was
written with a fraction or an exponent or is beyond 64 bits. The two are kept apart, since a field of
integers takes no decimal, whatever its value. The members of an object keep their order.
-/

namespace Amf

/-- A JSON value. -/
inductive Json where
  /-- The null value. -/
  | null
  /-- A truth value. -/
  | bool (b : Bool)
  /-- An integer of 64 bits, signed or unsigned. -/
  | int (n : Int)
  /-- The decimal `digits · 10 ^ scale`, perhaps with a minus in front. -/
  | decimal (negative : Bool) (digits : Nat) (scale : Int)
  /-- A text. -/
  | str (s : String)
  /-- A list of values. -/
  | arr (items : List Json)
  /-- Members, a name and a value each. -/
  | obj (members : List (String × Json))
  deriving Inhabited

namespace Json

/-- The member of a name, the first of several. -/
def get? (name : String) : Json → Option Json
  | obj members => members.lookup name
  | _ => none

/-- A text. -/
def asString? : Json → Option String
  | str s => some s
  | _ => none

/-- A truth value. -/
def asBool? : Json → Option Bool
  | bool b => some b
  | _ => none

/-- An integer from zero to below `bound`. -/
def asBelow? (bound : Nat) : Json → Option Nat
  | int n => if 0 ≤ n ∧ n < bound then some n.toNat else none
  | _ => none

/-- An integer that one octet holds. -/
def asUInt8? (j : Json) : Option UInt8 := (j.asBelow? UInt8.size).map UInt8.ofNat

/-- An integer that two octets hold. -/
def asUInt16? (j : Json) : Option UInt16 := (j.asBelow? UInt16.size).map UInt16.ofNat

/-- An integer that four octets hold. -/
def asUInt32? (j : Json) : Option UInt32 := (j.asBelow? UInt32.size).map UInt32.ofNat

/-- A number as an integer. -/
def ofNat (n : Nat) : Json := int n

/-- A list, each item read alike. -/
def asList? (read : Json → Option α) : Json → Option (List α)
  | arr items => items.mapM read
  | _ => none

/-- A list, each item written alike. -/
def list (write : α → Json) (xs : List α) : Json := arr (xs.map write)

theorem asBelow?_ofNat {bound n : Nat} (h : n < bound) : (ofNat n).asBelow? bound = some n := by
  simp [ofNat, asBelow?, h]

@[simp] theorem asString?_str (s : String) : (str s).asString? = some s := rfl

@[simp] theorem asBool?_bool (b : Bool) : (bool b).asBool? = some b := rfl

@[simp] theorem asUInt8?_ofNat (n : UInt8) : (ofNat n.toNat).asUInt8? = some n := by
  simp [asUInt8?, asBelow?_ofNat n.toNat_lt]

@[simp] theorem asUInt16?_ofNat (n : UInt16) : (ofNat n.toNat).asUInt16? = some n := by
  simp [asUInt16?, asBelow?_ofNat n.toNat_lt]

@[simp] theorem asUInt32?_ofNat (n : UInt32) : (ofNat n.toNat).asUInt32? = some n := by
  simp [asUInt32?, asBelow?_ofNat n.toNat_lt]

/-- A list reads back when each of its items does. -/
theorem asList?_list {read : Json → Option α} {write : α → Json}
    (h : ∀ a, read (write a) = some a) (xs : List α) : (list write xs).asList? read = some xs := by
  simp only [list, asList?]
  induction xs with
  | nil => rfl
  | cons x xs ih => simp [h, ih]

end Json
end Amf
