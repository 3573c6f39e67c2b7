import Amf.Octets

/-!
# Security of a UE

Key set identifiers, the security capability that a UE reports, and its mobility management
capability.
-/

namespace Amf

/-- The result of the last authentication. -/
inductive AuthResult where
  | success | failure | synch
  deriving DecidableEq, Repr, Inhabited

/-- The identifier of a NAS key set. -/
structure KeySet where
  /-- The type of the security context, 0 for a native one. -/
  tsc : UInt8 := 0
  /-- The key set identifier. -/
  ksi : UInt8 := 7
  deriving DecidableEq, Repr, Inhabited

/-- The key set identifier that means "no key is available". -/
def KeySet.noKey : UInt8 := 7

/-- The contents of the UE security capability element: eight octets (5G-EA, 5G-IA, EEA, EIA and
spare ones), of which the first `length` are valid. -/
structure SecurityCapability where
  /-- The number of valid octets. -/
  length : UInt8 := 0
  /-- The octets, valid or not. -/
  octets : Vector UInt8 8 := .replicate 8 0
  deriving DecidableEq, Repr, Inhabited

namespace SecurityCapability

/-- The capability of a UE that reports the two NR octets only. -/
def ofNr (ea ia : UInt8) : SecurityCapability :=
  ⟨2, #v[ea, ia, 0, 0, 0, 0, 0, 0]⟩

/-- The valid octets, eight at most. -/
def valid (c : SecurityCapability) : Octets := c.octets.toList.take c.length.toNat

theorem length_valid_le (c : SecurityCapability) : c.valid.length ≤ 8 :=
  Nat.le_trans (List.length_take_le' _ _) (Nat.le_of_eq Vector.length_toList)

end SecurityCapability

/-- What a UE supports of mobility management. -/
structure MmCapability where
  /-- The LTE positioning protocol. -/
  lpp : Bool := false
  /-- Attach requests for handover from another system. -/
  handoverAttach : Bool := false
  /-- The S1 mode. -/
  s1 : Bool := false
  deriving DecidableEq, Repr, Inhabited

end Amf
