import Amf.Text.Numeral

/-!
# Network and subscriber identities

| identity | parts | text |
| --- | --- | --- |
| PLMN | three MCC digits, two or three MNC digits | |
| AMF identifier | region (8 bits), set (10), pointer (6) | six hexadecimal digits |
| GUAMI | PLMN, AMF identifier | |
| 5G-GUTI | PLMN, AMF identifier, TMSI (32 bits) | `5g-guti-`, MCC, MNC, AMF identifier, TMSI |
| TAI | PLMN, tracking area code (24 bits) | |
-/

namespace Amf

open Text

/-- A public land mobile network. -/
structure Plmn where
  /-- First digit of the country code. -/
  mcc1 : Fin 10 := 0
  /-- Second digit of the country code. -/
  mcc2 : Fin 10 := 0
  /-- Third digit of the country code. -/
  mcc3 : Fin 10 := 0
  /-- First digit of the network code. -/
  mnc1 : Fin 10 := 0
  /-- Second digit of the network code. -/
  mnc2 : Fin 10 := 0
  /-- Third digit of the network code, absent from a code of two digits. -/
  mnc3 : Option (Fin 10) := some 0
  deriving DecidableEq, Repr, Inhabited

namespace Plmn

/-- The network whose digits are all 0. -/
def zero : Plmn := {}

/-- The decimal digits of a text, in order; every other character is passed over. -/
def digitsOf (s : String) : List (Fin 10) :=
  s.toList.filterMap fun c => (digit? c).map (Fin.ofNat 10)

/-- The network of a country code and a network code: their first three digits, 0 for one that is
missing, except for a third digit of the network code. -/
def ofCodes (mcc mnc : String) : Plmn :=
  let country := digitsOf mcc
  let network := digitsOf mnc
  let digit (ds : List (Fin 10)) (i : Nat) : Fin 10 := (ds[i]?).getD 0
  ⟨digit country 0, digit country 1, digit country 2, digit network 0, digit network 1, network[2]?⟩

/-- The character of a digit. -/
def digitChar (d : Fin 10) : Char := Nat.digitChar d

/-- The country code, three digits. -/
def mcc (p : Plmn) : List Char := [p.mcc1, p.mcc2, p.mcc3].map digitChar

/-- The network code, two or three digits. -/
def mnc (p : Plmn) : List Char := ([p.mnc1, p.mnc2] ++ p.mnc3.toList).map digitChar

@[simp] theorem length_mcc (p : Plmn) : p.mcc.length = 3 := rfl

end Plmn

/-- An AMF within a PLMN: region, set and pointer. -/
structure AmfId where
  /-- The region, 8 bits. -/
  region : UInt8 := 0
  /-- The set, 10 bits. -/
  set : UInt16 := 0
  /-- The pointer, 6 bits. -/
  pointer : UInt8 := 0
  deriving DecidableEq, Repr, Inhabited

/-- The three parts of an AMF identifier in 24 bits, the bits beyond their widths dropped. -/
def AmfId.packed (a : AmfId) : Nat :=
  a.region.toNat * 0x10000 + a.set.toNat % 0x400 * 0x40 + a.pointer.toNat % 0x40

theorem AmfId.packed_lt (a : AmfId) : a.packed < 0x1000000 := by
  have := a.region.toNat_lt
  simp only [packed]
  omega

/-- A globally unique AMF identifier. -/
structure Guami where
  /-- The PLMN. -/
  plmn : Plmn := .zero
  /-- The AMF within it. -/
  amf : AmfId := {}
  deriving DecidableEq, Repr, Inhabited

/-- A tracking area. -/
structure Tai where
  /-- The PLMN. -/
  plmn : Plmn := .zero
  /-- The tracking area code, 24 bits. -/
  tac : UInt32 := 0
  deriving DecidableEq, Repr, Inhabited

/-- A 5G globally unique temporary identifier. -/
structure Guti where
  /-- The PLMN. -/
  plmn : Plmn := .zero
  /-- The AMF that gave the identifier. -/
  amf : AmfId := {}
  /-- The temporary identifier within that AMF. -/
  tmsi : UInt32 := 0
  deriving DecidableEq, Repr, Inhabited

namespace Guti

/-- What the text of every 5G-GUTI begins with. -/
def scheme : String := "5g-guti-"

/-- The characters after `scheme`: country code, network code, AMF identifier, TMSI. -/
def code (g : Guti) : List Char :=
  g.plmn.mcc ++ g.plmn.mnc ++ zeroFill 6 (hexadecimal g.amf.packed) ++
    zeroFill 8 (hexadecimal g.tmsi.toNat)

/-- The identifier by which a peer names the context of this UE. -/
def ueContextId (g : Guti) : String := scheme ++ String.ofList g.code

end Guti
end Amf
