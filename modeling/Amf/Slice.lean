import Amf.Text.Numeral

/-!
# Network slices

A slice is a slice/service type and perhaps a differentiator of 24 bits; the differentiator `ffffff`
means that there is none.
-/

namespace Amf

open Text

/-- A network slice (S-NSSAI). -/
structure Slice where
  /-- The slice/service type. -/
  sst : UInt8 := 0
  /-- The slice differentiator. -/
  sd : Option UInt32 := none
  deriving DecidableEq, Repr, Inhabited

/-- The differentiator that means "none". -/
def Slice.noDifferentiator : UInt32 := 0xffffff

/-- The differentiator in six hexadecimal digits or more, when there is one. -/
def Slice.sdText (s : Slice) : Option String :=
  match s.sd with
  | none => none
  | some sd =>
    if sd = noDifferentiator then none
    else some (String.ofList (zeroFill 6 (hexadecimal sd.toNat)))

/-- A slice that a UE may use, with the home network's slice for it when it roams. -/
structure AllowedSlice where
  /-- The slice of the serving network. -/
  serving : Slice := {}
  /-- The slice of the home network. -/
  home : Option Slice := none
  deriving DecidableEq, Repr, Inhabited

end Amf
