import Amf.Ngap
import Amf.Rat

/-!
# Legs

A leg is the NG signalling connection of a UE to the radio network. The first setup on a leg is an
initial context setup, every later one a resource setup; the leg remembers that the first has been
made, and that the radio network has answered it.
-/

namespace Amf

/-- A connection to the radio network. -/
structure Leg where
  /-- The identifiers at the two ends. -/
  ids : Ngap.UeIds
  /-- The base station. -/
  gnb : UInt64
  /-- The access technology of the serving cell. -/
  rat : RatType := .nr
  /-- The first setup has been made. -/
  setupSent : Bool := false
  /-- The first setup has been answered. -/
  setupAnswered : Bool := false
  /-- The UE that the leg serves. -/
  ue : Option Nat := none
  deriving DecidableEq, Inhabited

end Amf
