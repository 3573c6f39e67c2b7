import Amf.Access
import Amf.Octets

/-!
# Mobility management messages to a UE

Both messages open with an integrity protected and ciphered header around a plain one, then the
message type.

| message | type | after the type |
| --- | ---: | --- |
| downlink transport | `68` | container type, payload, `12` PSI, cause, `37 01` back-off |
| deregistration request | `47` | deregistration type, cause |

A cause is `58` and its code; a payload carries its length in two octets; causes and back-off are left
out when absent.
-/

namespace Amf
namespace Nas

open Octets

/-- The mobility management causes that this AMF gives. -/
inductive Cause where
  | servicesNotAllowed | implicitlyDeregistered | congestion | payloadNotForwarded | unspecified
  deriving DecidableEq, Repr, Inhabited

/-- The code of a cause. -/
def Cause.code : Cause → UInt8
  | servicesNotAllowed => 7
  | implicitlyDeregistered => 10
  | congestion => 22
  | payloadNotForwarded => 90
  | unspecified => 111

/-- The cause of a code; a code of no other cause is an unspecified protocol error. -/
def Cause.ofCode (code : UInt8) : Cause :=
  if code = 7 then servicesNotAllowed
  else if code = 10 then implicitlyDeregistered
  else if code = 22 then congestion
  else if code = 90 then payloadNotForwarded
  else unspecified

theorem Cause.ofCode_code (c : Cause) : ofCode c.code = c := by
  cases c <;> decide

/-- The headers of a message and its type. -/
def header (messageType : UInt8) : Octets := [0x7e, 0x02, 0x7e, 0x00, messageType]

/-- A cause, when there is one. -/
def causeElement : Option Cause → Octets
  | some c => [0x58, c.code]
  | none => []

/-- A back-off time in units of two seconds; a time below one unit is left out. -/
def backoffElement : Option UInt8 → Octets
  | some seconds => if 2 ≤ seconds then [0x37, 1, seconds / 2] else []
  | none => []

/-- The container type of session management payloads. -/
def sessionContainer : UInt8 := 1

/-- A downlink transport of a payload for a PDU session. -/
structure Transport where
  /-- The PDU session. -/
  psi : UInt8
  /-- The type of the payload, four bits. -/
  container : UInt8 := sessionContainer
  /-- The payload. -/
  payload : Octets
  /-- Why a payload of the UE comes back. -/
  cause : Option Cause := none
  /-- The seconds that the UE shall wait. -/
  backoff : Option UInt8 := none
  deriving DecidableEq, Repr, Inhabited

/-- The octets of a downlink transport. -/
def Transport.octets (t : Transport) : Octets :=
  header 0x68 ++ [t.container % 16] ++ counted 2 t.payload ++ [0x12, t.psi] ++
    causeElement t.cause ++ backoffElement t.backoff

/-- A session management payload wrapped for a PDU session. -/
def wrapSession (psi : UInt8) (payload : Octets) : Octets :=
  Transport.octets { psi, payload }

/-- A deregistration request to a UE. -/
structure Deregistration where
  /-- The access that the UE is deregistered from. -/
  access : AccessType
  /-- The UE shall register again. -/
  reregister : Bool
  /-- Why the UE is deregistered. -/
  cause : Option Cause
  deriving DecidableEq, Repr, Inhabited

/-- The access and the re-registration bit of a deregistration request. -/
def Deregistration.typeOctet (d : Deregistration) : UInt8 :=
  (match d.access with
    | .threeGpp => 1
    | .nonThreeGpp => 2) + (if d.reregister then 4 else 0)

/-- The octets of a deregistration request. -/
def Deregistration.octets (d : Deregistration) : Octets :=
  header 0x47 ++ [d.typeOctet] ++ causeElement d.cause

end Nas
end Amf
