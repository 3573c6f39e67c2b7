import Amf.Net.Origin
import Amf.Octets

/-!
# Parked transfers

A transfer for an idle UE is parked while the UE is paged, one for each UE at most; a newer transfer
takes the place of an older one.
-/

namespace Amf

/-- What a parked transfer delivers. -/
inductive Payload where
  /-- A session to set up; the message to the UE is already wrapped. -/
  | setup (nas : Option Octets) (n2 : Octets)
  /-- A modification command. -/
  | modify (n1 n2 : Octets)
  /-- A release command. -/
  | release (n1 : Option Octets) (n2 : Octets)
  deriving DecidableEq, Repr, Inhabited

/-- The name of the information element that a payload came with. -/
def Payload.name : Payload → String
  | setup .. => "PDU_RES_SETUP_REQ"
  | modify .. => "PDU_RES_MOD_REQ"
  | release .. => "PDU_RES_REL_CMD"

/-- Where to report that a UE could not be reached. -/
structure FailureTarget where
  /-- The URI to notify. -/
  uri : String
  /-- The client that serves the URI. -/
  client : Origin
  deriving DecidableEq, Repr, Inhabited

/-- A transfer that waits for its UE. -/
structure Parked where
  /-- The session. -/
  session : Nat
  /-- The identity of the session. -/
  psi : UInt8
  /-- The location that the requester was given. -/
  location : String
  /-- Where to report a failure. -/
  target : Option FailureTarget
  /-- What to deliver. -/
  payload : Payload
  deriving DecidableEq, Repr, Inhabited

end Amf
