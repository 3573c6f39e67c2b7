import Amf.Access
import Amf.Document.Notification
import Amf.Octets
import Amf.Slice

/-!
# PDU sessions

A session may hold two messages back: the setup request, until the session management function has
confirmed the session, and a modification or release command, until the first setup of the leg is
answered.
-/

namespace Amf

/-- The commands that a session may hold back. -/
inductive CommandKind where
  | modification | release
  deriving DecidableEq, Repr, Inhabited

/-- A command that waits for the leg to be set up. -/
structure HeldCommand where
  /-- What the command does. -/
  kind : CommandKind
  /-- The message to the UE. -/
  n1 : Option Octets
  /-- The information to the radio network. -/
  n2 : Octets
  deriving DecidableEq, Repr, Inhabited

/-- A PDU session. -/
structure Session where
  /-- Its identity, which is not 0. -/
  psi : UInt8
  /-- The UE. -/
  ue : Nat
  /-- Its slice. -/
  slice : Slice := {}
  /-- Its data network. -/
  dnn : Option String := none
  /-- Its access. -/
  access : AccessType := .threeGpp
  /-- The resource of the session management function. -/
  smUri : Option String := none
  /-- The context in the session management function, once it has confirmed the session. -/
  smRef : Option String := none
  /-- The status last reported by the session management function. -/
  status : Option ResourceStatus := none
  /-- The UE has confirmed the release. -/
  n1Released : Bool := false
  /-- The radio network has confirmed the release. -/
  n2Released : Bool := false
  /-- The setup request held back, encoded. -/
  heldSetup : Option Octets := none
  /-- The command held back. -/
  heldCommand : Option HeldCommand := none
  deriving DecidableEq, Inhabited

namespace Session

/-- The session management function has confirmed the session. -/
def confirmed (s : Session) : Bool := s.smRef.isSome

/-- All three sides have confirmed the release. -/
def fullyReleased (s : Session) : Bool :=
  s.n1Released && s.n2Released && s.status == some .released

end Session
end Amf
