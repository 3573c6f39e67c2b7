import Amf.Context.Leg
import Amf.Context.Ue
import Amf.Document.Transfer
import Amf.Net.Origin

/-!
# Outbound messages

What this AMF hands to its two transports: messages to the radio network, and requests to other
network functions. A transport may refuse each message that it is offered; the links keep what was
offered and what was accepted, each in order.
-/

namespace Amf

/-- The services that requests go to. -/
inductive Service where
  | subscriberData | amPolicy | pduSession | callback
  deriving DecidableEq, Repr, Inhabited

/-- The name of a service. -/
def Service.name : Service → String
  | subscriberData => "nudm-sdm"
  | amPolicy => "npcf-am-policy-control"
  | pduSession => "nsmf-pdusession"
  | callback => "namf-callback"

/-- A request to another network function. -/
inductive PeerRequest where
  /-- Ends the subscription to changes of the subscriber data. -/
  | endSubscription (supi id : String) (state : Option DeregistrationState)
  /-- Ends the association with the policy control function. -/
  | endPolicy (supi id : String) (state : Option DeregistrationState)
  /-- Releases a session in the session management function. -/
  | releaseSession (supi : String) (psi : UInt8) (smRef : String)
  /-- Reports that a transfer failed. -/
  | reportFailure (client : Origin) (uri location : String) (cause : Document.TransferCause)
  deriving DecidableEq, Inhabited

/-- The service that a request goes to. -/
def PeerRequest.service : PeerRequest → Service
  | endSubscription .. => .subscriberData
  | endPolicy .. => .amPolicy
  | releaseSession .. => .pduSession
  | reportFailure .. => .callback

/-- A message to the radio network. -/
inductive RadioMessage where
  /-- A message on the leg of a UE. -/
  | toLeg (gnb : UInt64) (ids : Ngap.UeIds) (pdu : Octets)
  /-- A paging message for a UE, by number. -/
  | paging (ue : Nat) (pdu : Octets)
  deriving DecidableEq, Inhabited

/-- A message that is offered to a transport. -/
inductive Outbound where
  | radio (m : RadioMessage)
  | peer (r : PeerRequest)
  deriving DecidableEq, Inhabited

/-- The transport of a message, as errors name it. -/
def Outbound.transport : Outbound → String
  | radio _ => "NGAP"
  | peer r => "SBI " ++ r.service.name

/-- The two transports, which accept or refuse the messages that they are offered one by one, and
what they were offered and have accepted. -/
structure Links where
  /-- Whether the radio transport accepts the message of a number. -/
  radioAccepts : Nat → Bool := fun _ => true
  /-- Whether the transport to other network functions accepts the message of a number. -/
  peerAccepts : Nat → Bool := fun _ => true
  /-- The messages offered to the radio transport so far. -/
  radioOffered : Nat := 0
  /-- The messages offered to the transport to other network functions so far. -/
  peerOffered : Nat := 0
  /-- The messages offered to either transport, in order. -/
  offered : List Outbound := []
  /-- The messages accepted, in order. -/
  sent : List Outbound := []
  deriving Inhabited

namespace Links

/-- Whether the transport of a message accepts it now. -/
def accepts (l : Links) : Outbound → Bool
  | .radio _ => l.radioAccepts l.radioOffered
  | .peer _ => l.peerAccepts l.peerOffered

/-- The links after a message was offered. -/
def offer (l : Links) (m : Outbound) : Links :=
  let offered := l.offered ++ [m]
  let sent := if l.accepts m then l.sent ++ [m] else l.sent
  match m with
  | .radio _ => { l with radioOffered := l.radioOffered + 1, offered, sent }
  | .peer _ => { l with peerOffered := l.peerOffered + 1, offered, sent }

end Links
end Amf
