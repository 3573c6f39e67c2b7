import Amf.Routing

/-!
# Events

What reaches an AMF, one event at a time: requests, expiries of timers, what becomes of the
connections of UEs, and the confirmations of sessions. Every event is dealt with to its end before the
next one, and no failure of one stops the AMF; only a shutdown does.
-/

namespace Amf

/-- An event. -/
inductive Event where
  /-- A request from another network function. -/
  | request (r : Request)
  /-- An expiry of a timer. -/
  | timer (kind : TimerKind) (ue generation : Nat)
  /-- A UE has a new connection. -/
  | connected (ue : Nat) (gnb ranId : UInt64) (rat : RatType)
  /-- The connection of a UE is gone. -/
  | released (ue : Nat)
  /-- The first setup on the leg of a UE is answered. -/
  | setupAnswered (ue : Nat)
  /-- The session management function has confirmed a session. -/
  | sessionConfirmed (ue : Nat) (psi : UInt8) (uri smRef : String)
  /-- The UE confirms the release of a session. -/
  | n1Released (ue : Nat) (psi : UInt8)
  /-- The radio network confirms the release of a session. -/
  | n2Released (ue : Nat) (psi : UInt8)
  /-- The AMF is to stop. -/
  | shutdown
  deriving Inhabited

namespace Event

open Procedure

/-- The name of an event. -/
def name : Event → String
  | request _ => "AMF_EVENT_SBI_SERVER"
  | timer .. => "AMF_EVENT_5GMM_TIMER"
  | connected .. => "AMF_EVENT_RAN_UE_CONNECTED"
  | released _ => "AMF_EVENT_RAN_UE_RELEASED"
  | setupAnswered _ => "AMF_EVENT_CONTEXT_SETUP_ESTABLISHED"
  | sessionConfirmed .. => "AMF_EVENT_SM_CONTEXT_CREATED"
  | n1Released .. => "AMF_EVENT_N1_RELEASED"
  | n2Released .. => "AMF_EVENT_N2_RELEASED"
  | shutdown => "AMF_EVENT_SHUTDOWN"

/-- The former leg of a UE is given up for a new one. -/
def replaceLeg (ueId legId : Nat) (rat : RatType) : Procedure Unit := do
  match (← context).legOf? ueId with
  | some (former, _) =>
    change fun c => c.removeLeg former
    uncount .ranUes
  | none => pure ()
  change fun c => (c.modifyLeg legId fun l => { l with rat }).associate ueId legId
  count .ranUes

/-- A known UE gets a new leg, if there is room, and what was parked for it is delivered. -/
def connect (ueId : Nat) (gnb ranId : UInt64) (rat : RatType) : Procedure Unit := do
  let c ← context
  if c.ues.contains ueId then
    match c.addLeg gnb ranId with
    | none => return ()
    | some (legId, c') =>
      change fun _ => c'
      replaceLeg ueId legId rat
      attempt (Paging.answered ueId)

/-- The leg of a UE is removed. -/
def disconnect (ueId : Nat) : Procedure Unit := do
  match (← context).legOf? ueId with
  | none => return ()
  | some (legId, _) =>
    change fun c => (c.deassociate ueId).removeLeg legId
    uncount .ranUes

/-- Sends the commands that sessions hold back, in order, also after one has failed. -/
def releaseCommands : List Nat → Procedure Unit
  | [] => return ()
  | id :: rest => do
    attempt (Delivery.releaseCommand id)
    releaseCommands rest

/-- The leg of a UE is set up; once the UE is established, the commands held back for it are sent. -/
def establish (ueId : Nat) : Procedure Unit := do
  match (← context).legOf? ueId with
  | none => return ()
  | some (legId, _) =>
    change fun c => c.modifyLeg legId fun l => { l with setupAnswered := true }
    let c ← context
    if c.established ueId then
      match c.ues.get? ueId with
      | none => return ()
      | some u => releaseCommands u.sessions

/-- A session is confirmed, and the setup request held back for it is sent. -/
def confirm (ueId : Nat) (psi : UInt8) (uri smRef : String) : Procedure Unit := do
  match (← context).findSession? ueId psi with
  | none => return ()
  | some id =>
    change fun c => c.modifySession id fun s => { s with smUri := some uri, smRef := some smRef }
    attempt (Delivery.releaseSetup id)

/-- A confirmation of the release of a session. -/
def recordRelease (ueId : Nat) (psi : UInt8) (i : ReleaseInput) : Procedure Unit := do
  match (← context).findSession? ueId psi with
  | none => return ()
  | some id => attempt (Release.input id i)

/-- What an event sets off, other than a request and a shutdown. -/
def procedure : Event → Procedure Unit
  | timer .t3513 ueId generation => Paging.expired ueId generation
  | timer .t3522 ueId generation => Deregistration.expired ueId generation
  | connected ueId gnb ranId rat => connect ueId gnb ranId rat
  | released ueId => disconnect ueId
  | setupAnswered ueId => establish ueId
  | sessionConfirmed ueId psi uri smRef => confirm ueId psi uri smRef
  | n1Released ueId psi => recordRelease ueId psi .n1Released
  | n2Released ueId psi => recordRelease ueId psi .n2Released
  | request _ | shutdown => return ()

/-- What an event came to. -/
inductive Outcome where
  /-- It was dealt with. -/
  | handled
  /-- It was a request, and was replied to. -/
  | replied (r : Routing.Reply)
  /-- The AMF stops. -/
  | stopped
  deriving Inhabited

/-- The outcome of an event, and the state after it. -/
def handle (e : Event) (n : Node) : Outcome × Node :=
  match e with
  | request r => let (reply, n') := Routing.handle r n; (.replied reply, n')
  | shutdown => (.stopped, n)
  | e => (.handled, (e.procedure.exec n).2)

/-- The state after events, in order; those after a shutdown are dealt with like those before it. -/
def run (es : List Event) (n : Node) : Node := es.foldl (fun n e => (e.handle n).2) n

end Event
end Amf
