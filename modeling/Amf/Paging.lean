import Amf.Api
import Amf.Delivery

/-!
# Paging

A transfer for an idle UE is parked and the UE is paged; the timer T3513 guards the paging.

| what happens | effect |
| --- | --- |
| the UE connects | the timer stops and the transfer is delivered |
| the timer expires, retries left | the paging message is repeated |
| the timer expires, no retries left | the transfer is dropped, and its target is told |
-/

namespace Amf
namespace Paging

open Procedure

/-- The target of a URI with a client towards it, and whether that client is new. -/
def resolve (uri : Option String) : Procedure (Option FailureTarget × Bool) :=
  match uri with
  | none => return (none, false)
  | some uri => do
    match Origin.ofUri? uri with
    | .error e => throw (.target e)
    | .ok client =>
      match (← context).clients.ensure client with
      | .error e => throw (.target e)
      | .ok (clients, added) =>
        change fun c => { c with clients }
        return (some { uri, client }, added)

/-- The context without a client that was added for a target. -/
def forget (c : Context) : Option FailureTarget × Bool → Context
  | (some target, true) => { c with clients := c.clients.erase target.client }
  | _ => c

/-- Pages a UE and parks a transfer for it, and yields the location of the transfer. Nothing is parked
when the target cannot be resolved or the paging message is refused. -/
def start (id : Nat) (payload : Payload) (uri : Option String) : Procedure String := do
  let s ← session id
  let u ← ue s.ue
  let guti ← need u.guti (.send (.notBuilt "Paging"))
  let pdu := Ngap.Paging.octets { guti, tai := u.tai }
  let resolved ← resolve uri
  let location := Api.transferLocation (← context).origin u.name s.smRef
  tryCatch (emit (.radio (.paging s.ue pdu))) fun fault => do
    change fun c => forget c resolved
    throw fault
  change fun c =>
    { c.modifyUe s.ue fun u => { u with pagingMessage := some pdu } with
      parked := c.parked.insert s.ue
        { session := id, psi := s.psi, location, target := resolved.1, payload }
      timers := c.timers.start .t3513 s.ue }
  count .pagingRequests
  return location

/-- Delivers a parked transfer to its UE, which has a leg now. -/
def deliver (ueId : Nat) (p : Parked) : Procedure Unit :=
  match p.payload with
  | .setup nas n2 => Delivery.setup p.session nas n2
  | .modify n1 n2 => Delivery.commandOrHold ueId p.session ⟨.modification, some n1, n2⟩
  | .release n1 n2 => Delivery.commandOrHold ueId p.session ⟨.release, n1, n2⟩

/-- The context without the paging of a UE; a parked transfer stays. -/
def endPaging (c : Context) (ueId : Nat) : Context :=
  { c.modifyUe ueId fun u => { u with pagingMessage := none } with
    timers := c.timers.stop .t3513 ueId }

/-- Ends the paging of a UE that has connected, delivers the transfer parked for it, and says whether
there was one for a session that still exists. -/
def answered (ueId : Nat) : Procedure Bool := do
  let before ← context
  change fun c => endPaging c ueId
  match before.parked.get? ueId with
  | none => return false
  | some p =>
    change fun c => { c with parked := c.parked.erase ueId }
    if before.timers.isRunning .t3513 ueId then count .pagingSuccesses
    if before.sessions.contains p.session then
      deliver ueId p
      return true
    else return false

/-- Repeats the paging of a UE. -/
def repeatPaging (ueId : Nat) : Procedure Unit := do
  let u ← ue ueId
  match u.pagingMessage with
  | none => change fun c => { c with timers := c.timers.stop .t3513 ueId }
  | some pdu =>
    emit (.radio (.paging ueId pdu))
    count .pagingRequests

/-- Gives the paging of a UE up: the transfer parked for it is dropped, and its target is told. -/
def giveUp (ueId : Nat) : Procedure Unit := do
  change fun c => c.modifyUe ueId fun u => { u with pagingMessage := none }
  match (← context).parked.get? ueId with
  | none => return ()
  | some p =>
    change fun c => { c with parked := c.parked.erase ueId }
    match p.target with
    | none => return ()
    | some target =>
      emit (.peer (.reportFailure target.client target.uri p.location .ueNotResponding))

/-- An expiry of T3513. -/
def expired (ueId generation : Nat) : Procedure Unit := do
  let (expiry, timers) := (← context).timers.expire .t3513 ueId generation
  change fun c => { c with timers }
  match expiry with
  | none => return ()
  | some (.retry _) => repeatPaging ueId
  | some .exhausted => giveUp ueId

end Paging
end Amf
