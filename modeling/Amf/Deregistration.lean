import Amf.Delivery
import Amf.Document.Notification

/-!
# Deregistration by the network

A connected UE is asked to deregister, and the timer T3522 guards the request. An idle UE cannot be
asked; it is marked, and its sessions are left as they are. Either way the subscription to changes of
its data ends, or without one the association with the policy control function.
-/

namespace Amf
namespace Deregistration

open Procedure

/-- The request that ends the subscription of a UE, or without one its policy association. -/
def endRequest? (u : Ue) (state : Option DeregistrationState) : Option PeerRequest :=
  match u.subscriptionId, u.policyId with
  | some id, _ => some (.endSubscription u.name id state)
  | none, some id => some (.endPolicy u.name id state)
  | none, none => none

/-- Ends the subscription of a UE, or without one its policy association, and yields the service that
was asked. -/
def unsubscribe (u : Ue) (state : Option DeregistrationState) : Procedure (Option Service) :=
  match endRequest? u state with
  | none => return none
  | some request => do
    emit (.peer request)
    return some request.service

/-- Marks a UE as being deregistered and ends its subscription. -/
def mark (id : Nat) (state : DeregistrationState) : Procedure Unit := do
  change fun c => c.modifyUe id fun u => { u with deregistration := some state }
  let u ← need ((← context).ues.get? id) (.notFound "No UE Context")
  let _ ← unsubscribe u (some state)

/-- A notification that a subscriber is deregistered. -/
def notify (id : Nat) (d : Document.Deregistration) : Procedure DeregistrationState := do
  let _ ← need ((← context).ues.get? id) (.notFound "No UE Context")
  let reason ← need d.reason (.badRequest "No Deregistration Reason")
  if d.access ≠ .threeGpp then throw (.badRequest "Deregistration access type not 3GPP")
  match (← context).connection id with
  | .connected =>
    Delivery.deregister id (reason = .reregistrationRequired) (some .servicesNotAllowed)
    mark id .explicit
    return .explicit
  | .idle =>
    mark id .implicitIncomplete
    return .implicitIncomplete

/-- An expiry of T3522: the request is repeated while the UE has a leg. -/
def expired (id generation : Nat) : Procedure Unit := do
  let (expiry, timers) := (← context).timers.expire .t3522 id generation
  change fun c => { c with timers }
  match expiry with
  | none => return ()
  | some (.retry _) =>
    tryCatch (Delivery.repeatDeregistration id) fun
      | .send (.noLeg _) => change fun c => { c with timers := c.timers.stop .t3522 id }
      | fault => throw fault
  | some .exhausted =>
    change fun c => c.modifyUe id fun u => { u with deregistrationMessage := none }

end Deregistration
end Amf
