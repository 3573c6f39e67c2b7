import Amf.Nas
import Amf.Procedure

/-!
# Delivery on a leg

Session management messages and deregistration requests on the leg of a UE.

| message | leaves at once | is held back |
| --- | --- | --- |
| setup request | when the session is confirmed | until it is |
| modification or release command | when the UE is established | until it is |
| reject, deregistration request | always | never |

The first setup on a leg is an initial context setup. That a setup was made is noted on the leg
before the message is sent or held back.
-/

namespace Amf
namespace Delivery

open Procedure

/-- The setup request of a session: an initial context setup on a leg without one. -/
def setupRequest (c : Context) (u : Ue) (leg : Leg) (s : Session) (nas : Option Octets)
    (n2 : Octets) : Ngap.Request :=
  let item : Ngap.SetupItem := { psi := s.psi, slice := s.slice, nas, n2 }
  if leg.setupSent then .resourceSetup item
  else .initialContextSetup c.guami u.ambr (u.allowed.map (·.serving)) u.capability.valid item

/-- Sets a session up, or holds the request back until the session is confirmed. -/
def setup (id : Nat) (nas : Option Octets) (n2 : Octets) : Procedure Unit := do
  let s ← session id
  let u ← ue s.ue
  let (legId, leg) ← legOf s.ue
  let pdu := (setupRequest (← context) u leg s nas n2).octets leg.ids
  change fun c => c.modifyLeg legId fun l => { l with setupSent := true }
  if s.confirmed then emitOn leg pdu
  else change fun c => c.modifySession id fun s => { s with heldSetup := some pdu }

/-- Sends the setup request that a session holds back, and says whether it was sent. Without a leg
to send it on, the request is dropped. -/
def releaseSetup (id : Nat) : Procedure Bool := do
  let s ← session id
  match s.heldSetup with
  | none => return false
  | some pdu =>
    change fun c => c.modifySession id fun s => { s with heldSetup := none }
    match (← context).legOf? s.ue with
    | none => return false
    | some (_, leg) =>
      emitOn leg pdu
      return true

/-- The request that carries a command: a modification always has a message to the UE. -/
def commandRequest (psi : UInt8) (command : HeldCommand) : Ngap.Request :=
  match command.kind with
  | .modification => .resourceModify psi (Nas.wrapSession psi (command.n1.getD [])) command.n2
  | .release => .resourceRelease psi (command.n1.map (Nas.wrapSession psi)) command.n2

/-- Sends a command. -/
def command (id : Nat) (command : HeldCommand) : Procedure Unit := do
  let s ← session id
  let (_, leg) ← legOf s.ue
  emitOn leg ((commandRequest s.psi command).octets leg.ids)

/-- Sends a command to an established UE, and else holds it back in place of an earlier one. -/
def commandOrHold (ueId id : Nat) (c : HeldCommand) : Procedure Unit := do
  if (← context).established ueId then command id c
  else change fun ctx => ctx.modifySession id fun s => { s with heldCommand := some c }

/-- Sends the command that a session holds back, and says whether there was one. -/
def releaseCommand (id : Nat) : Procedure Bool := do
  match ((← context).sessions.get? id).bind (·.heldCommand) with
  | none => return false
  | some c =>
    change fun ctx => ctx.modifySession id fun s => { s with heldCommand := none }
    command id c
    return true

/-- Tells a UE that its session is rejected, and says whether it has a leg to be told on. -/
def reject (id : Nat) (n1 : Octets) : Procedure Bool := do
  let s ← session id
  match (← context).legOf? s.ue with
  | none => return false
  | some (_, leg) =>
    emitNas leg (Nas.wrapSession s.psi n1)
    return true

/-- Asks a UE to deregister, keeps the request for repetition, and starts its timer. -/
def deregister (id : Nat) (reregister : Bool) (cause : Option Nas.Cause) : Procedure Unit := do
  let u ← ue id
  let (_, leg) ← legOf id
  let nas := Nas.Deregistration.octets { access := u.access, reregister, cause }
  emitNas leg nas
  change fun c =>
    { c.modifyUe id fun u => { u with deregistrationMessage := some nas } with
      timers := c.timers.start .t3522 id }

/-- Repeats the deregistration request to a UE. -/
def repeatDeregistration (id : Nat) : Procedure Unit := do
  let u ← ue id
  let nas ← need u.deregistrationMessage (.send (.notBuilt "De-registration request"))
  let (_, leg) ← legOf id
  emitNas leg nas

end Delivery
end Amf
