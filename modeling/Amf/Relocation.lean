import Amf.Document.Relocation
import Amf.Procedure
import Amf.Text.Base64

/-!
# Relocation of a UE to another AMF

The AMF that a UE has moved to asks for the UE's context, and reports later whether it took the UE over.
Once it did, the sessions that it could not take over are released, and everything that ties the UE to
this AMF is dropped: its leg, its parked transfer, its timers, and the messages kept or held back for it.
-/

namespace Amf
namespace Relocation

open Procedure Document

/-- The UE of a context identifier. -/
def findUe (id : Option String) : Procedure Nat := do
  let id ← need id (.badRequest "No UE context ID")
  need ((← context).findUe? id) (.notFound "Context not found")

/-! ## The context -/

/-- A rate in words, unless it is unlimited. -/
def rateText (rate : UInt64) : Option String :=
  if rate = 0 then none else some (Bitrate.toKbps rate)

/-- The subscribed aggregate bit rate, unless it is unlimited in both directions. -/
def ambrBody (a : Ambr) : Option AmbrBody :=
  match rateText a.uplink, rateText a.downlink with
  | none, none => none
  | uplink, downlink => some { uplink, downlink }

/-- Where a security context of a type comes from. -/
def securityOrigin (tsc : UInt8) : SecurityOrigin := if tsc = 0 then .native else .mapped

/-- The key material, when there is a key set identifier and a type of security context. -/
def seafBody (u : Ue) : Option SeafBody :=
  if u.keySet.ksi = 0 ∨ u.keySet.tsc = 0 then none
  else some {
    keySet := { tsc := securityOrigin u.keySet.tsc, ksi := u.keySet.ksi }
    key := { kind := .kamf, value := String.ofList (Octets.hex u.kamf.toList) } }

/-- The mobility management capability as an information element, in base64. -/
def mmCapabilityText (m : MmCapability) : String :=
  let bits : UInt8 :=
    (if m.s1 then 1 else 0) + (if m.handoverAttach then 2 else 0) + (if m.lpp then 4 else 0)
  String.ofList (Text.base64 [0x10, 1, bits])

/-- The security capability as an information element, in base64, unless it is empty. -/
def capabilityText (c : SecurityCapability) : Option String :=
  if c.valid.isEmpty then none
  else some (String.ofList (Text.base64 ([0x2e] ++ Octets.counted 1 c.valid)))

/-- The algorithms in use, when both are. -/
def securityMode (u : Ue) : Option SecurityMode :=
  if u.ciphering = 0 ∨ u.integrity = 0 then none
  else some {
    integrity := "NIA" ++ toString u.integrity.toNat
    ciphering := "NEA" ++ toString u.ciphering.toNat }

/-- A count of messages, unless there was none. -/
def countBody (n : UInt32) : Option UInt32 := if n = 0 then none else some n

/-- The mobility management context of a UE. -/
def mmContext (u : Ue) : MmContext :=
  { access := u.access
    securityMode := securityMode u
    downlinkCount := countBody u.downlinkCount
    uplinkCount := countBody u.uplinkCount
    capability := capabilityText u.capability
    allowed := u.allowed.map fun a => .ofSlice a.serving
    mappings := u.allowed.map fun a =>
      { mapped := .ofSlice a.serving, home := .ofSlice (a.home.getD a.serving) } }

/-- A session in brief. -/
def sessionBody (s : Session) : SessionBody :=
  { psi := s.psi, smRef := s.smRef, slice := .ofSlice s.slice, dnn := s.dnn, access := s.access }

/-- The context of a UE; the sessions go along in a mobility registration only. -/
def ueContext (c : Context) (id : Nat) (u : Ue) (reason : RelocationReason) : UeContextBody :=
  { supi := u.supi
    supiUnauthenticated := if u.authResult = .success then none else some true
    pei := u.pei
    ambr := ambrBody u.ambr
    seaf := seafBody u
    mmCapability := some (mmCapabilityText u.mmCapability)
    pcfId := u.pcfId
    mmContexts := [mmContext u]
    sessions :=
      if reason = .mobilityRegistration then some ((c.sessionsOf id).map sessionBody) else none }

/-- A request for the context of a UE. -/
def request (ueContextId : Option String) (b : RelocationBody) : Procedure RelocationAnswer := do
  let id ← findUe ueContextId
  let c ← context
  let u ← need (c.ues.get? id) (.notFound "Context not found")
  return { ueContext := ueContext c id u b.reason }

/-! ## The outcome -/

/-- Asks the session management function to release a session that it has confirmed, and says whether
it was asked. -/
def releaseInSmf (u : Ue) (s : Session) : Procedure Bool :=
  match s.smRef with
  | none => return false
  | some smRef => do
    emit (.peer (.releaseSession u.name s.psi smRef))
    return true

/-- Releases sessions of a UE in order, and says whether every one of them could be. -/
def releaseAll (id : Nat) : List UInt8 → Procedure Bool
  | [] => return true
  | psi :: rest => do
    let c ← context
    let released ← match c.ues.get? id, (c.findSession? id psi).bind c.sessions.get? with
      | some u, some s => releaseInSmf u s
      | _, _ => pure false
    let others ← releaseAll id rest
    return released && others

/-- A session without the messages that it holds back. -/
def letGo (s : Session) : Session := { s with heldSetup := none, heldCommand := none }

/-- The context without what ties a UE to this AMF. -/
def detach (c : Context) (id : Nat) : Context :=
  let c := if (c.legOf? id).isSome then c.clearConnection id else c
  let c :=
    { c with
      parked := c.parked.erase id
      timers := c.timers.stopAll id }
  match c.ues.get? id with
  | none => c
  | some u =>
    { c with
      ues := c.ues.insert id { u with pagingMessage := none, deregistrationMessage := none }
      sessions := u.sessions.foldl (fun t s => t.modify s letGo) c.sessions }

/-- A report whether the other AMF took a UE over. -/
def update (ueContextId : Option String) (r : StatusUpdate) : Procedure StatusUpdateAnswer := do
  let id ← findUe ueContextId
  match r.status with
  | none => throw (.badRequest "No transfer status")
  | some .notTransferred => return { complete := false }
  | some .transferred =>
    let complete ← releaseAll id r.release
    if ((← context).legOf? id).isSome then uncount .ranUes
    change fun c => detach c id
    return { complete }

end Relocation
end Amf
