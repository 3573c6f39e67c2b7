import Amf.Document.Basic

/-!
# Documents of the relocation of a UE

An AMF that a UE has moved to asks the former one for the UE's context, and later reports whether it
took the UE over.
-/

namespace Amf
namespace Document

/-- Why a UE's context is asked for. -/
inductive RelocationReason where
  | initialRegistration | mobilityRegistration | mobilityRegistrationValidated
  deriving DecidableEq, Inhabited

instance : Named RelocationReason where
  values := [.initialRegistration, .mobilityRegistration, .mobilityRegistrationValidated]
  name
    | .initialRegistration => "INIT_REG"
    | .mobilityRegistration => "MOBI_REG"
    | .mobilityRegistrationValidated => "MOBI_REG_UE_VALIDATED"

/-- The body of a request for a UE's context (`UeContextTransferReqData`). -/
structure RelocationBody where
  /-- Why. -/
  reason : RelocationReason
  /-- The access of the registration. -/
  access : AccessType
  deriving DecidableEq, Inhabited

instance : Document RelocationBody where
  toJson b := record [field "reason" b.reason, field "accessType" b.access]
  ofJson? := ofRecord? do
    return { reason := ← required "reason", access := ← required "accessType" }

/-- Where a security context comes from. -/
inductive SecurityOrigin where
  | native | mapped
  deriving DecidableEq, Inhabited

instance : Named SecurityOrigin where
  values := [.native, .mapped]
  name
    | .native => "NATIVE"
    | .mapped => "MAPPED"

/-- The identifier of a key set. -/
structure KeySetBody where
  /-- Where the security context comes from. -/
  tsc : SecurityOrigin
  /-- The key set identifier. -/
  ksi : UInt8
  deriving DecidableEq, Inhabited

instance : Document KeySetBody where
  toJson k := record [field "tsc" k.tsc, field "ksi" k.ksi]
  ofJson? := ofRecord? do
    return { tsc := ← required "tsc", ksi := ← required "ksi" }

/-- The kinds of AMF keys. -/
inductive KeyKind where
  | kamf | kamfPrime
  deriving DecidableEq, Inhabited

instance : Named KeyKind where
  values := [.kamf, .kamfPrime]
  name
    | .kamf => "KAMF"
    | .kamfPrime => "KAMF_PRIME"

/-- An AMF key. -/
structure KeyBody where
  /-- Its kind. -/
  kind : KeyKind
  /-- The key in hexadecimal digits. -/
  value : String
  deriving DecidableEq, Inhabited

instance : Document KeyBody where
  toJson k := record [field "keyType" k.kind, field "keyVal" k.value]
  ofJson? := ofRecord? do
    return { kind := ← required "keyType", value := ← required "keyVal" }

/-- Key material. -/
structure SeafBody where
  /-- The identifier of the key set. -/
  keySet : KeySetBody
  /-- The key. -/
  key : KeyBody
  deriving DecidableEq, Inhabited

instance : Document SeafBody where
  toJson s := record [field "ngKsi" s.keySet, field "keyAmf" s.key]
  ofJson? := ofRecord? do
    return { keySet := ← required "ngKsi", key := ← required "keyAmf" }

/-- The algorithms of NAS security. -/
structure SecurityMode where
  /-- The integrity algorithm. -/
  integrity : String
  /-- The ciphering algorithm. -/
  ciphering : String
  deriving DecidableEq, Inhabited

instance : Document SecurityMode where
  toJson m := record [field "integrityAlgorithm" m.integrity, field "cipheringAlgorithm" m.ciphering]
  ofJson? := ofRecord? do
    return { integrity := ← required "integrityAlgorithm", ciphering := ← required "cipheringAlgorithm" }

/-- A slice and the home network's slice for it. -/
structure SliceMapping where
  /-- The slice of the serving network. -/
  mapped : SliceBody
  /-- The slice of the home network. -/
  home : SliceBody
  deriving DecidableEq, Inhabited

instance : Document SliceMapping where
  toJson m := record [field "mappedSnssai" m.mapped, field "hSnssai" m.home]
  ofJson? := ofRecord? do
    return { mapped := ← required "mappedSnssai", home := ← required "hSnssai" }

/-- The mobility management context of one access. -/
structure MmContext where
  /-- The access. -/
  access : AccessType
  /-- The algorithms. -/
  securityMode : Option SecurityMode := none
  /-- The count of messages to the UE. -/
  downlinkCount : Option UInt32 := none
  /-- The count of messages from the UE. -/
  uplinkCount : Option UInt32 := none
  /-- The security capability of the UE, in base64. -/
  capability : Option String := none
  /-- The slices that the UE may use. -/
  allowed : List SliceBody := []
  /-- The home network's slices for them. -/
  mappings : List SliceMapping := []
  deriving DecidableEq, Inhabited

instance : Document MmContext where
  toJson m := record
    [field "accessType" m.access, fieldIf "nasSecurityMode" m.securityMode,
     fieldIf "nasDownlinkCount" m.downlinkCount, fieldIf "nasUplinkCount" m.uplinkCount,
     fieldIf "ueSecurityCapability" m.capability, fieldIfAny "allowedNssai" m.allowed,
     fieldIfAny "nssaiMappingList" m.mappings]
  ofJson? := ofRecord? do
    return {
      access := ← required "accessType"
      securityMode := ← optional "nasSecurityMode"
      downlinkCount := ← optional "nasDownlinkCount"
      uplinkCount := ← optional "nasUplinkCount"
      capability := ← optional "ueSecurityCapability"
      allowed := ← withDefault "allowedNssai" []
      mappings := ← withDefault "nssaiMappingList" [] }

/-- A PDU session in brief. -/
structure SessionBody where
  /-- The PDU session. -/
  psi : UInt8
  /-- Its context in the session management function. -/
  smRef : Option String
  /-- Its slice. -/
  slice : SliceBody
  /-- Its data network. -/
  dnn : Option String
  /-- Its access. -/
  access : AccessType
  deriving DecidableEq, Inhabited

instance : Document SessionBody where
  toJson s := record
    [field "pduSessionId" s.psi, fieldOrNull "smContextRef" s.smRef, field "sNssai" s.slice,
     fieldOrNull "dnn" s.dnn, field "accessType" s.access]
  ofJson? := ofRecord? do
    return {
      psi := ← required "pduSessionId"
      smRef := ← optional "smContextRef"
      slice := ← required "sNssai"
      dnn := ← optional "dnn"
      access := ← required "accessType" }

/-- A UE's context. -/
structure UeContextBody where
  /-- The permanent identity. -/
  supi : Option String := none
  /-- The permanent identity is not authenticated. -/
  supiUnauthenticated : Option Bool := none
  /-- The identity of the equipment. -/
  pei : Option String := none
  /-- The subscribed aggregate bit rate. -/
  ambr : Option AmbrBody := none
  /-- The key material. -/
  seaf : Option SeafBody := none
  /-- The mobility management capability, in base64. -/
  mmCapability : Option String := none
  /-- The policy control function that serves the UE. -/
  pcfId : Option String := none
  /-- The mobility management contexts. -/
  mmContexts : List MmContext := []
  /-- The PDU sessions. -/
  sessions : Option (List SessionBody) := none
  deriving DecidableEq, Inhabited

instance : Document UeContextBody where
  toJson u := record
    [fieldIf "supi" u.supi, fieldIf "supiUnauthInd" u.supiUnauthenticated, fieldIf "pei" u.pei,
     fieldIf "subUeAmbr" u.ambr, fieldIf "seafData" u.seaf, fieldIf "5gMmCapability" u.mmCapability,
     fieldIf "pcfId" u.pcfId, fieldIfAny "mmContextList" u.mmContexts,
     fieldIf "sessionContextList" u.sessions]
  ofJson? := ofRecord? do
    return {
      supi := ← optional "supi"
      supiUnauthenticated := ← optional "supiUnauthInd"
      pei := ← optional "pei"
      ambr := ← optional "subUeAmbr"
      seaf := ← optional "seafData"
      mmCapability := ← optional "5gMmCapability"
      pcfId := ← optional "pcfId"
      mmContexts := ← withDefault "mmContextList" []
      sessions := ← optional "sessionContextList" }

/-- The body of the response with a UE's context (`UeContextTransferRspData`). -/
structure RelocationAnswer where
  /-- The context. -/
  ueContext : UeContextBody
  deriving DecidableEq, Inhabited

instance : Document RelocationAnswer where
  toJson a := record [field "ueContext" a.ueContext]
  ofJson? := ofRecord? do
    return { ueContext := ← required "ueContext" }

/-- Whether the other AMF took the UE over. -/
inductive RelocationStatus where
  | transferred | notTransferred
  deriving DecidableEq, Inhabited

instance : Named RelocationStatus where
  values := [.transferred, .notTransferred]
  name
    | .transferred => "TRANSFERRED"
    | .notTransferred => "NOT_TRANSFERRED"

/-- The report of the other AMF (`UeRegStatusUpdateReqData`). -/
structure StatusUpdate where
  /-- Whether it took the UE over. -/
  status : Option RelocationStatus
  /-- The PDU sessions that it did not take over. -/
  release : List UInt8 := []
  deriving DecidableEq, Inhabited

instance : Document StatusUpdate where
  toJson u := record
    [fieldOrNull "transferStatus" u.status, fieldIfAny "toReleaseSessionList" u.release]
  ofJson? := ofRecord? do
    return { status := ← optional "transferStatus", release := ← withDefault "toReleaseSessionList" [] }

/-- The response to that report (`UeRegStatusUpdateRspData`). -/
structure StatusUpdateAnswer where
  /-- Everything that was asked for is done. -/
  complete : Bool
  deriving DecidableEq, Inhabited

instance : Document StatusUpdateAnswer where
  toJson a := record [field "regStatusTransferComplete" a.complete]
  ofJson? := ofRecord? do
    return { complete := ← required "regStatusTransferComplete" }

end Document
end Amf
