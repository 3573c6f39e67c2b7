import Amf.Json.Document

/-!
# Documents of the N1/N2 message transfer

A session management function asks for a message to a UE (N1) and information to the radio network
(N2). The body names the binary parts of the request that hold them.
-/

namespace Amf
namespace Document

/-- The name of a binary part of the request. -/
structure PartRef where
  /-- The content identifier of the part. -/
  contentId : String
  deriving DecidableEq, Inhabited

instance : Document PartRef where
  toJson r := record [field "contentId" r.contentId]
  ofJson? := ofRecord? do
    return { contentId := ← required "contentId" }

/-- The classes of messages to a UE. -/
inductive N1Class where
  | fiveGmm | sm | lpp | sms | updp | lcs
  deriving DecidableEq, Inhabited

instance : Named N1Class where
  values := [.fiveGmm, .sm, .lpp, .sms, .updp, .lcs]
  name
    | .fiveGmm => "5GMM"
    | .sm => "SM"
    | .lpp => "LPP"
    | .sms => "SMS"
    | .updp => "UPDP"
    | .lcs => "LCS"

/-- The classes of information to the radio network. -/
inductive N2Class where
  | sm | nrppa | pws | pwsBcal | pwsRf | ran | v2x | prose
  deriving DecidableEq, Inhabited

instance : Named N2Class where
  values := [.sm, .nrppa, .pws, .pwsBcal, .pwsRf, .ran, .v2x, .prose]
  name
    | .sm => "SM"
    | .nrppa => "NRPPA"
    | .pws => "PWS"
    | .pwsBcal => "PWS_BCAL"
    | .pwsRf => "PWS_RF"
    | .ran => "RAN"
    | .v2x => "V2X"
    | .prose => "PROSE"

/-- The information elements that the information to the radio network may be. -/
inductive NgapIe where
  | setupRequest | releaseCommand | modifyRequest | handoverCommand | handoverRequiredAck
  | handoverPreparationFailure | sourceToTarget | targetToSource | notify | modifyIndication
  | setupResponse | modifyResponse | releaseResponse
  deriving DecidableEq, Inhabited

instance : Named NgapIe where
  values :=
    [.setupRequest, .releaseCommand, .modifyRequest, .handoverCommand, .handoverRequiredAck,
     .handoverPreparationFailure, .sourceToTarget, .targetToSource, .notify, .modifyIndication,
     .setupResponse, .modifyResponse, .releaseResponse]
  name
    | .setupRequest => "PDU_RES_SETUP_REQ"
    | .releaseCommand => "PDU_RES_REL_CMD"
    | .modifyRequest => "PDU_RES_MOD_REQ"
    | .handoverCommand => "HANDOVER_CMD"
    | .handoverRequiredAck => "HANDOVER_REQUIRED_ACK"
    | .handoverPreparationFailure => "HANDOVER_PREP_FAIL"
    | .sourceToTarget => "SRC_TO_TAR_CONTAINER"
    | .targetToSource => "TAR_TO_SRC_CONTAINER"
    | .notify => "PDU_RES_NOTIFY"
    | .modifyIndication => "PDU_RES_MOD_IND"
    | .setupResponse => "PDU_RES_SETUP_RSP"
    | .modifyResponse => "PDU_RES_MOD_RSP"
    | .releaseResponse => "PDU_RES_REL_RSP"

/-- A message to a UE. -/
structure N1Container where
  /-- Its class. -/
  messageClass : N1Class
  /-- The part that holds it. -/
  content : Option PartRef
  deriving DecidableEq, Inhabited

instance : Document N1Container where
  toJson c := record [field "n1MessageClass" c.messageClass, fieldOrNull "n1MessageContent" c.content]
  ofJson? := ofRecord? do
    return { messageClass := ← required "n1MessageClass", content := ← optional "n1MessageContent" }

/-- The content of information to the radio network. -/
structure N2Content where
  /-- The information element that it is. -/
  ie : Option NgapIe
  /-- The part that holds it. -/
  data : Option PartRef
  deriving DecidableEq, Inhabited

instance : Document N2Content where
  toJson c := record [fieldIf "ngapIeType" c.ie, fieldOrNull "ngapData" c.data]
  ofJson? := ofRecord? do
    return { ie := ← optional "ngapIeType", data := ← optional "ngapData" }

/-- Information to the radio network about a PDU session. -/
structure SessionInfo where
  /-- The PDU session. -/
  psi : UInt8
  /-- The information. -/
  content : Option N2Content
  deriving DecidableEq, Inhabited

instance : Document SessionInfo where
  toJson i := record [field "pduSessionId" i.psi, fieldOrNull "n2InfoContent" i.content]
  ofJson? := ofRecord? do
    return { psi := ← required "pduSessionId", content := ← optional "n2InfoContent" }

/-- Information to the radio network. -/
structure N2Container where
  /-- Its class. -/
  informationClass : N2Class
  /-- What it says about a PDU session. -/
  session : Option SessionInfo
  deriving DecidableEq, Inhabited

instance : Document N2Container where
  toJson c := record [field "n2InformationClass" c.informationClass, fieldIf "smInfo" c.session]
  ofJson? := ofRecord? do
    return { informationClass := ← required "n2InformationClass", session := ← optional "smInfo" }

/-- The body of a request for an N1/N2 message transfer (`N1N2MessageTransferReqData`). -/
structure TransferBody where
  /-- The message to the UE. -/
  n1 : Option N1Container := none
  /-- The information to the radio network. -/
  n2 : Option N2Container := none
  /-- The message need not reach a UE that is idle. -/
  skip : Option Bool := none
  /-- The PDU session, if not the one of the information to the radio network. -/
  psi : Option UInt8 := none
  /-- Where to report that the UE could not be reached. -/
  failureUri : Option String := none
  deriving DecidableEq, Inhabited

instance : Document TransferBody where
  toJson b := record
    [fieldIf "n1MessageContainer" b.n1, fieldIf "n2InfoContainer" b.n2, fieldIf "skipInd" b.skip,
     fieldIf "pduSessionId" b.psi, fieldIf "n1n2FailureTxfNotifURI" b.failureUri]
  ofJson? := ofRecord? do
    return {
      n1 := ← optional "n1MessageContainer"
      n2 := ← optional "n2InfoContainer"
      skip := ← optionalAtEnd "skipInd"
      psi := ← optional "pduSessionId"
      failureUri := ← optional "n1n2FailureTxfNotifURI" }

/-- What became of a transfer. -/
inductive TransferCause where
  | attemptingToReachUe | transferInitiated | waitingForAsynchronousTransfer | ueNotResponding
  | n1NotTransferred | n2NotTransferred | ueNotReachableForSession | rejectedRegistrationOngoing
  | rejectedHandoverOngoing
  deriving DecidableEq, Inhabited

instance : Named TransferCause where
  values :=
    [.attemptingToReachUe, .transferInitiated, .waitingForAsynchronousTransfer, .ueNotResponding,
     .n1NotTransferred, .n2NotTransferred, .ueNotReachableForSession, .rejectedRegistrationOngoing,
     .rejectedHandoverOngoing]
  name
    | .attemptingToReachUe => "ATTEMPTING_TO_REACH_UE"
    | .transferInitiated => "N1_N2_TRANSFER_INITIATED"
    | .waitingForAsynchronousTransfer => "WAITING_FOR_ASYNCHRONOUS_TRANSFER"
    | .ueNotResponding => "UE_NOT_RESPONDING"
    | .n1NotTransferred => "N1_MSG_NOT_TRANSFERRED"
    | .n2NotTransferred => "N2_MSG_NOT_TRANSFERRED"
    | .ueNotReachableForSession => "UE_NOT_REACHABLE_FOR_SESSION"
    | .rejectedRegistrationOngoing => "TEMPORARY_REJECT_REGISTRATION_ONGOING"
    | .rejectedHandoverOngoing => "TEMPORARY_REJECT_HANDOVER_ONGOING"

/-- The body of the response to a transfer (`N1N2MessageTransferRspData`). -/
structure TransferAnswer where
  /-- What became of the transfer. -/
  cause : TransferCause
  deriving DecidableEq, Inhabited

instance : Document TransferAnswer where
  toJson a := record [field "cause" a.cause]
  ofJson? := ofRecord? do
    return { cause := ← required "cause" }

/-- The report that a transfer failed (`N1N2MsgTxfrFailureNotification`). -/
structure FailureReport where
  /-- Why. -/
  cause : TransferCause
  /-- The location of the transfer. -/
  location : String
  deriving DecidableEq, Inhabited

instance : Document FailureReport where
  toJson r := record [field "cause" r.cause, field "n1n2MsgDataUri" r.location]
  ofJson? := ofRecord? do
    return { cause := ← required "cause", location := ← required "n1n2MsgDataUri" }

end Document
end Amf
