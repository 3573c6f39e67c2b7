import Amf.Document.Notification
import Amf.Document.Relocation
import Amf.Document.Transfer

/-!
# The catalogue of documents

Every document type under its name on the service interface, with its normal form: the fields that the
type knows, written as the type writes them.
-/

namespace Amf
namespace Document

/-- A JSON value as a document type writes it, if the type reads it. -/
def normal? (α : Type) [Document α] (j : Json) : Option Json := (ofJson? j : Option α).map toJson

/-- The normal forms of the document types, by name. -/
def catalogue : List (String × (Json → Option Json)) :=
  [("ProblemDetails", normal? Problem),
   ("Snssai", normal? SliceBody),
   ("Ambr", normal? AmbrBody),
   ("RefToBinaryData", normal? PartRef),
   ("N1MessageClass", normal? N1Class),
   ("N2InformationClass", normal? N2Class),
   ("NgapIeType", normal? NgapIe),
   ("N1MessageContainer", normal? N1Container),
   ("N2InfoContent", normal? N2Content),
   ("N2SmInformation", normal? SessionInfo),
   ("N2InfoContainer", normal? N2Container),
   ("N1N2MessageTransferReqData", normal? TransferBody),
   ("N1N2MessageTransferCause", normal? TransferCause),
   ("N1N2MessageTransferRspData", normal? TransferAnswer),
   ("N1N2MsgTxfrFailureNotification", normal? FailureReport),
   ("ResourceStatus", normal? ResourceStatus),
   ("StatusInfo", normal? StatusInfo),
   ("SmContextStatusNotification", normal? SessionStatus),
   ("DeregistrationReason", normal? DeregistrationReason),
   ("DeregistrationData", normal? Deregistration),
   ("ChangeType", normal? ChangeType),
   ("ChangeItem", normal? ChangeItem),
   ("NotifyItem", normal? NotifyItem),
   ("ModificationNotification", normal? Modification),
   ("TransferReason", normal? RelocationReason),
   ("UeContextTransferReqData", normal? RelocationBody),
   ("ScType", normal? SecurityOrigin),
   ("NgKsi", normal? KeySetBody),
   ("KeyAmfType", normal? KeyKind),
   ("KeyAmf", normal? KeyBody),
   ("SeafData", normal? SeafBody),
   ("NasSecurityMode", normal? SecurityMode),
   ("NssaiMapping", normal? SliceMapping),
   ("MmContext", normal? MmContext),
   ("PduSessionContext", normal? SessionBody),
   ("UeContext", normal? UeContextBody),
   ("UeContextTransferRspData", normal? RelocationAnswer),
   ("UeContextTransferStatus", normal? RelocationStatus),
   ("UeRegStatusUpdateReqData", normal? StatusUpdate),
   ("UeRegStatusUpdateRspData", normal? StatusUpdateAnswer)]

/-- The normal form of a JSON value as a document of a named type. -/
def normalAs? (type : String) (j : Json) : Option Json :=
  (catalogue.lookup type).bind fun normal => normal j

end Document
end Amf
