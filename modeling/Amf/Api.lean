import Amf.Net.Origin

/-!
# Service interface

The names that the paths of the served resources are made of:

| path | resource |
| --- | --- |
| `/namf-comm/v1/ue-contexts/{ue}/n1-n2-messages` | N1/N2 message transfers |
| `/namf-comm/v1/ue-contexts/{ue}/transfer` | the context of a UE |
| `/namf-comm/v1/ue-contexts/{ue}/transfer-update` | the outcome of a relocation |
| `/namf-callback/v1/{supi}/sm-context-status/{psi}` | the status of a session |
| `/namf-callback/v1/{supi}/dereg-notify` | the deregistration of a subscriber |
| `/namf-callback/v1/{supi}/sdmsubscription-notify` | changes of subscriber data |
-/

namespace Amf
namespace Api

/-- The service of other network functions' requests. -/
def communication : String := "namf-comm"

/-- The service of other network functions' notifications. -/
def callback : String := "namf-callback"

/-- The version of both services. -/
def version : String := "v1"

/-- The contexts of UEs. -/
def ueContexts : String := "ue-contexts"

/-- N1/N2 message transfers. -/
def messages : String := "n1-n2-messages"

/-- The context of a UE. -/
def transfer : String := "transfer"

/-- The outcome of a relocation. -/
def transferUpdate : String := "transfer-update"

/-- The status of a session. -/
def sessionStatus : String := "sm-context-status"

/-- The deregistration of a subscriber. -/
def deregistration : String := "dereg-notify"

/-- Changes of subscriber data. -/
def subscriberData : String := "sdmsubscription-notify"

/-- The subscriber data of access and mobility. -/
def accessData : String := "am-data"

/-- The location of a transfer to a UE, with the session's context in the session management function
when there is one. -/
def transferLocation (own : Origin) (ueName : String) (smRef : Option String) : String :=
  let resource := "/".intercalate
    [own.baseUri, communication, version, ueContexts, ueName, messages]
  match smRef with
  | some ref => resource ++ "/" ++ ref
  | none => resource

end Api
end Amf
