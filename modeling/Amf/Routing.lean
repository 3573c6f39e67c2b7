import Amf.Api
import Amf.Deregistration
import Amf.Release
import Amf.Relocation
import Amf.Request
import Amf.Subscription.Notification
import Amf.Transfer

/-!
# Routing of requests

The resource of a request is found by its path; then its method, its body, its UE and its session are
checked in that order, and the procedure of the resource is carried out. A fault is reported as problem
details, except that of an information element which no procedure handles.
-/

namespace Amf
namespace Routing

open Procedure Document

/-- Every resource serves one method. -/
def requirePost (r : Request) : Procedure Unit :=
  if r.method = "POST" then return () else throw (.methodNotAllowed r.method)

/-- The body as a document of a name. -/
def parse [Document α] (r : Request) (name : String) : Procedure α := do
  let body ← need r.body (.badRequest ("No " ++ name))
  need (ofJson? body) (.badRequest ("Cannot parse " ++ name))

/-- The path has no resource at a component. -/
def invalidResource (r : Request) (i : Nat) : Fault :=
  .badRequest ("Invalid resource name [" ++ (r.component? i).getD "" ++ "]")

/-- A binary part that the body names, and the request without it. -/
def takePart (r : Request) (id : String) (fault : Fault) : Procedure (Octets × Request) :=
  need (r.takePart? id) fault

/-- The message to the UE that a transfer names, if it does. -/
def n1Part (r : Request) (b : TransferBody) : Procedure (Option Octets × Request) :=
  match b.n1 with
  | none => return (none, r)
  | some container => do
    let content ← need container.content (.badRequest "No n1MessageContent")
    let (part, r) ← takePart r content.contentId (.badRequest "No N1 SM Content")
    return (some part, r)

/-- The information to the radio network that a transfer names, if it does, and the procedure for
it. -/
def n2Part (r : Request) (info : Option SessionInfo) : Procedure (Transfer.Kind × Option Octets) :=
  match info with
  | none => return (.ofIe none, none)
  | some info => do
    let content ← need info.content (.badRequest "No n2InfoContent")
    let ie ← need content.ie (.badRequest "No ngapIeType")
    let data ← need content.data (.badRequest "No ngapData")
    let (part, _) ← takePart r data.contentId (.badRequest "No N2 SM Content")
    return (.ofIe (some ie), some part)

/-- What a transfer says about a session to the radio network; information has to say something. -/
def sessionInfo (b : TransferBody) : Procedure (Option SessionInfo) :=
  match b.n2 with
  | none => return none
  | some container => return some (← need container.session (.badRequest "No smInfo"))

/-- The transfer that a request asks for. -/
def transferOrder (r : Request) : Procedure Transfer.Order := do
  let b : TransferBody ← parse r "N1N2MessageTransferReqData"
  let ueId ← need ((← context).findUe? ((r.component? 1).getD "")) (.notFound "No UE context")
  let info ← sessionInfo b
  let psi ← need ((b.psi <|> info.map (·.psi)).filter (· ≠ Context.unassignedPsi))
    (.badRequest "No PDU Session Identity")
  let session ← need ((← context).findSession? ueId psi) (.notFound "No PDU Session Context")
  let (n1, r) ← n1Part r b
  let (kind, n2) ← n2Part r info
  return { session, kind, n1, n2, skip := b.skip.getD false, failureUri := b.failureUri }

/-- A request for an N1/N2 message transfer. -/
def transfer (r : Request) : Procedure Response := do
  let outcome ← Transfer.run (← transferOrder r)
  return { Response.ofDocument outcome.status ({ cause := outcome.cause } : TransferAnswer) with
    location := outcome.location }

/-- A request for the context of a UE. -/
def relocation (r : Request) : Procedure Response := do
  let b : RelocationBody ← parse r "UeContextTransferReqData"
  return .ofDocument .ok (← Relocation.request (r.component? 1) b)

/-- A report of the outcome of a relocation. -/
def relocationUpdate (r : Request) : Procedure Response := do
  let b : StatusUpdate ← parse r "UeRegStatusUpdateReqData"
  return .ofDocument .ok (← Relocation.update (r.component? 1) b)

/-- The UE of a permanent identity. -/
def findSupi (supi : Option String) : Procedure Nat := do
  let supi ← need supi (.badRequest "No SUPI")
  need ((← context).findSupi? supi) (.notFound ("Cannot find SUPI [" ++ supi ++ "]"))

/-- The identity of a session in a path. -/
def psiOf? (component : Option String) : Option UInt8 :=
  ((component.bind fun s => Text.readUnsigned? UInt8.size s.toList).map UInt8.ofNat).filter
    (· ≠ Context.unassignedPsi)

/-- A notification of the status of a session. -/
def sessionStatus (r : Request) : Procedure Response := do
  let psi ← need (psiOf? (r.component? 2)) (.badRequest "PDU Session Identity is unassigned")
  let b : SessionStatus ← parse r "SmContextStatusNotification"
  let info ← need b.info (.badRequest "No StatusInfo")
  let ueId ← findSupi (r.component? 0)
  let id ← need ((← context).findSession? ueId psi)
    (.notFound ("Cannot find session [" ++ toString psi.toNat ++ "]"))
  let _ ← Release.input id (.status (some info.status))
  return { status := .noContent }

/-- A notification of the deregistration of a subscriber. -/
def deregistration (r : Request) : Procedure Response := do
  let b : Document.Deregistration ← parse r "DeregistrationData"
  let ueId ← findSupi (r.component? 0)
  let _ ← Deregistration.notify ueId b
  return { status := .noContent }

/-- A notification of changes of subscriber data. -/
def subscriberData (r : Request) : Procedure Response := do
  let b : Modification ← parse r "ModificationNotification"
  let _ ← Subscription.notify b
  return { status := .noContent }

/-- The handlers of the resources under the contexts of UEs, by their names. -/
def communicationResources : List (String × (Request → Procedure Response)) :=
  [(Api.messages, transfer), (Api.transfer, relocation), (Api.transferUpdate, relocationUpdate)]

/-- The handlers of the resources of notifications, by their names. -/
def callbackResources : List (String × (Request → Procedure Response)) :=
  [(Api.sessionStatus, sessionStatus), (Api.deregistration, deregistration),
   (Api.subscriberData, subscriberData)]

/-- The handler of the resource that a component names. -/
def dispatch (resources : List (String × (Request → Procedure Response))) (i : Nat) (r : Request) :
    Procedure Response :=
  match (r.component? i).bind fun name => valueOf name resources with
  | none => throw (invalidResource r i)
  | some handler => do
    requirePost r
    handler r

/-- Carries a request out. -/
def route (r : Request) : Procedure Response :=
  if r.service = Api.communication then
    if r.component? 0 = some Api.ueContexts then dispatch communicationResources 2 r
    else throw (invalidResource r 0)
  else if r.service = Api.callback then dispatch callbackResources 1 r
  else throw (.badRequest ("Invalid API name: " ++ r.service))

/-- What becomes of a request. -/
inductive Reply where
  /-- It is answered. -/
  | answered (r : Response)
  /-- It is broken off at an information element that no procedure handles. -/
  | brokenOff (ie : NgapIe)
  deriving Inhabited

/-- What becomes of a request, and the state after it. -/
def handle (r : Request) (n : Node) : Reply × Node :=
  match (route r).exec n with
  | (.ok response, n') => (.answered response, n')
  | (.error (.unexpectedIe ie), n') => (.brokenOff ie, n')
  | (.error fault, n') => (.answered (.ofFault fault), n')

end Routing
end Amf
