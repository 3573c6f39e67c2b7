import Amf.Paging

/-!
# N1/N2 message transfers

A session management function hands over a message to a UE (N1) and information to the radio network
(N2) for a session. What the information is selects the procedure, and the UE's connection selects
what becomes of it:

| procedure | idle | connected, not established | established |
| --- | --- | --- | --- |
| setup | paging, with a failure URI | delivery | delivery |
| modification | paging | held back | delivery |
| release | paging, or skipped | held back | delivery |
| reject | the session is removed | delivery and removal | delivery and removal |
-/

namespace Amf
namespace Transfer

open Procedure Document

/-- The procedure that a transfer asks for. -/
inductive Kind where
  | setup | modification | release
  /-- No information to the radio network: the session is rejected. -/
  | reject
  /-- Information that no procedure handles. -/
  | other (ie : NgapIe)
  deriving DecidableEq, Inhabited

/-- The procedure for some information to the radio network, or for none. -/
def Kind.ofIe : Option NgapIe → Kind
  | none => reject
  | some .setupRequest => setup
  | some .modifyRequest => modification
  | some .releaseCommand => release
  | some ie => other ie

/-- The name of a procedure. -/
def Kind.name : Kind → String
  | setup => "PDU_RES_SETUP_REQ"
  | modification => "PDU_RES_MOD_REQ"
  | release => "PDU_RES_REL_CMD"
  | reject => "N1_ONLY"
  | other _ => "UNRECOGNIZED"

/-- A transfer that is asked for. -/
structure Order where
  /-- The session. -/
  session : Nat
  /-- The procedure. -/
  kind : Kind
  /-- The message to the UE. -/
  n1 : Option Octets
  /-- The information to the radio network. -/
  n2 : Option Octets
  /-- The message need not reach a UE that is idle. -/
  skip : Bool
  /-- Where to report that the UE could not be reached. -/
  failureUri : Option String
  deriving DecidableEq, Inhabited

/-- What became of a transfer. -/
structure Outcome where
  /-- The status of the response. -/
  status : Status
  /-- What became of the transfer, in the response's body. -/
  cause : TransferCause
  /-- Where the transfer is found, when the UE is paged for it. -/
  location : Option String
  deriving DecidableEq, Inhabited

/-- The transfer is on its way. -/
def Outcome.initiated : Outcome := ⟨.ok, .transferInitiated, none⟩

/-- The message is not passed on. -/
def Outcome.skipped : Outcome := ⟨.ok, .n1NotTransferred, none⟩

/-- The UE is paged. -/
def Outcome.paging (location : String) : Outcome := ⟨.accepted, .attemptingToReachUe, some location⟩

/-- The message to the UE, which has to be there. -/
def Order.needN1 (o : Order) : Procedure Octets := need o.n1 (.badRequest "No N1 SM Content")

/-- The information to the radio network, which has to be there. -/
def Order.needN2 (o : Order) : Procedure Octets := need o.n2 (.badRequest "No N2 SM Content")

/-- Parks a payload and pages the UE. -/
def park (o : Order) (payload : Payload) : Procedure Outcome :=
  return .paging (← Paging.start o.session payload o.failureUri)

/-- Sets the session up. -/
def setup (o : Order) (s : Session) : Procedure Outcome := do
  let n2 ← o.needN2
  let nas := o.n1.map (Nas.wrapSession s.psi)
  match (← context).connection s.ue with
  | .connected =>
    Delivery.setup o.session nas n2
    return .initiated
  | .idle =>
    let _ ← need o.failureUri (.badRequest "No n1n2FailureTxfNotifURI")
    park o (.setup nas n2)

/-- Modifies the session. -/
def modification (o : Order) (s : Session) : Procedure Outcome := do
  let n1 ← o.needN1
  let n2 ← o.needN2
  match (← context).connection s.ue with
  | .connected =>
    Delivery.commandOrHold s.ue o.session ⟨.modification, some n1, n2⟩
    return .initiated
  | .idle => park o (.modify n1 n2)

/-- Releases the session. -/
def release (o : Order) (s : Session) : Procedure Outcome := do
  let n2 ← o.needN2
  match (← context).connection s.ue with
  | .connected =>
    Delivery.commandOrHold s.ue o.session ⟨.release, o.n1, n2⟩
    return .initiated
  | .idle =>
    if o.skip then return .skipped
    else park o (.release o.n1 n2)

/-- Rejects the session: the UE is told if it has a leg, and the session is removed. -/
def reject (o : Order) : Procedure Outcome := do
  let n1 ← o.needN1
  let _ ← Delivery.reject o.session n1
  change fun c => c.removeSession o.session
  uncount .sessions
  return .initiated

/-- Carries a transfer out. -/
def run (o : Order) : Procedure Outcome := do
  let s ← need ((← context).sessions.get? o.session) (.notFound "No Session Context")
  let _ ← need ((← context).ues.get? s.ue) (.notFound "No UE Context")
  match o.kind with
  | .setup => setup o s
  | .modification => modification o s
  | .release => release o s
  | .reject => reject o
  | .other ie => throw (.unexpectedIe ie)

end Transfer
end Amf
