import Amf.Document.Basic
import Amf.Document.Transfer
import Amf.Net.Origin
import Amf.Text.Pieces

/-!
# Faults

Why a procedure fails, the words for it, and the status of the response that reports it:

| fault | status |
| --- | ---: |
| a request that is malformed, or names no target that can be notified | 400 |
| an unknown UE or session | 404 |
| a method that a resource does not serve | 405 |
| signalling that could not be sent | 500 |

A transfer of an information element that no procedure handles is broken off without a response.
-/

namespace Amf

/-- The statuses of responses. -/
inductive Status where
  | ok | accepted | noContent | badRequest | notFound | methodNotAllowed | internalError
  deriving DecidableEq, Repr, Inhabited

namespace Status

/-- The number of a status. -/
def code : Status → UInt16
  | ok => 200
  | accepted => 202
  | noContent => 204
  | badRequest => 400
  | notFound => 404
  | methodNotAllowed => 405
  | internalError => 500

/-- The words for a status. -/
def reason : Status → String
  | ok => "OK"
  | accepted => "Accepted"
  | noContent => "No Content"
  | badRequest => "Bad Request"
  | notFound => "Not Found"
  | methodNotAllowed => "Method Not Allowed"
  | internalError => "Internal Server Error"

end Status

/-- Why a change of subscriber data cannot be applied. -/
inductive ChangeError where
  /-- The resource names no UE. -/
  | noUe (resource : String)
  /-- No UE has the identity. -/
  | ueNotFound (supi : String)
  /-- The resource has no name after the UE. -/
  | noResourceName (resource : String)
  /-- The resource is not one whose changes are handled. -/
  | unknownResource (name : String)
  /-- The change names no place. -/
  | noPath
  /-- A value is not of the type that its place asks for. -/
  | invalidType (place : String)
  /-- No access technology has the name. -/
  | unknownRat (name : String)
  /-- The list has no such place. -/
  | indexOutOfRange (index : String)
  /-- The text is no bit rate. -/
  | invalidBitrate (text : String)
  deriving DecidableEq, Repr, Inhabited

/-- The error in words. -/
def ChangeError.message : ChangeError → String
  | noUe resource => "[" ++ resource ++ "] No UeId"
  | ueNotFound supi => "Cannot find SUPI [" ++ supi ++ "]"
  | noResourceName resource => "[" ++ resource ++ "] No Resource Name"
  | unknownResource name => "Unknown Resource Name: [" ++ name ++ "]"
  | noPath => "No path in change item"
  | invalidType place => "Invalid type of " ++ place
  | unknownRat name => "Unknown RAT type [" ++ name ++ "]"
  | indexOutOfRange index => "Invalid RAT restriction index [" ++ index ++ "]"
  | invalidBitrate text => "Invalid bitrate [" ++ text ++ "]"

/-- Why signalling could not be sent. -/
inductive SendError where
  /-- The UE has no leg. -/
  | noLeg (ue : Nat)
  /-- The UE or session is gone. -/
  | contextGone (what : String)
  /-- The transport refuses. -/
  | transportClosed (what : String)
  /-- The message cannot be made. -/
  | notBuilt (what : String)
  /-- The request to another network function failed. -/
  | requestFailed (why : String)
  deriving DecidableEq, Repr, Inhabited

/-- The error in words. -/
def SendError.message : SendError → String
  | noLeg ue => "UE [" ++ toString ue ++ "] has no NG signalling connection"
  | contextGone what => what ++ " context already removed"
  | transportClosed what => "transport closed: " ++ what
  | notBuilt what => "Failed to build " ++ what
  | requestFailed why => "SBI request failed: " ++ why

/-- Why a procedure fails. -/
inductive Fault where
  /-- The request is malformed, or asks for what is not allowed. -/
  | badRequest (why : String)
  /-- There is no such UE or session. -/
  | notFound (why : String)
  /-- The resource does not serve the method. -/
  | methodNotAllowed (method : String)
  /-- The target to notify cannot be resolved. -/
  | target (why : TargetError)
  /-- The change of subscriber data cannot be applied. -/
  | change (why : ChangeError)
  /-- The signalling could not be sent. -/
  | send (why : SendError)
  /-- No procedure handles the information element. -/
  | unexpectedIe (ie : Document.NgapIe)
  deriving DecidableEq, Inhabited

namespace Fault

/-- The words of a wire name run together, each with a capital initial. -/
def runTogether (name : String) : String :=
  let capitalise : List Char → List Char
    | [] => []
    | c :: cs => c.toUpper :: cs.map Char.toLower
  String.ofList ((Text.pieces '_' name.toList).flatMap capitalise)

/-- The fault in words. -/
def message : Fault → String
  | badRequest why => why
  | notFound why => why
  | methodNotAllowed method => "Invalid HTTP method [" ++ method ++ "]"
  | target why => why.message
  | change why => why.message
  | send why => why.message
  | unexpectedIe ie => 
    "unexpected NGAP IE type " ++ runTogether (Named.name ie) ++ " in N1N2MessageTransfer"

/-- The status of the response that reports a fault. -/
def status : Fault → Status
  | badRequest _ => .badRequest
  | notFound _ => .notFound
  | methodNotAllowed _ => .methodNotAllowed
  | target _ => .badRequest
  | change (.ueNotFound _) => .notFound
  | change _ => .badRequest
  | send _ => .internalError
  | unexpectedIe _ => .internalError

/-- The body of the response that reports a fault. -/
def problem (f : Fault) : Document.Problem :=
  { title := some f.status.reason, status := some f.status.code, detail := some f.message }

end Fault
end Amf
