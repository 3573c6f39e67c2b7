import Amf.Fault
import Amf.Octets
import Amf.Table
import Amf.Text.Pieces

/-!
# Requests and responses

A request's path names a service, a version and components: `/namf-comm/v1/ue-contexts/imsi-1/transfer`
has the service `namf-comm` and the components `ue-contexts`, `imsi-1` and `transfer`. Empty segments do
not count. The body is JSON, and binary parts go with it by name.
-/

namespace Amf

/-- A request to this AMF. -/
structure Request where
  /-- The method. -/
  method : String
  /-- The service. -/
  service : String
  /-- The components of the path after the version. -/
  components : List String
  /-- The body. -/
  body : Option Json := none
  /-- The binary parts, by content identifier. -/
  parts : List (String × Octets) := []
  deriving Inhabited

namespace Request

/-- A request without body and parts. -/
def ofPath (method path : String) : Request :=
  let segments := Text.words '/' path
  { method, service := segments.head?.getD "", components := segments.drop 2 }

/-- The request with a binary part added or replaced. -/
def withPart (r : Request) (id : String) (part : Octets) : Request :=
  { r with parts := r.parts.filter (·.1 ≠ id) ++ [(id, part)] }

/-- A component of the path, counted from 0. -/
def component? (r : Request) (i : Nat) : Option String := r.components[i]?

/-- A binary part and the request without it. -/
def takePart? (r : Request) (id : String) : Option (Octets × Request) :=
  (valueOf id r.parts).map fun part => (part, { r with parts := r.parts.filter (·.1 ≠ id) })

end Request

/-- A response of this AMF. -/
structure Response where
  /-- The status. -/
  status : Status
  /-- Where the created resource is found. -/
  location : Option String := none
  /-- The body. -/
  body : Option Json := none
  deriving Inhabited

namespace Response

/-- A response with a document for a body. -/
def ofDocument [Document α] (status : Status) (a : α) : Response :=
  { status, body := some (Document.toJson a) }

/-- The response that reports a fault. -/
def ofFault (f : Fault) : Response := ofDocument f.status f.problem

end Response
end Amf
