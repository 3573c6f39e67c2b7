import Amf.Json.Document
import Amf.Rat
import Amf.Access
import Amf.Slice

/-!
# Documents of several services

Problem details, slices and bit rates as service bodies hold them.
-/

namespace Amf
namespace Document

/-- Why a request failed, in words. -/
structure Problem where
  /-- The kind of problem. -/
  title : Option String := none
  /-- The status of the response. -/
  status : Option UInt16 := none
  /-- This occurrence of the problem. -/
  detail : Option String := none
  deriving DecidableEq, Inhabited

instance : Document Problem where
  toJson p := record [fieldIf "title" p.title, fieldIf "status" p.status, fieldIf "detail" p.detail]
  ofJson? := ofRecord? do
    return { title := ← optional "title", status := ← optional "status", detail := ← optional "detail" }

/-- A slice, its differentiator in hexadecimal digits. -/
structure SliceBody where
  /-- The slice/service type. -/
  sst : UInt8
  /-- The differentiator. -/
  sd : Option String := none
  deriving DecidableEq, Inhabited

instance : Document SliceBody where
  toJson s := record [field "sst" s.sst, fieldIf "sd" s.sd]
  ofJson? := ofRecord? do
    return { sst := ← required "sst", sd := ← optional "sd" }

/-- A slice as service bodies hold it. -/
def SliceBody.ofSlice (s : Slice) : SliceBody := ⟨s.sst, s.sdText⟩

/-- An aggregate bit rate, each direction in words. -/
structure AmbrBody where
  /-- From the UE to the network. -/
  uplink : Option String := none
  /-- From the network to the UE. -/
  downlink : Option String := none
  deriving DecidableEq, Inhabited

instance : Document AmbrBody where
  toJson a := record [fieldIf "uplink" a.uplink, fieldIf "downlink" a.downlink]
  ofJson? := ofRecord? do
    return { uplink := ← optional "uplink", downlink := ← optional "downlink" }

end Document
end Amf
