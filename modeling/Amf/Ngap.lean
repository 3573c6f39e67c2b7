import Amf.Bitrate
import Amf.Identity
import Amf.Octets
import Amf.Rat
import Amf.Slice

/-!
# Messages to the radio network

Every message opens with its procedure code in two octets and its criticality in one; a message about
the connection of a UE goes on with the UE's two identifiers, eight octets each.

| message | code | criticality | content |
| --- | ---: | --- | --- |
| downlink NAS transport | 4 | ignore | NAS |
| initial context setup | 14 | reject | GUAMI, AMBR, slices, capability, number of sessions, session |
| paging | 24 | ignore | set, pointer, TMSI, PLMN, tracking area code |
| resource modify | 26 | reject | PSI, NAS, N2 |
| resource release | 28 | reject | PSI, optional NAS, N2 |
| resource setup | 29 | reject | session |
| context modification | 40 | reject | optional AMBR, restrictions |

NAS, N2 and names carry their length in two octets, lists and capabilities their length in one. An
optional field is preceded by an octet 1, or is an octet 0.
-/

namespace Amf
namespace Ngap

open Octets

/-- The identifiers of a UE's connection at its two ends. -/
structure UeIds where
  /-- The identifier that the AMF gave, 64 bits on the wire. -/
  amf : Nat
  /-- The identifier that the radio network gave. -/
  ran : UInt64
  deriving DecidableEq, Repr, Inhabited

/-- A PDU session to be set up. -/
structure SetupItem where
  /-- The PDU session. -/
  psi : UInt8
  /-- Its slice. -/
  slice : Slice
  /-- The message to the UE. -/
  nas : Option Octets
  /-- The information for the radio network. -/
  n2 : Octets
  deriving DecidableEq, Repr, Inhabited

/-- A message about the connection of a UE. -/
inductive Request where
  /-- A NAS message to pass on to the UE. -/
  | downlinkNas (nas : Octets)
  /-- The first setup on a connection: the UE's context and a PDU session. -/
  | initialContextSetup (guami : Guami) (ambr : Ambr) (allowed : List Slice) (capability : Octets)
      (item : SetupItem)
  /-- A PDU session to be modified. -/
  | resourceModify (psi : UInt8) (nas n2 : Octets)
  /-- A PDU session to be released. -/
  | resourceRelease (psi : UInt8) (nas : Option Octets) (n2 : Octets)
  /-- A PDU session to be set up. -/
  | resourceSetup (item : SetupItem)
  /-- New limits of the UE; an AMBR of 0 in both directions is left out. -/
  | contextModification (ambr : Ambr) (restrictions : List RatType)
  deriving DecidableEq, Repr, Inhabited

/-- What a UE is paged with: its temporary identifier and its last tracking area. -/
structure Paging where
  /-- The temporary identifier. -/
  guti : Guti
  /-- The tracking area. -/
  tai : Tai
  deriving DecidableEq, Repr, Inhabited

/-- Two digits in one octet, the first in the low half. -/
def digitPair (low high : Nat) : UInt8 := UInt8.ofNat (high * 16 + low)

/-- A PLMN in three octets; the half octet of an absent digit is filled with ones. -/
def plmnOctets (p : Plmn) : Octets :=
  [digitPair p.mcc1 p.mcc2,
   digitPair p.mcc3 (match p.mnc3 with
     | some d => d
     | none => 15),
   digitPair p.mnc1 p.mnc2]

/-- A slice: its type, then its optional differentiator. -/
def sliceOctets (s : Slice) : Octets :=
  [s.sst] ++ match s.sd with
    | some sd => 1 :: word 3 sd.toNat
    | none => [0]

/-- Octets that may be absent. -/
def optionalOctets : Option Octets → Octets
  | some xs => 1 :: counted 2 xs
  | none => [0]

/-- The two directions of an aggregate bit rate. -/
def ambrOctets (a : Ambr) : Octets := word 8 a.downlink.toNat ++ word 8 a.uplink.toNat

/-- A session to be set up. -/
def SetupItem.octets (i : SetupItem) : Octets :=
  [i.psi] ++ sliceOctets i.slice ++ optionalOctets i.nas ++ counted 2 i.n2

namespace Request

/-- The procedure code of a message. -/
def procedure : Request → Nat
  | downlinkNas .. => 4
  | initialContextSetup .. => 14
  | resourceModify .. => 26
  | resourceRelease .. => 28
  | resourceSetup .. => 29
  | contextModification .. => 40

/-- The criticality of a message: 0 for "reject", 1 for "ignore". -/
def criticality : Request → UInt8
  | downlinkNas .. => 1
  | _ => 0

/-- What follows the identifiers of the UE. -/
def content : Request → Octets
  | downlinkNas nas => counted 2 nas
  | initialContextSetup guami ambr allowed capability item =>
    plmnOctets guami.plmn ++ [guami.amf.region] ++ word 2 guami.amf.set.toNat ++
      [guami.amf.pointer] ++ ambrOctets ambr ++ word 1 allowed.length ++
      allowed.flatMap sliceOctets ++ counted 1 capability ++ [1] ++ item.octets
  | resourceModify psi nas n2 => [psi] ++ counted 2 nas ++ counted 2 n2
  | resourceRelease psi nas n2 => [psi] ++ optionalOctets nas ++ counted 2 n2
  | resourceSetup item => item.octets
  | contextModification ambr restrictions =>
    (if ambr.downlink = 0 ∧ ambr.uplink = 0 then [0] else 1 :: ambrOctets ambr) ++
      word 1 restrictions.length ++
      restrictions.flatMap fun rat => counted 2 (ofAscii (Named.name rat))

/-- The octets of a message about the connection with the given identifiers. -/
def octets (ids : UeIds) (r : Request) : Octets :=
  word 2 r.procedure ++ [r.criticality] ++ word 8 ids.amf ++ word 8 ids.ran.toNat ++ r.content

end Request

/-- The octets of a paging message. -/
def Paging.octets (p : Paging) : Octets :=
  word 2 24 ++ [1] ++ word 2 p.guti.amf.set.toNat ++ [p.guti.amf.pointer] ++
    word 4 p.guti.tmsi.toNat ++ plmnOctets p.tai.plmn ++ word 3 p.tai.tac.toNat

end Ngap
end Amf
