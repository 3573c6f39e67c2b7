import Amf.Context.Leg
import Amf.Context.Parked
import Amf.Context.Session
import Amf.Context.Ue
import Amf.Net.Client
import Amf.Table
import Amf.Timer

/-!
# The context of an AMF

The UEs, legs and sessions, each in a table under numbers that are given in order and never again;
the indices by which UEs are found; the parked transfers; the timers; and the clients.

| operation | effect on other tables |
| --- | --- |
| `removeUe` | its sessions, parked transfer, timers and index entries go; its leg serves nobody |
| `removeLeg` | the UE that it serves is idle, if that UE uses this leg |
| `removeSession` | leaves its UE's list; the UE's parked transfer goes, if it is for this session |
| `associate` | UE and leg point at each other; former partners are left as they are |
| `deassociate` | the UE is idle; its leg serves nobody |
-/

namespace Amf

/-- The context of an AMF. -/
structure Context where
  /-- The identifier that this AMF serves under. -/
  guami : Guami
  /-- The server of this AMF. -/
  origin : Origin
  /-- The transfers that wait for their UE, by UE. -/
  parked : Table Parked := .empty
  /-- The timers. -/
  timers : Timers := {}
  /-- The clients towards peers. -/
  clients : Clients
  /-- The UEs. -/
  ues : Table Ue := .empty
  /-- The legs. -/
  legs : Table Leg := .empty
  /-- The sessions. -/
  sessions : Table Session := .empty
  /-- UEs by permanent identity. -/
  supis : Index := {}
  /-- UEs by the text of their temporary identity. -/
  gutis : Index := {}
  /-- The number of the next UE. -/
  nextUe : Nat := 1
  /-- The number of the next leg. -/
  nextLeg : Nat := 1
  /-- The number of the next session. -/
  nextSession : Nat := 1
  /-- The AMF's identifier of the next leg. -/
  nextAmfId : Nat := 1
  /-- The most UEs. -/
  maxUes : Nat
  /-- The most legs. -/
  maxLegs : Nat
  deriving DecidableEq, Inhabited

namespace Context

/-- The most sessions of a UE. -/
def maxSessions : Nat := 16

/-- The identity that no session has. -/
def unassignedPsi : UInt8 := 0

/-! ## UEs -/

/-- A new UE and its number, unless there is no room. -/
def addUe (c : Context) : Option (Nat × Context) :=
  if c.maxUes ≤ c.ues.size then none
  else some (c.nextUe, { c with ues := c.ues.insert c.nextUe {}, nextUe := c.nextUe + 1 })

/-- The context with a UE changed. -/
def modifyUe (c : Context) (ue : Nat) (f : Ue → Ue) : Context :=
  { c with ues := c.ues.modify ue f }

/-- The context with a leg changed. -/
def modifyLeg (c : Context) (leg : Nat) (f : Leg → Leg) : Context :=
  { c with legs := c.legs.modify leg f }

/-- The context with a session changed. -/
def modifySession (c : Context) (session : Nat) (f : Session → Session) : Context :=
  { c with sessions := c.sessions.modify session f }

/-- An index without the entry of an identity, if there is one. -/
def dropIdentity (index : Index) : Option String → Index
  | some s => index.erase s
  | none => index

/-- The context without a UE and everything that is the UE's. -/
def removeUe (c : Context) (ue : Nat) : Context :=
  match c.ues.get? ue with
  | none => c
  | some u =>
    { c with
      ues := c.ues.erase ue
      supis := dropIdentity c.supis u.supi
      gutis := dropIdentity c.gutis (u.guti.map Guti.ueContextId)
      sessions := u.sessions.foldl Table.erase c.sessions
      legs := match u.leg with
        | some leg => c.legs.modify leg fun l => { l with ue := none }
        | none => c.legs
      parked := c.parked.erase ue
      timers := c.timers.stopAll ue }

/-- The context with the permanent identity of a UE set. -/
def setSupi (c : Context) (ue : Nat) (supi : String) : Context :=
  match c.ues.get? ue with
  | none => c
  | some u =>
    { c with
      ues := c.ues.insert ue { u with supi := some supi }
      supis := (dropIdentity c.supis u.supi).insert supi ue }

/-- The context with the temporary identity of a UE set. -/
def setGuti (c : Context) (ue : Nat) (guti : Guti) : Context :=
  match c.ues.get? ue with
  | none => c
  | some u =>
    { c with
      ues := c.ues.insert ue { u with guti := some guti }
      gutis := (dropIdentity c.gutis (u.guti.map Guti.ueContextId)).insert guti.ueContextId ue }

/-- The UE of a permanent identity. -/
def findSupi? (c : Context) (supi : String) : Option Nat := c.supis.get? supi

/-- The UE of a context identifier: a temporary identity by its beginning, and else a permanent one. -/
def findUe? (c : Context) (id : String) : Option Nat :=
  if Guti.scheme.toList.isPrefixOf id.toList then c.gutis.get? id else c.findSupi? id

/-! ## Legs -/

/-- A new leg and its number, unless there is no room. -/
def addLeg (c : Context) (gnb ranId : UInt64) : Option (Nat × Context) :=
  if c.maxLegs ≤ c.legs.size then none
  else some (c.nextLeg,
    { c with
      legs := c.legs.insert c.nextLeg { ids := ⟨c.nextAmfId, ranId⟩, gnb }
      nextLeg := c.nextLeg + 1
      nextAmfId := c.nextAmfId + 1 })

/-- The context without a leg. -/
def removeLeg (c : Context) (leg : Nat) : Context :=
  match c.legs.get? leg with
  | none => c
  | some l =>
    { c with
      legs := c.legs.erase leg
      ues := match l.ue with
        | some ue => c.ues.modify ue fun u => if u.leg = some leg then { u with leg := none } else u
        | none => c.ues }

/-- The context with a UE on a leg, if both exist. -/
def associate (c : Context) (ue leg : Nat) : Context :=
  if c.ues.contains ue && c.legs.contains leg then
    (c.modifyUe ue fun u => { u with leg := some leg }).modifyLeg leg fun l => { l with ue := some ue }
  else c

/-- The context with a UE on no leg. -/
def deassociate (c : Context) (ue : Nat) : Context :=
  match c.ues.get? ue with
  | none => c
  | some u =>
    { c with
      ues := c.ues.insert ue { u with leg := none }
      legs := match u.leg with
        | some leg => c.legs.modify leg fun l => { l with ue := none }
        | none => c.legs }

/-- The number of the leg of a UE, and the leg. -/
def legOf? (c : Context) (ue : Nat) : Option (Nat × Leg) :=
  ((c.ues.get? ue).bind (·.leg)).bind fun leg => (c.legs.get? leg).map fun l => (leg, l)

/-- Whether a UE has a leg. -/
def connection (c : Context) (ue : Nat) : ConnectionState :=
  if (c.legOf? ue).isSome then .connected else .idle

/-- The keys of the UE can be used, and the first setup of its leg is answered. -/
def established (c : Context) (ue : Nat) : Bool :=
  match c.ues.get? ue with
  | none => false
  | some u => u.securityValid && match c.legOf? ue with
    | some (_, l) => l.setupAnswered
    | none => false

/-- The context without the leg of a UE. -/
def clearConnection (c : Context) (ue : Nat) : Context :=
  match (c.ues.get? ue).bind (·.leg) with
  | none => c
  | some leg => (c.deassociate ue).removeLeg leg

/-! ## Sessions -/

/-- The session of a UE with an identity, the oldest of several. -/
def findSession? (c : Context) (ue : Nat) (psi : UInt8) : Option Nat :=
  (c.ues.get? ue).bind fun u =>
    u.sessions.find? fun s => (c.sessions.get? s).map (·.psi) = some psi

/-- A new session of a UE and its number: the identity has to be assigned and new to the UE, the UE
has to exist, and there has to be room. -/
def addSession (c : Context) (ue : Nat) (psi : UInt8) : Option (Nat × Context) :=
  if psi = unassignedPsi ∨ (c.findSession? ue psi).isSome then none else
    match c.ues.get? ue with
    | none => none
    | some u =>
      if maxSessions ≤ u.sessions.length then none
      else some (c.nextSession,
        { c with
          ues := c.ues.insert ue { u with sessions := u.sessions ++ [c.nextSession] }
          sessions := c.sessions.insert c.nextSession { psi, ue }
          nextSession := c.nextSession + 1 })

/-- Parked transfers without the one of a UE, if it is for the given session. -/
def unpark (parked : Table Parked) (ue session : Nat) : Table Parked :=
  if (parked.get? ue).map (·.session) = some session then parked.erase ue else parked

/-- The context without a session. -/
def removeSession (c : Context) (session : Nat) : Context :=
  match c.sessions.get? session with
  | none => c
  | some s =>
    { c with
      sessions := c.sessions.erase session
      ues := c.ues.modify s.ue fun u => { u with sessions := u.sessions.filter (· ≠ session) }
      parked := unpark c.parked s.ue session }

/-- The sessions of a UE, oldest first. -/
def sessionsOf (c : Context) (ue : Nat) : List Session :=
  match c.ues.get? ue with
  | none => []
  | some u => u.sessions.filterMap c.sessions.get?

end Context
end Amf
