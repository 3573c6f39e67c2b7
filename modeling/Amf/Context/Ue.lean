import Amf.Access
import Amf.Bitrate
import Amf.Identity
import Amf.Rat
import Amf.Security
import Amf.Slice

/-!
# UEs

What this AMF knows about a registered UE: its identities, its security, what its subscriber may do,
and which connection and sessions it has.
-/

namespace Amf

/-- How far the network has gone in deregistering a UE. -/
inductive DeregistrationState where
  /-- The UE was asked to deregister. -/
  | explicit
  /-- The UE could not be reached, and its sessions are not cleaned up yet. -/
  | implicitIncomplete
  deriving DecidableEq, Repr, Inhabited

/-- A registered UE. -/
structure Ue where
  /-- The permanent identity of the subscriber. -/
  supi : Option String := none
  /-- The identity of the equipment. -/
  pei : Option String := none
  /-- The temporary identity in use. -/
  guti : Option Guti := none
  /-- The last tracking area. -/
  tai : Tai := {}
  /-- The access of the registration. -/
  access : AccessType := .threeGpp
  /-- The result of the last authentication. -/
  authResult : AuthResult := .failure
  /-- There is a security context. -/
  securityContext : Bool := false
  /-- The key set of the security context. -/
  keySet : KeySet := {}
  /-- The AMF key. -/
  kamf : Vector UInt8 32 := .replicate 32 0
  /-- The count of messages to the UE. -/
  downlinkCount : UInt32 := 0
  /-- The count of messages from the UE. -/
  uplinkCount : UInt32 := 0
  /-- The number of the ciphering algorithm, 0 for none. -/
  ciphering : UInt8 := 0
  /-- The number of the integrity algorithm, 0 for none. -/
  integrity : UInt8 := 0
  /-- The security capability that the UE reported. -/
  capability : SecurityCapability := {}
  /-- The mobility management capability that the UE reported. -/
  mmCapability : MmCapability := {}
  /-- The slices that the UE may use. -/
  allowed : List AllowedSlice := []
  /-- The subscribed aggregate bit rate. -/
  ambr : Ambr := {}
  /-- The access technologies that the subscription forbids. -/
  restrictions : List RatType := []
  /-- The association with the policy control function. -/
  policyId : Option String := none
  /-- The policy control function that serves the UE. -/
  pcfId : Option String := none
  /-- The subscription to changes of the subscriber data. -/
  subscriptionId : Option String := none
  /-- The deregistration that the network has begun. -/
  deregistration : Option DeregistrationState := none
  /-- The paging message to repeat. -/
  pagingMessage : Option Octets := none
  /-- The deregistration request to repeat. -/
  deregistrationMessage : Option Octets := none
  /-- The connection to the radio network. -/
  leg : Option Nat := none
  /-- The sessions, oldest first. -/
  sessions : List Nat := []
  deriving DecidableEq, Inhabited

namespace Ue

/-- The name by which a UE is spoken of: its permanent identity, if it is known. -/
def name (u : Ue) : String := u.supi.getD "Unknown"

/-- The keys of the UE can be used. -/
def securityValid (u : Ue) : Bool := u.securityContext && u.keySet.ksi ≠ KeySet.noKey

end Ue
end Amf
