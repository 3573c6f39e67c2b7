import Amf.Net.Origin

/-!
# Clients

The clients towards the peers that this AMF notifies, one for each origin, up to a capacity. Each
client gets a number of its own, and a number that is used up is not given again.
-/

namespace Amf

/-- A client towards a peer. -/
structure Client where
  /-- Its number. -/
  id : Nat
  /-- The peer. -/
  origin : Origin
  /-- The peer's address, when its host is a literal one. -/
  address : Option Address
  deriving DecidableEq, Repr, Inhabited

/-- The clients in use. -/
structure Clients where
  /-- The clients, oldest first. -/
  entries : List Client := []
  /-- The most clients at a time. -/
  capacity : Nat
  /-- The number of the next client. -/
  nextId : Nat := 1
  deriving DecidableEq, Repr, Inhabited

namespace Clients

/-- The number of clients. -/
def size (cs : Clients) : Nat := cs.entries.length

/-- The client towards an origin. -/
def find? (cs : Clients) (origin : Origin) : Option Client :=
  cs.entries.find? (·.origin = origin)

/-- The client towards an origin after one was asked for: the one in use, or a new one. There has to
be room for one more in either case, and either uses up a number. -/
def add (cs : Clients) (origin : Origin) : Except TargetError (Client × Clients) :=
  if cs.capacity ≤ cs.size then .error (.clientLimit cs.capacity) else
    let next := { cs with nextId := cs.nextId + 1 }
    match cs.find? origin with
    | some client => .ok (client, next)
    | none =>
      let client : Client := ⟨cs.nextId, origin, Address.ofLiteral? origin.host⟩
      .ok (client, { next with entries := cs.entries ++ [client] })

/-- The clients with one towards an origin among them, and whether it is new. -/
def ensure (cs : Clients) (origin : Origin) : Except TargetError (Clients × Bool) :=
  match cs.find? origin with
  | some _ => .ok (cs, false)
  | none => (cs.add origin).map fun r => (r.2, true)

/-- The origin of a URI, and the clients with one towards it among them. -/
def ensureUri (cs : Clients) (uri : String) : Except TargetError (Origin × Clients) :=
  match Origin.ofUri? uri with
  | .error e => .error e
  | .ok origin => (cs.ensure origin).map fun r => (origin, r.1)

/-- The clients without the one towards an origin. -/
def erase (cs : Clients) (origin : Origin) : Clients :=
  { cs with entries := cs.entries.filter (·.origin ≠ origin) }

end Clients
end Amf
