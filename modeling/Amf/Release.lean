import Amf.Procedure

/-!
# Release of sessions

The UE, the radio network and the session management function confirm the release of a session each on
its own and in any order. The session is removed by the input after which all three have confirmed.
-/

namespace Amf

/-- A confirmation that reaches a session. -/
inductive ReleaseInput where
  /-- The UE confirms the release. -/
  | n1Released
  /-- The radio network confirms the release. -/
  | n2Released
  /-- The session management function reports a status. -/
  | status (s : Option ResourceStatus)
  deriving DecidableEq, Repr, Inhabited

/-- The session after an input. -/
def Session.record (s : Session) : ReleaseInput → Session
  | .n1Released => { s with n1Released := true }
  | .n2Released => { s with n2Released := true }
  | .status status => { s with status }

namespace Release

open Procedure

/-- Records an input, removes the session if the input completes its release, and says whether it
did. -/
def input (id : Nat) (i : ReleaseInput) : Procedure Bool := do
  match (← context).sessions.get? id with
  | none => return false
  | some s =>
    if (s.record i).fullyReleased then
      change fun c => c.removeSession id
      uncount .sessions
      return true
    else
      change fun c => c.modifySession id (·.record i)
      return false

end Release
end Amf
