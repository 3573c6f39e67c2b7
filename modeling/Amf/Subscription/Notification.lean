import Amf.Api
import Amf.Deregistration
import Amf.Subscription.Policy
import Amf.Text.Pieces

/-!
# Notifications of changes of subscriber data

A notification lists changed resources, `{supi}/am-data`, each with its changes. All changes are applied
to copies of the policies first; nothing is committed unless every change applies. Then every UE that
was named gets its new policy, and for every one of them the network acts:

| UE | action |
| --- | --- |
| without a leg | marked for implicit deregistration |
| on an access technology that is restricted now | asked to deregister and register again |
| with a changed bit rate | the radio network is told |
| any other | none |

The first action that fails is reported, after all of them were taken.
-/

namespace Amf
namespace Subscription

open Procedure

/-- What the network does for a UE whose policy has changed. -/
inductive Action where
  | implicitDeregistration | explicitDeregistration | contextModification | nothing
  deriving DecidableEq, Repr, Inhabited

/-- The policies of the UEs that a notification has named, in the order in which it named them. -/
abbrev Working := List (Nat × Policy)

/-- The policy of a UE that the context holds. -/
def policyOf (u : Ue) : Policy := { restrictions := u.restrictions, ambr := u.ambr }

/-- The UE whose access and mobility data a resource is. -/
def resourceUe? (c : Context) (resource : String) : Except ChangeError (String × Nat) :=
  match Text.words '/' resource with
  | [] => .error (.noUe resource)
  | supi :: rest =>
    match c.findSupi? supi with
    | none => .error (.ueNotFound supi)
    | some ue =>
      match rest with
      | [] => .error (.noResourceName resource)
      | name :: _ => if name = Api.accessData then .ok (supi, ue) else .error (.unknownResource name)

/-- The policy of a UE: the working one, or else the one that the context holds. -/
def current? (c : Context) (w : Working) (supi : String) (ue : Nat) : Except ChangeError Policy :=
  match valueOf ue w with
  | some p => .ok p
  | none =>
    match c.ues.get? ue with
    | some u => .ok (policyOf u)
    | none => .error (.ueNotFound supi)

/-- Working policies with the one of a UE put in its place, or at the end. -/
def put (ue : Nat) (p : Policy) : Working → Working
  | [] => [(ue, p)]
  | e :: r => if e.1 = ue then (ue, p) :: r else e :: put ue p r

/-- Working policies after one more item of a notification. -/
def applyItem? (c : Context) (w : Working) (item : Document.NotifyItem) :
    Except ChangeError Working := do
  let (supi, ue) ← resourceUe? c item.resourceId
  let p ← current? c w supi ue
  return put ue (← applyAll? item.changes p) w

/-- The policies that a notification asks for. -/
def working? (c : Context) (m : Document.Modification) : Except ChangeError Working :=
  m.items.foldlM (applyItem? c) []

/-- The context with the working policies committed. -/
def commit (c : Context) (w : Working) : Context :=
  w.foldl (fun c e => c.modifyUe e.1 fun u =>
    { u with restrictions := e.2.restrictions, ambr := e.2.ambr }) c

/-- Acts for a UE whose policy was committed. -/
def follow (ueId : Nat) (ambrChanged : Bool) : Procedure Action := do
  let c ← context
  let u ← need (c.ues.get? ueId) (.notFound "No UE Context")
  match c.legOf? ueId with
  | none =>
    change fun c => c.modifyUe ueId fun u => { u with deregistration := some .implicitIncomplete }
    return .implicitDeregistration
  | some (_, leg) =>
    if leg.rat ∈ u.restrictions then
      Delivery.deregister ueId true none
      Deregistration.mark ueId .explicit
      return .explicitDeregistration
    else if ambrChanged then
      emitOn leg ((Ngap.Request.contextModification u.ambr u.restrictions).octets leg.ids)
      return .contextModification
    else return .nothing

/-- Acts for every UE in order, also after one has failed. -/
def followAll : Working → Procedure (List (Nat × Except Fault Action))
  | [] => return []
  | (ue, p) :: rest => do
    let outcome ← observe (follow ue p.ambrChanged)
    return (ue, outcome) :: (← followAll rest)

/-- The actions taken, or the first failure of one. -/
def actions? (outcomes : List (Nat × Except Fault Action)) : Except Fault (List (Nat × Action)) :=
  outcomes.mapM fun (ue, outcome) => outcome.map fun action => (ue, action)

/-- A notification of changes. -/
def notify (m : Document.Modification) : Procedure (List (Nat × Action)) := do
  match working? (← context) m with
  | .error e => throw (.change e)
  | .ok w =>
    change fun c => commit c w
    match actions? (← followAll w) with
    | .ok actions => return actions
    | .error fault => throw fault

end Subscription
end Amf
