import Amf.Access
import Amf.Json.Document

/-!
# Documents of notifications

What other network functions report: the status of a session, the deregistration of a subscriber, and
changes of subscriber data.
-/

namespace Amf

/-- The status of a session's resources, as a session management function reports it. -/
inductive ResourceStatus where
  | released | unchanged | transferred | updated | altAnchorSmf
  deriving DecidableEq, Repr, Inhabited

instance : Named ResourceStatus where
  values := [.released, .unchanged, .transferred, .updated, .altAnchorSmf]
  name
    | .released => "RELEASED"
    | .unchanged => "UNCHANGED"
    | .transferred => "TRANSFERRED"
    | .updated => "UPDATED"
    | .altAnchorSmf => "ALT_ANCHOR_SMF"

namespace Document

/-- The status in a session status notification. -/
structure StatusInfo where
  /-- The status. -/
  status : ResourceStatus
  deriving DecidableEq, Inhabited

instance : Document StatusInfo where
  toJson i := record [field "resourceStatus" i.status]
  ofJson? := ofRecord? do
    return { status := ← required "resourceStatus" }

/-- A session status notification (`SmContextStatusNotification`). -/
structure SessionStatus where
  /-- The status. -/
  info : Option StatusInfo
  deriving DecidableEq, Inhabited

instance : Document SessionStatus where
  toJson s := record [fieldOrNull "statusInfo" s.info]
  ofJson? := ofRecord? do
    return { info := ← optional "statusInfo" }

/-- Why a subscriber is deregistered. -/
inductive DeregistrationReason where
  | initialRegistration | registrationAreaChange | subscriptionWithdrawn | mobilityToEps
  | mobilityToEpsInitialRegistration | reregistrationRequired | smfContextTransferred
  deriving DecidableEq, Inhabited

instance : Named DeregistrationReason where
  values :=
    [.initialRegistration, .registrationAreaChange, .subscriptionWithdrawn, .mobilityToEps,
     .mobilityToEpsInitialRegistration, .reregistrationRequired, .smfContextTransferred]
  name
    | .initialRegistration => "UE_INITIAL_REGISTRATION"
    | .registrationAreaChange => "UE_REGISTRATION_AREA_CHANGE"
    | .subscriptionWithdrawn => "SUBSCRIPTION_WITHDRAWN"
    | .mobilityToEps => "5GS_TO_EPS_MOBILITY"
    | .mobilityToEpsInitialRegistration => "5GS_TO_EPS_MOBILITY_UE_INITIAL_REGISTRATION"
    | .reregistrationRequired => "REREGISTRATION_REQUIRED"
    | .smfContextTransferred => "SMF_CONTEXT_TRANSFERRED"

/-- A deregistration notification (`DeregistrationData`). -/
structure Deregistration where
  /-- Why. -/
  reason : Option DeregistrationReason
  /-- From which access. -/
  access : AccessType
  deriving DecidableEq, Inhabited

instance : Document Deregistration where
  toJson d := record [fieldOrNull "deregReason" d.reason, field "accessType" d.access]
  ofJson? := ofRecord? do
    return { reason := ← optional "deregReason", access := ← required "accessType" }

/-- What a change does. -/
inductive ChangeType where
  | add | move | remove | replace
  deriving DecidableEq, Repr, Inhabited

instance : Named ChangeType where
  values := [.add, .move, .remove, .replace]
  name
    | .add => "ADD"
    | .move => "MOVE"
    | .remove => "REMOVE"
    | .replace => "REPLACE"

/-- A change of a document. -/
structure ChangeItem where
  /-- What the change does. -/
  op : ChangeType
  /-- The place that it changes. -/
  path : Option String := none
  /-- The place that a move takes from. -/
  source : Option String := none
  /-- The value before. -/
  oldValue : Option Json := none
  /-- The value after. -/
  newValue : Option Json := none
  deriving Inhabited

instance : Document ChangeItem where
  toJson c := record
    [field "op" c.op, fieldOrNull "path" c.path, fieldIf "from" c.source,
     fieldIf "origValue" c.oldValue, fieldOrNull "newValue" c.newValue]
  ofJson? := ofRecord? do
    return {
      op := ← required "op"
      path := ← optional "path"
      source := ← optional "from"
      oldValue := ← optional "origValue"
      newValue := ← optionalAtEnd "newValue" }

/-- The changes of one resource. -/
structure NotifyItem where
  /-- The resource. -/
  resourceId : String
  /-- Its changes, in order. -/
  changes : List ChangeItem
  deriving Inhabited

instance : Document NotifyItem where
  toJson i := record [field "resourceId" i.resourceId, field "changes" i.changes]
  ofJson? := ofRecord? do
    return { resourceId := ← required "resourceId", changes := ← required "changes" }

/-- A notification of changes (`ModificationNotification`). -/
structure Modification where
  /-- The changed resources, in order. -/
  items : List NotifyItem
  deriving Inhabited

instance : Document Modification where
  toJson m := record [field "notifyItems" m.items]
  ofJson? := ofRecord? do
    return { items := ← required "notifyItems" }

end Document
end Amf
