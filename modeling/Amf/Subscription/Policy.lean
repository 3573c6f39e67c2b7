import Amf.Bitrate
import Amf.Document.Notification
import Amf.Fault
import Amf.Rat
import Amf.Text.Numeral

/-!
# The access and mobility policy of a subscriber

Two fields of the subscriber data are kept: the access technologies that are restricted, and the
aggregate bit rate. A change names a place of the document:

| place | add, replace | remove |
| --- | --- | --- |
| the whole document | both fields, as far as it has them | no restrictions |
| `/ratRestrictions` | the list | no restrictions |
| `/ratRestrictions/i` | an item, by insertion or replacement | without the item |
| `/subscribedUeAmbr` | both directions | both unlimited |
| `/subscribedUeAmbr/uplink`, `…/downlink` | one direction | one unlimited |

Every other place, and every move, leaves the policy as it is. The restrictions are changed before the
bit rate, and stay changed when the bit rate cannot be.
-/

namespace Amf
namespace Subscription

open Text

/-- The policy of a subscriber. -/
structure Policy where
  /-- The restricted access technologies. -/
  restrictions : List RatType := []
  /-- The aggregate bit rate. -/
  ambr : Ambr := {}
  /-- The bit rate was changed. -/
  ambrChanged : Bool := false
  deriving DecidableEq, Repr, Inhabited

/-- A change of a policy, or an error; what was changed before the error stays changed. -/
abbrev Update := ExceptT ChangeError (StateM Policy) Unit

/-- The policy after a change and the error, if there was one. -/
def Update.exec (u : Update) (p : Policy) : Except ChangeError Unit × Policy := u.run.run p

/-- The places of the document that are kept. -/
inductive Place where
  /-- The whole document. -/
  | document
  /-- The list of restrictions. -/
  | restrictions
  /-- An item of the list of restrictions. -/
  | restriction (index : String)
  /-- The aggregate bit rate. -/
  | ambr
  /-- Its direction to the network. -/
  | uplink
  /-- Its direction to the UE. -/
  | downlink
  /-- Any other place. -/
  | other
  deriving DecidableEq, Repr, Inhabited

/-- What the place of every restriction begins with. -/
def restrictionPrefix : List Char := "/ratRestrictions/".toList

/-- The place that a path names. -/
def Place.ofPath (path : String) : Place :=
  if path = "" then document
  else if path = "/ratRestrictions" then restrictions
  else if path = "/subscribedUeAmbr" then ambr
  else if path = "/subscribedUeAmbr/uplink" then uplink
  else if path = "/subscribedUeAmbr/downlink" then downlink
  else if restrictionPrefix.isPrefixOf path.toList then
    restriction (String.ofList (path.toList.drop restrictionPrefix.length))
  else other

/-- The access technology of a value. -/
def rat? : Json → Except ChangeError RatType
  | .str name =>
    match Named.ofName? name with
    | some rat => .ok rat
    | none => .error (.unknownRat name)
  | _ => .error (.invalidType "ratRestrictions")

/-- The access technologies of a list. -/
def rats? : Json → Except ChangeError (List RatType)
  | .arr items => items.mapM rat?
  | _ => .error (.invalidType "ratRestrictions")

/-- The position that an index names in a list of a length; `-` names its end. -/
def position? (index : String) (length : Nat) : Except ChangeError Nat :=
  if index = "-" then .ok length
  else match readUnsigned? UInt64.size index.toList with
    | some i => .ok i
    | none => .error (.indexOutOfRange index)

/-- A list with an item added at a position, or replaced where `replace` and there is one. -/
def putAt? (replace : Bool) (index : String) (rat : RatType) (rats : List RatType) :
    Except ChangeError (List RatType) := do
  let i ← position? index rats.length
  if replace && i < rats.length then return rats.set i rat
  else if i ≤ rats.length then return rats.insertIdx i rat
  else throw (.indexOutOfRange index)

/-- A list without the item at a position. -/
def removeAt? (index : String) (rats : List RatType) : Except ChangeError (List RatType) := do
  let i ← position? index rats.length
  if i < rats.length then return rats.eraseIdx i
  else throw (.indexOutOfRange index)

/-- The restrictions after a value is added at a place, or put in place of what is there. -/
def restrictionsPut? (replace : Bool) (place : Place) (value : Option Json) (rats : List RatType) :
    Except ChangeError (List RatType) :=
  match place with
  | .document =>
    match value.bind (·.get? "ratRestrictions") with
    | some list => rats? list
    | none => .ok rats
  | .restrictions => rats? (value.getD .null)
  | .restriction index => do putAt? replace index (← rat? (value.getD .null)) rats
  | _ => .ok rats

/-- The restrictions after what is at a place is removed. -/
def restrictionsRemove? (place : Place) (rats : List RatType) : Except ChangeError (List RatType) :=
  match place with
  | .document | .restrictions => .ok []
  | .restriction index => removeAt? index rats
  | _ => .ok rats

/-- The bit rate of a value. -/
def rate? : Option Json → Except ChangeError UInt64
  | some (.str text) =>
    match Bitrate.ofText? text with
    | some rate => .ok rate
    | none => .error (.invalidBitrate text)
  | _ => .error (.invalidType "subscribedUeAmbr")

/-- The aggregate bit rate of a value; none means that both directions are unlimited. -/
def ambr? : Option Json → Except ChangeError Ambr
  | none | some .null => .ok {}
  | some (.obj members) => do
    let uplink ← rate? (Json.get? "uplink" (.obj members))
    let downlink ← rate? (Json.get? "downlink" (.obj members))
    return { downlink, uplink }
  | some _ => .error (.invalidType "subscribedUeAmbr")

/-- The bit rate after a value is put at a place, if that is a place of the bit rate. -/
def ambrPut? (place : Place) (value : Option Json) (a : Ambr) :
    Except ChangeError (Option Ambr) :=
  match place with
  | .document => (ambr? (value.bind (·.get? "subscribedUeAmbr"))).map some
  | .ambr => (ambr? value).map some
  | .uplink => (rate? value).map fun r => some { a with uplink := r }
  | .downlink => (rate? value).map fun r => some { a with downlink := r }
  | _ => .ok none

/-- The bit rate after what is at a place is removed, if that is a place of the bit rate. -/
def ambrRemove (place : Place) (a : Ambr) : Option Ambr :=
  match place with
  | .ambr => some {}
  | .uplink => some { a with uplink := 0 }
  | .downlink => some { a with downlink := 0 }
  | _ => none

/-- The restrictions after a change. -/
def restrictionsAfter? (op : Document.ChangeType) (place : Place) (value : Option Json)
    (rats : List RatType) : Except ChangeError (List RatType) :=
  match op with
  | .add => restrictionsPut? false place value rats
  | .replace => restrictionsPut? true place value rats
  | .remove => restrictionsRemove? place rats
  | .move => .ok rats

/-- The bit rate after a change, if the change is one of the bit rate. -/
def ambrAfter? (op : Document.ChangeType) (place : Place) (value : Option Json) (a : Ambr) :
    Except ChangeError (Option Ambr) :=
  match op with
  | .add | .replace => ambrPut? place value a
  | .remove => .ok (ambrRemove place a)
  | .move => .ok none

/-- A whole document has to be an object where it is added or replaced. -/
def checkDocument (op : Document.ChangeType) (place : Place) (value : Option Json) :
    Except ChangeError Unit :=
  match op, place, value with
  | .add, .document, some (.obj _) | .replace, .document, some (.obj _) => .ok ()
  | .add, .document, _ | .replace, .document, _ => .error (.invalidType "am-data")
  | _, _, _ => .ok ()

/-- Applies a change: first to the restrictions, then to the bit rate. -/
def apply (item : Document.ChangeItem) : Update := do
  match item.path with
  | none => throw .noPath
  | some path =>
    let place := Place.ofPath path
    checkDocument item.op place item.newValue
    let restrictions ← restrictionsAfter? item.op place item.newValue (← get).restrictions
    modify fun p => { p with restrictions }
    match ← ambrAfter? item.op place item.newValue (← get).ambr with
    | none => return ()
    | some ambr => modify fun p => { p with ambr, ambrChanged := true }

/-- The policy after changes, in order; the first error ends them. -/
def applyAll? (items : List Document.ChangeItem) (p : Policy) : Except ChangeError Policy :=
  items.foldlM (fun p item =>
    match (apply item).exec p with
    | (.ok (), p') => .ok p'
    | (.error e, _) => .error e) p

end Subscription
end Amf
