import Amf.Document.Catalogue
import Amf.Document.Notification
import Amf.Document.Relocation
import Amf.Document.Transfer

/-!
# Documents read back

The bodies of requests and of responses are JSON values. A document is read from the value that it is
written as, and is what it was (`Document.read_back`): whatever is absent from it, however long its lists
are and whatever its texts say. A record is read field by field (`Reads`), each from what the members of
the record say under its name (`said`):

| written by | what is said | read by |
| --- | --- | --- |
| `field` | the value | `required` |
| `fieldIf` | the value, or nothing | `optional` |
| `fieldOrNull` | the value, or null | `optional`, `optionalAtEnd` |
| `fieldIfAny` | the list, or nothing when it is empty | `withDefault` |

No document is written as null (`Lossless.ne_null`), so that null stands for an absent value. The one
field that holds any JSON value can hold null itself, which is then read as absent
(`ChangeItem.withoutNulls`).
-/

namespace Amf
namespace Document

variable {α β : Type}

/-- The values of a document type are read from what they are written as, which is never null. -/
class Lossless (α : Type) [Document α] : Prop where
  /-- A value is read from what it is written as. -/
  read_write (a : α) : ofJson? (toJson a) = some a
  /-- No value is written as null. -/
  ne_null (a : α) : toJson a ≠ .null := by intro _ is; cases is

attribute [simp] Lossless.read_write

/-- Values that are written alike are the same. -/
theorem toJson_inj [Document α] [Lossless α] {a b : α} : toJson a = toJson b ↔ a = b := by
  refine ⟨fun same => ?_, congrArg toJson⟩
  have read := Lossless.read_write a
  rw [same, Lossless.read_write b] at read
  exact (Option.some.inj read).symm

/-! ## Values -/

instance : Lossless String where
  read_write _ := rfl

instance : Lossless Bool where
  read_write _ := rfl

instance : Lossless UInt8 where
  read_write := Json.asUInt8?_ofNat

instance : Lossless UInt16 where
  read_write := Json.asUInt16?_ofNat

instance : Lossless UInt32 where
  read_write := Json.asUInt32?_ofNat

/-- A list is read item by item. -/
theorem ofJson?_toJson_list [Document α] {f : α → α}
    (items : ∀ a, ofJson? (toJson a) = some (f a)) (xs : List α) :
    ofJson? (toJson xs) = some (xs.map f) := by
  show (xs.map toJson).mapM ofJson? = _
  induction xs with
  | nil => rfl
  | cons x xs ih => simp [items, ih]

instance [Document α] [Lossless α] : Lossless (List α) where
  read_write xs := by simpa using ofJson?_toJson_list Lossless.read_write xs

theorem lossless_of_ofName? [Named α] (names : ∀ a : α, Named.ofName? (Named.name a) = some a) :
    Lossless α where
  read_write := names

instance : Lossless AccessType := lossless_of_ofName? AccessType.ofName?_name

instance : Lossless N1Class := lossless_of_ofName? fun a => by cases a <;> decide

instance : Lossless N2Class := lossless_of_ofName? fun a => by cases a <;> decide

instance : Lossless NgapIe := lossless_of_ofName? fun a => by cases a <;> decide

instance : Lossless TransferCause := lossless_of_ofName? fun a => by cases a <;> decide

instance : Lossless RelocationReason := lossless_of_ofName? fun a => by cases a <;> decide

instance : Lossless SecurityOrigin := lossless_of_ofName? fun a => by cases a <;> decide

instance : Lossless KeyKind := lossless_of_ofName? fun a => by cases a <;> decide

instance : Lossless RelocationStatus := lossless_of_ofName? fun a => by cases a <;> decide

instance : Lossless ResourceStatus := lossless_of_ofName? fun a => by cases a <;> decide

instance : Lossless DeregistrationReason := lossless_of_ofName? fun a => by cases a <;> decide

instance : Lossless ChangeType := lossless_of_ofName? fun a => by cases a <;> decide

/-! ## What the members of a record say -/

/-- What the members of a record say under a name, unless it is left out. -/
def said (name : String) (members : List Member) : Option Json :=
  (members.filterMap id).lookup name

section said
variable {name other : String} {members : List Member}

@[simp] theorem said_nil : said name [] = none := rfl

@[simp] theorem said_cons_some {j : Json} : said name (some (other, j) :: members) =
    if name = other then some j else said name members := by
  show List.lookup name ((other, j) :: members.filterMap id) = _
  rw [List.lookup_cons]
  by_cases same : name = other
  · rw [if_pos same, beq_iff_eq.2 same]
  · rw [if_neg same, beq_false_of_ne same]
    rfl

@[simp] theorem said_cons_none : said name (none :: members) = said name members := rfl

variable [Document α]

@[simp] theorem said_field {a : α} : said name (field other a :: members) =
    if name = other then some (toJson a) else said name members :=
  said_cons_some

@[simp] theorem said_fieldOrNull {a : Option α} : said name (fieldOrNull other a :: members) =
    if name = other then some ((a.map toJson).getD .null) else said name members :=
  said_cons_some

@[simp] theorem said_fieldIf {a : Option α} : said name (fieldIf other a :: members) =
    if name = other then (a.map toJson).or (said name members) else said name members := by
  cases a <;> simp [fieldIf]

@[simp] theorem said_fieldIfAny {xs : List α} : said name (fieldIfAny other xs :: members) =
    if name = other then if xs = [] then said name members else some (toJson xs)
    else said name members := by
  cases xs <;> simp [fieldIfAny]

end said

theorem get?_record {name : String} {members : List Member} :
    (record members).get? name = said name members := rfl

/-! ## Reading a record -/

/-- Some fields of a record are read as a value from what its members say. -/
def Reads (read : FieldReader α) (members : List Member) (a : α) : Prop :=
  read (.byName (members.filterMap id)) = some (a, .byName (members.filterMap id))

theorem ofRecord?_record {read : FieldReader α} {members : List Member} {a : α}
    (reads : Reads read members a) : ofRecord? read (record members) = some a := by
  show (read (.byName (members.filterMap id))).map (·.1) = _
  rw [reads]
  rfl

/-- The value that is read from what is said about it: `none` where nothing or null is. -/
def readSaid? [Document α] : Option Json → Option (Option α)
  | none => some none
  | some j => nullable? j

section
variable [Document α] [Lossless α]

theorem nullable?_toJson (a : α) : nullable? (toJson a) = some (some a) := by
  unfold nullable?
  split
  · next is => exact absurd is (Lossless.ne_null a)
  · rw [Lossless.read_write]
    rfl

@[simp] theorem readSaid?_map (x : Option α) : readSaid? (x.map toJson) = some x := by
  cases x with
  | none => rfl
  | some a => exact nullable?_toJson a

@[simp] theorem readSaid?_getD (x : Option α) :
    readSaid? (some ((x.map toJson).getD .null)) = some x := by
  cases x with
  | none => rfl
  | some a => exact nullable?_toJson a

end

theorem take?_byName (name : String) (members : List Member) :
    (Fields.byName (members.filterMap id)).take? name =
      (said name members).map fun j => (j, .byName (members.filterMap id)) := rfl

namespace Reads

variable {members : List Member} {name : String} {read : FieldReader α}
  {next : α → FieldReader β} {a : α} {b : β}

theorem pure : Reads (Pure.pure a) members a := rfl

theorem bind (first : Reads read members a) (rest : Reads (next a) members b) :
    Reads (read >>= next) members b := by
  show (read (.byName (members.filterMap id))).bind _ = _
  rw [first]
  exact rest

variable [Document α]

theorem required (told : (said name members).bind ofJson? = some a := by simp) :
    Reads (Document.required name) members a := by
  obtain ⟨j, there, is⟩ := Option.bind_eq_some_iff.1 told
  unfold Reads Document.required
  rw [take?_byName, there]
  show (ofJson? j).map _ = _
  rw [is]
  rfl

theorem optional {x : Option α} (told : readSaid? (said name members) = some x := by simp) :
    Reads (Document.optional name) members x := by
  unfold Reads Document.optional
  rw [take?_byName]
  cases there : said name members with
  | none =>
    rw [there] at told
    cases told
    rfl
  | some j =>
    rw [there] at told
    show (nullable? j).map _ = _
    rw [show nullable? j = some x from told]
    rfl

/-- In an object, a field at the end is one as any other. -/
theorem optionalAtEnd {x : Option α} (told : readSaid? (said name members) = some x := by simp) :
    Reads (Document.optionalAtEnd name) members x := by
  have alike : ∀ fields : List (String × Json),
      Document.optionalAtEnd (α := α) name (.byName fields) =
        Document.optional name (.byName fields) := by
    intro fields
    unfold Document.optionalAtEnd Document.optional
    cases (Fields.byName fields).take? name <;> rfl
  exact (alike _).trans (optional told)

theorem withDefault [Lossless α] {dflt : α} [Decidable (a = dflt)]
    (told : said name members = if a = dflt then none else some (toJson a) := by simp) :
    Reads (Document.withDefault name dflt) members a := by
  unfold Reads Document.withDefault
  rw [take?_byName, told]
  by_cases is : a = dflt
  · rw [if_pos is, is]
    rfl
  · rw [if_neg is]
    show (ofJson? (toJson a)).map _ = _
    rw [Lossless.read_write]
    rfl

end Reads

/-! ## The documents -/

/-! ### Transfers -/

instance : Lossless PartRef where
  read_write _ := ofRecord?_record <| .bind .required .pure

instance : Lossless N1Container where
  read_write _ := ofRecord?_record <| .bind .required <| .bind .optional .pure

instance : Lossless N2Content where
  read_write _ := ofRecord?_record <| .bind .optional <| .bind .optional .pure

instance : Lossless SessionInfo where
  read_write _ := ofRecord?_record <| .bind .required <| .bind .optional .pure

instance : Lossless N2Container where
  read_write _ := ofRecord?_record <| .bind .required <| .bind .optional .pure

instance : Lossless TransferBody where
  read_write _ := ofRecord?_record <| .bind .optional <| .bind .optional <| .bind .optionalAtEnd <|
    .bind .optional <| .bind .optional .pure

instance : Lossless TransferAnswer where
  read_write _ := ofRecord?_record <| .bind .required .pure

instance : Lossless FailureReport where
  read_write _ := ofRecord?_record <| .bind .required <| .bind .required .pure

/-! ### The context of a UE -/

instance : Lossless SliceBody where
  read_write _ := ofRecord?_record <| .bind .required <| .bind .optional .pure

instance : Lossless AmbrBody where
  read_write _ := ofRecord?_record <| .bind .optional <| .bind .optional .pure

instance : Lossless KeySetBody where
  read_write _ := ofRecord?_record <| .bind .required <| .bind .required .pure

instance : Lossless KeyBody where
  read_write _ := ofRecord?_record <| .bind .required <| .bind .required .pure

instance : Lossless SeafBody where
  read_write _ := ofRecord?_record <| .bind .required <| .bind .required .pure

instance : Lossless SecurityMode where
  read_write _ := ofRecord?_record <| .bind .required <| .bind .required .pure

instance : Lossless SliceMapping where
  read_write _ := ofRecord?_record <| .bind .required <| .bind .required .pure

instance : Lossless MmContext where
  read_write _ := ofRecord?_record <| .bind .required <| .bind .optional <| .bind .optional <|
    .bind .optional <| .bind .optional <| .bind .withDefault <| .bind .withDefault .pure

instance : Lossless SessionBody where
  read_write _ := ofRecord?_record <| .bind .required <| .bind .optional <| .bind .required <|
    .bind .optional <| .bind .required .pure

instance : Lossless UeContextBody where
  read_write _ := ofRecord?_record <| .bind .optional <| .bind .optional <| .bind .optional <|
    .bind .optional <| .bind .optional <| .bind .optional <| .bind .optional <|
    .bind .withDefault <| .bind .optional .pure

instance : Lossless RelocationBody where
  read_write _ := ofRecord?_record <| .bind .required <| .bind .required .pure

instance : Lossless RelocationAnswer where
  read_write _ := ofRecord?_record <| .bind .required .pure

instance : Lossless StatusUpdate where
  read_write _ := ofRecord?_record <| .bind .optional <| .bind .withDefault .pure

instance : Lossless StatusUpdateAnswer where
  read_write _ := ofRecord?_record <| .bind .required .pure

/-! ### Notifications -/

instance : Lossless Problem where
  read_write _ := ofRecord?_record <| .bind .optional <| .bind .optional <| .bind .optional .pure

instance : Lossless StatusInfo where
  read_write _ := ofRecord?_record <| .bind .required .pure

instance : Lossless SessionStatus where
  read_write _ := ofRecord?_record <| .bind .optional .pure

instance : Lossless Deregistration where
  read_write _ := ofRecord?_record <| .bind .optional <| .bind .required .pure

/-! ### Changes -/

/-- A value, unless it is null. -/
def present? : Json → Option Json
  | .null => none
  | j => some j

theorem nullable?_json (j : Json) : nullable? j = some (present? j) := by
  cases j <;> rfl

theorem present?_eq_some_self_iff {j : Json} : present? j = some j ↔ j ≠ .null := by
  cases j <;> simp [present?]

theorem readSaid?_map_json (x : Option Json) :
    readSaid? (x.map toJson) = some (x.bind present?) := by
  cases x with
  | none => rfl
  | some j => exact nullable?_json j

theorem readSaid?_getD_json (x : Option Json) :
    readSaid? (some ((x.map toJson).getD .null)) = some (x.bind present?) := by
  cases x with
  | none => rfl
  | some j => exact nullable?_json j

/-- A change with null as an absent value. -/
def ChangeItem.withoutNulls (c : ChangeItem) : ChangeItem :=
  { c with oldValue := c.oldValue.bind present?, newValue := c.newValue.bind present? }

/-- The changes of a resource with null as an absent value. -/
def NotifyItem.withoutNulls (i : NotifyItem) : NotifyItem :=
  { i with changes := i.changes.map .withoutNulls }

/-- Changes with null as an absent value. -/
def Modification.withoutNulls (m : Modification) : Modification :=
  { m with items := m.items.map .withoutNulls }

theorem ofJson?_toJson_change (c : ChangeItem) : ofJson? (toJson c) = some c.withoutNulls :=
  ofRecord?_record <| .bind .required <| .bind .optional <|
    .bind .optional <| .bind (.optional (by simp [readSaid?_map_json])) <|
    .bind (.optionalAtEnd (by simp [readSaid?_getD_json])) .pure

theorem ofJson?_toJson_notifyItem (i : NotifyItem) : ofJson? (toJson i) = some i.withoutNulls :=
  ofRecord?_record <| .bind .required <|
    .bind (.required (by simp [ofJson?_toJson_list ofJson?_toJson_change])) .pure

/-- Changes are read with null as an absent value. -/
theorem ofJson?_toJson_modification (m : Modification) : ofJson? (toJson m) = some m.withoutNulls :=
  ofRecord?_record <| .bind (.required (by simp [ofJson?_toJson_list ofJson?_toJson_notifyItem])) .pure

/-- No value that changes is null itself. -/
def Modification.NullFree (m : Modification) : Prop :=
  ∀ i ∈ m.items, ∀ c ∈ i.changes, c.oldValue ≠ some .null ∧ c.newValue ≠ some .null

theorem bind_present?_eq_self_iff {x : Option Json} : x.bind present? = x ↔ x ≠ some .null := by
  cases x with
  | none => simp
  | some j => simp [present?_eq_some_self_iff]

theorem map_eq_self_iff {f : α → α} {xs : List α} : xs.map f = xs ↔ ∀ x ∈ xs, f x = x := by
  simpa using List.map_inj_left (l := xs) (f := f) (g := id)

theorem Modification.withoutNulls_eq_self_iff {m : Modification} :
    m.withoutNulls = m ↔ m.NullFree := by
  have change (c : ChangeItem) :
      c.withoutNulls = c ↔ c.oldValue ≠ some .null ∧ c.newValue ≠ some .null := by
    rw [← bind_present?_eq_self_iff, ← bind_present?_eq_self_iff]
    cases c
    simp [ChangeItem.withoutNulls]
  have item (i : NotifyItem) : i.withoutNulls = i ↔ ∀ c ∈ i.changes, c.withoutNulls = c := by
    rw [← map_eq_self_iff]
    cases i
    simp [NotifyItem.withoutNulls]
  have whole : m.withoutNulls = m ↔ ∀ i ∈ m.items, i.withoutNulls = i := by
    rw [← map_eq_self_iff]
    cases m
    simp [Modification.withoutNulls]
  simp only [whole, item, change, NullFree]

/-! ## What is read back -/

/-- **Documents are read back as they were written.** A UE's context, a request for a transfer, a
status update and a deregistration always; the changes of a notification exactly if no value that they
hold is null itself. A UE's context tells the UE that has no session from one whose sessions it does not
list. -/
theorem read_back :
    (∀ a : RelocationAnswer, ofJson? (toJson a) = some a) ∧
    (∀ b : TransferBody, ofJson? (toJson b) = some b) ∧
    (∀ u : StatusUpdate, ofJson? (toJson u) = some u) ∧
    (∀ d : Deregistration, ofJson? (toJson d) = some d) ∧
    (∀ m : Modification, ofJson? (toJson m) = some m ↔ m.NullFree) ∧
    ∀ u : UeContextBody,
      (toJson { u with sessions := none }).get? "sessionContextList" = none ∧
        (toJson { u with sessions := some [] }).get? "sessionContextList" = some (.arr []) := by
  refine ⟨Lossless.read_write, Lossless.read_write, Lossless.read_write, Lossless.read_write,
    fun m => ?_, fun u => ⟨?_, ?_⟩⟩
  · rw [ofJson?_toJson_modification, Option.some_inj, Modification.withoutNulls_eq_self_iff]
  · exact get?_record.trans (by simp)
  · exact get?_record.trans (by simp; rfl)

end Document
end Amf
