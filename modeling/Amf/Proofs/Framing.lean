import Amf.Nas
import Amf.Ngap
import Amf.Proofs.Format
import Amf.Security

/-!
# The framing of messages

The formats of the messages to the radio network and of the NAS messages inside them. A message is
framed if every count in it, and in the NAS message that it carries, is the number of what follows.

No message is refused for its size, so whether one is framed depends on what it is made of: one that
is made of messages to UEs, information to the radio network and lists, and of nothing else that
varies in length, is framed exactly if these are within the limits of the wire
(`Ngap.Request.framed_iff`). Inside a NAS transport the limit is that of the message around it, ten
octets less.

| part | limit |
| --- | ---: |
| message to a UE (N1) | 65525 octets |
| information to the radio network (N2) | 65535 octets |
| allowed slices | 255 |
| restrictions | 255 |
-/

namespace Amf

open Octets

/-- What the parts of messages that vary in length are like. -/
structure Limits where
  /-- The messages to UEs, before they are wrapped. -/
  n1 : Octets → Prop
  /-- The information to the radio network. -/
  n2 : Octets → Prop
  /-- The allowed slices of UEs. -/
  slices : List Slice → Prop
  /-- The restrictions of UEs. -/
  restrictions : List RatType → Prop
  /-- A command may have no message to the UE. -/
  n1_nil : n1 []

namespace Limits

/-- No limits. -/
def none : Limits := ⟨fun _ => True, fun _ => True, fun _ => True, fun _ => True, trivial⟩

/-- What the counts of the wire can hold. -/
def wire : Limits where
  n1 xs := xs.length ≤ 65525
  n2 xs := xs.length ≤ 65535
  slices xs := xs.length ≤ 255
  restrictions xs := xs.length ≤ 255
  n1_nil := Nat.zero_le _

end Limits

/-- A length of two octets. -/
theorem Format.exact_counted_two {xs : Octets} : (counted 2).Exact xs ↔ xs.length ≤ 65535 :=
  exact_counted.trans Nat.lt_succ_iff

/-- A number of elements in one octet. -/
theorem Format.exact_list_one {α : Type} {f : Format α} {as : List α} (each : ∀ a ∈ as, f.Exact a) :
    (list 1 f).Exact as ↔ as.length ≤ 255 :=
  exact_list.trans ((and_iff_left each).trans Nat.lt_succ_iff)

/-! ## NAS messages -/

namespace Nas

/-- Headers, message type and container type; payload; PSI. -/
def transportFormat : Format (Octets × Octets × Octets) :=
  .both (.octets 6) (.both (.counted 2) (.octets 2))

/-- A message that is a downlink transport, by its type, reads back to its end. -/
def Framed (nas : Octets) : Prop :=
  nas[4]? = some 0x68 → ∃ fields, transportFormat.read nas = some (fields, [])

/-- The NAS messages that are made of payloads of a kind. -/
inductive Made (P : Octets → Prop) : Octets → Prop
  | session (psi : UInt8) {n1 : Octets} (holds : P n1) : Made P (wrapSession psi n1)
  | deregistration (d : Deregistration) : Made P d.octets

theorem wrapSession_eq (psi : UInt8) (n1 : Octets) : wrapSession psi n1 =
    transportFormat.write (header 0x68 ++ [sessionContainer % 16], n1, [0x12, psi]) := by
  unfold wrapSession Transport.octets causeElement backoffElement
  rw [List.append_nil, List.append_nil, List.append_assoc]
  rfl

theorem length_wrapSession (psi : UInt8) (n1 : Octets) :
    (wrapSession psi n1).length = 10 + n1.length := by
  rw [wrapSession_eq]
  simp [transportFormat, header]
  omega

/-- **A payload is framed exactly if two octets can hold its length.** -/
theorem framed_wrapSession_iff {psi : UInt8} {n1 : Octets} :
    Framed (wrapSession psi n1) ↔ n1.length ≤ 65535 := by
  have typed : (wrapSession psi n1)[4]? = some 0x68 := rfl
  constructor
  · intro framed
    obtain ⟨⟨front, payload, back⟩, is⟩ := framed typed
    obtain ⟨exact, written⟩ := transportFormat.of_read is
    obtain ⟨width, exact, width'⟩ :
      front.length = 6 ∧ (Format.counted 2).Exact payload ∧ back.length = 2 := exact
    have fits := Format.exact_counted_two.1 exact
    have length := congrArg List.length written
    simp only [length_wrapSession, transportFormat, Format.write_both, Format.write_octets,
      Format.write_counted, List.append_nil, List.length_append, length_counted, width,
      width'] at length
    omega
  · intro fits _
    refine ⟨(header 0x68 ++ [sessionContainer % 16], n1, [0x12, psi]), ?_⟩
    rw [wrapSession_eq]
    exact Format.read_write_iff.2 ⟨rfl, Format.exact_counted_two.2 fits, rfl⟩

/-- A deregistration request has no counts, and is short. -/
theorem length_deregistration_le (d : Deregistration) : d.octets.length ≤ 8 := by
  unfold Deregistration.octets causeElement
  cases d.cause <;> simp [header]

namespace Made

variable {P : Octets → Prop} {nas : Octets}

/-- A message that fits a length of two octets is made of a payload that leaves room for what is
around it. -/
theorem fits_iff (made : Made P nas) : nas.length ≤ 65535 ↔ Made Limits.wire.n1 nas := by
  constructor
  · intro fits
    cases made with
    | session psi =>
      rw [length_wrapSession] at fits
      exact .session psi (by show _ ≤ 65525; omega)
    | deregistration d => exact .deregistration d
  · intro within
    cases within with
    | session psi holds =>
      have holds : List.length _ ≤ 65525 := holds
      rw [length_wrapSession]
      omega
    | deregistration d => exact Nat.le_trans (length_deregistration_le d) (by decide)

theorem framed (made : Made Limits.wire.n1 nas) : Framed nas := by
  cases made with
  | session psi holds => exact framed_wrapSession_iff.2 (Nat.le_trans holds (by decide))
  | deregistration d => exact fun typed => nomatch typed

end Made

end Nas

namespace Ngap

/-! ## Messages to the radio network -/

/-- Fields with their format. -/
structure Frame where
  /-- The type of the fields. -/
  {α : Type}
  /-- The format. -/
  format : Format α
  /-- The fields. -/
  fields : α

/-- The octets of the fields. -/
def Frame.octets (f : Frame) : Octets := f.format.write f.fields

/-- The counts among the fields are exact. -/
def Frame.Exact (f : Frame) : Prop := f.format.Exact f.fields

/-- The type of a slice and its differentiator. -/
def sliceFormat : Format (Octets × Option Octets) := .both (.octets 1) (.optional (.octets 3))

/-- The fields of a slice. -/
def sliceFields (s : Slice) : Octets × Option Octets := ([s.sst], s.sd.map fun sd => word 3 sd.toNat)

theorem write_slice (s : Slice) : sliceFormat.write (sliceFields s) = sliceOctets s := by
  unfold sliceOctets sliceFields
  cases s.sd <;> rfl

theorem exact_slice (s : Slice) : sliceFormat.Exact (sliceFields s) := by
  refine ⟨rfl, fun xs is => ?_⟩
  obtain ⟨sd, -, rfl⟩ := Option.map_eq_some_iff.1 is
  exact length_word 3 _

theorem exact_slices_iff {allowed : List Slice} :
    (Format.list 1 sliceFormat).Exact (allowed.map sliceFields) ↔ allowed.length ≤ 255 := by
  rw [Format.exact_list_one, List.length_map]
  intro fields mem
  obtain ⟨s, -, rfl⟩ := List.mem_map.1 mem
  exact exact_slice s

theorem exact_restrictions_iff {restrictions : List RatType} :
    (Format.list 1 (.counted 2)).Exact (restrictions.map fun rat => ofAscii (Named.name rat)) ↔
      restrictions.length ≤ 255 := by
  rw [Format.exact_list_one, List.length_map]
  intro name mem
  obtain ⟨rat, -, rfl⟩ := List.mem_map.1 mem
  refine Format.exact_counted_two.2 ?_
  cases rat <;> decide

theorem exact_ambr (ambr : Ambr) : (Format.octets 16).Exact (ambrOctets ambr) := by
  simp [Format.exact_octets, ambrOctets]

/-- PSI, slice, message to the UE, and information to the radio network. -/
def itemFormat : Format (Octets × (Octets × Option Octets) × Option Octets × Octets) :=
  .both (.octets 1) (.both sliceFormat (.both (.optional (.counted 2)) (.counted 2)))

/-- The fields of a session to be set up. -/
def itemFields (i : SetupItem) : Octets × (Octets × Option Octets) × Option Octets × Octets :=
  ([i.psi], sliceFields i.slice, i.nas, i.n2)

theorem write_optional (nas : Option Octets) :
    (Format.optional (.counted 2)).write nas = optionalOctets nas := by
  cases nas <;> rfl

theorem write_item (i : SetupItem) : itemFormat.write (itemFields i) = i.octets := by
  simp [itemFormat, itemFields, SetupItem.octets, write_slice, write_optional]

theorem exact_optional_iff {nas : Option Octets} : (Format.optional (.counted 2)).Exact nas ↔
    ∀ xs, nas = some xs → xs.length ≤ 65535 :=
  forall₂_congr fun _ _ => Format.exact_counted_two

theorem exact_item_iff {i : SetupItem} : itemFormat.Exact (itemFields i) ↔
    (∀ xs, i.nas = some xs → xs.length ≤ 65535) ∧ i.n2.length ≤ 65535 := by
  show _ ∧ sliceFormat.Exact _ ∧ (Format.optional _).Exact i.nas ∧ (Format.counted 2).Exact i.n2 ↔ _
  rw [exact_optional_iff, Format.exact_counted_two]
  exact (and_iff_right rfl).trans (and_iff_right (exact_slice i.slice))

namespace Request

/-- The fields that follow the identifiers of the UE. -/
def frame : Request → Frame
  | downlinkNas nas => ⟨.counted 2, nas⟩
  | initialContextSetup guami ambr allowed capability item =>
    ⟨.both (.octets 7) (.both (.octets 16)
        (.both (.list 1 sliceFormat) (.both (.counted 1) (.list 1 itemFormat)))),
      plmnOctets guami.plmn ++ [guami.amf.region] ++ word 2 guami.amf.set.toNat ++
        [guami.amf.pointer],
      ambrOctets ambr, allowed.map sliceFields, capability, [itemFields item]⟩
  | resourceModify psi nas n2 => ⟨.both (.octets 1) (.both (.counted 2) (.counted 2)), [psi], nas, n2⟩
  | resourceRelease psi nas n2 =>
    ⟨.both (.octets 1) (.both (.optional (.counted 2)) (.counted 2)), [psi], nas, n2⟩
  | resourceSetup item => ⟨itemFormat, itemFields item⟩
  | contextModification ambr restrictions =>
    ⟨.both (.optional (.octets 16)) (.list 1 (.counted 2)),
      if ambr.downlink = 0 ∧ ambr.uplink = 0 then none else some (ambrOctets ambr),
      restrictions.map fun rat => ofAscii (Named.name rat)⟩

/-- The message to the UE that a message carries. -/
def nas? : Request → Option Octets
  | downlinkNas nas => some nas
  | initialContextSetup _ _ _ _ item => item.nas
  | resourceModify _ nas _ => some nas
  | resourceRelease _ nas _ => nas
  | resourceSetup item => item.nas
  | contextModification .. => none

/-- Every count in a message, and in the NAS message that it carries, is the number of what
follows. -/
structure Framed (r : Request) : Prop where
  /-- The counts of the message. -/
  exact : r.frame.Exact
  /-- The NAS message. -/
  nas : ∀ xs, r.nas? = some xs → Nas.Framed xs

/-- What follows the identifiers of the UE is what the fields write. -/
theorem content_eq (r : Request) : r.content = r.frame.octets := by
  cases r with
  | downlinkNas | resourceModify => rfl
  | resourceRelease => simp [content, frame, Frame.octets, write_optional]
  | resourceSetup item => exact (write_item item).symm
  | initialContextSetup =>
    simp [content, frame, Frame.octets, List.flatMap_map, write_slice, write_item, word]
  | contextModification =>
    simp only [content, frame, Frame.octets, Format.write_both, Format.write_list, List.length_map,
      List.flatMap_map, List.append_assoc]
    split <;> rfl

theorem drop_octets (r : Request) (ids : UeIds) : (r.octets ids).drop 19 = r.frame.octets :=
  content_eq r

/-- **What follows the identifiers reads back as the fields, to its end, exactly if every count is
exact.** -/
theorem read_octets_iff {r : Request} {ids : UeIds} :
    r.frame.format.read ((r.octets ids).drop 19) = some (r.frame.fields, []) ↔ r.frame.Exact := by
  rw [drop_octets]
  exact Format.read_write_iff

end Request

variable {L : Limits}

/-- A session to be set up is made of parts of a kind. -/
def SetupItem.Made (L : Limits) (i : SetupItem) : Prop :=
  (∀ xs, i.nas = some xs → Nas.Made L.n1 xs) ∧ L.n2 i.n2

theorem SetupItem.Made.exact_iff {i : SetupItem} (made : i.Made L) :
    itemFormat.Exact (itemFields i) ↔ i.Made .wire :=
  exact_item_iff.trans (and_congr_left' (forall₂_congr fun xs is => (made.1 xs is).fits_iff))

namespace Request

variable {r : Request}

/-- A message is made of parts of a kind, and of nothing else that varies in length but a security
capability. -/
def Made (L : Limits) : Request → Prop
  | downlinkNas nas => Nas.Made L.n1 nas
  | initialContextSetup _ _ allowed capability item =>
    L.slices allowed ∧ (∃ c : SecurityCapability, capability = c.valid) ∧ item.Made L
  | resourceModify _ nas n2 => Nas.Made L.n1 nas ∧ L.n2 n2
  | resourceRelease _ nas n2 => (∀ xs, nas = some xs → Nas.Made L.n1 xs) ∧ L.n2 n2
  | resourceSetup item => item.Made L
  | contextModification _ restrictions => L.restrictions restrictions

/-- So is the NAS message that it carries. -/
theorem Made.nas (made : r.Made L) : ∀ xs, r.nas? = some xs → Nas.Made L.n1 xs := by
  cases r with
  | downlinkNas => exact fun xs is => Option.some.inj is ▸ made
  | initialContextSetup => exact made.2.2.1
  | resourceModify => exact fun xs is => Option.some.inj is ▸ made.1
  | resourceRelease => exact made.1
  | resourceSetup => exact made.1
  | contextModification => exact nofun

/-- **The counts of a message are exact exactly if its parts are within the limits of the wire.** -/
theorem Made.exact_iff (made : r.Made L) : r.frame.Exact ↔ r.Made .wire := by
  cases r with
  | downlinkNas => exact Format.exact_counted_two.trans made.fits_iff
  | initialContextSetup guami ambr allowed capability item =>
    obtain ⟨-, ⟨c, rfl⟩, made⟩ := made
    have capability : (Format.counted 1).Exact c.valid :=
      Format.exact_counted.2 (Nat.lt_of_le_of_lt c.length_valid_le (by decide))
    have item : (Format.list 1 itemFormat).Exact [itemFields item] ↔ item.Made .wire := by
      rw [← made.exact_iff, Format.exact_list, List.forall_mem_singleton]
      exact and_iff_right (show 1 < 256 by decide)
    have identity : (Format.octets 7).Exact (plmnOctets guami.plmn ++ [guami.amf.region] ++
        word 2 guami.amf.set.toNat ++ [guami.amf.pointer]) := rfl
    exact (and_iff_right identity).trans ((and_iff_right (exact_ambr ambr)).trans
      (and_congr exact_slices_iff (and_congr (iff_of_true capability ⟨c, rfl⟩) item)))
  | resourceModify =>
    exact (and_iff_right rfl).trans
      (and_congr (Format.exact_counted_two.trans made.1.fits_iff) Format.exact_counted_two)
  | resourceRelease =>
    exact (and_iff_right rfl).trans (and_congr
      (exact_optional_iff.trans (forall₂_congr fun xs is => (made.1 xs is).fits_iff))
      Format.exact_counted_two)
  | resourceSetup => exact SetupItem.Made.exact_iff made
  | contextModification ambr restrictions =>
    have rates : (Format.optional (.octets 16)).Exact
        (if ambr.downlink = 0 ∧ ambr.uplink = 0 then none else some (ambrOctets ambr)) := by
      split
      · exact nofun
      · exact fun xs is => Option.some.inj is ▸ exact_ambr ambr
    exact (and_iff_right rates).trans exact_restrictions_iff

/-- **A message is framed exactly if its parts are within the limits of the wire.** -/
theorem Made.framed_iff (made : r.Made L) : r.Framed ↔ r.Made .wire :=
  ⟨fun framed => made.exact_iff.1 framed.exact,
    fun within => ⟨made.exact_iff.2 within, fun xs is => (within.nas xs is).framed⟩⟩

end Request
end Ngap
end Amf
