import Amf.Delivery
import Amf.Proofs.Framing

/-!
# Messages are unambiguous

A peer reads a message to the radio network in three parts: the procedure code selects the builder;
the two identifiers of the UE follow, except in a paging message; the rest is read to its end in the
format of that builder (`Ngap.read?`). Optional fields have a presence octet and everything that
varies in length its count, so no field can be mistaken for another one. What is read are the
builder and the fields that it encodes, for all messages that fit their counts and words
(`Ngap.read?_octets`).

| part | fits |
| --- | ---: |
| NAS message, information to the radio network | 65535 octets |
| allowed slices, restrictions | 255 |
| security capability | 255 octets |
| slice differentiator, tracking area code | 24 bits |

Not all of a call is encoded. A paging message has the set, the pointer and the temporary identifier
of the 5G-GUTI, but not its network and region; a NAS transport has four bits of the container type
and the back-off time in units of two seconds (`Ngap.Message.encoded`, `Nas.Transport.encoded`).
-/

namespace Amf

open Octets

namespace Format

variable {α β : Type}

/-- Values that are other fields. -/
def of (f : Format α) (fields : β → α) (value : α → β) (value_fields : ∀ b, value (fields b) = b)
    (fields_value : ∀ a, fields (value a) = a) : Format β :=
  f.via fields (fun a => some (value a)) (fun _ => congrArg some (value_fields _))
    fun _ is => Option.some.inj is ▸ fields_value _

/-- Numbers below a size, in `k` octets. -/
def bounded (k size : Nat) (toNat : α → Nat) (ofNat : Nat → α)
    (ofNat_toNat : ∀ a, ofNat (toNat a) = a) (toNat_lt : ∀ a, toNat a < size)
    (toNat_ofNat : ∀ n < size, toNat (ofNat n) = n) : Format α :=
  (number k).via toNat (fun n => if n < size then some (ofNat n) else none)
    (fun _ => by rw [if_pos (toNat_lt _), ofNat_toNat])
    (by
      intro n a _ is
      split at is
      · rename_i below
        exact Option.some.inj is ▸ toNat_ofNat n below
      · cases is)

/-- A number of 16 bits. -/
def uint16 : Format UInt16 :=
  bounded 2 UInt16.size UInt16.toNat UInt16.ofNat (fun _ => UInt16.ofNat_toNat) UInt16.toNat_lt
    fun _ => UInt16.toNat_ofNat_of_lt

/-- A number of 32 bits in `k` octets. -/
def uint32 (k : Nat) : Format UInt32 :=
  bounded k UInt32.size UInt32.toNat UInt32.ofNat (fun _ => UInt32.ofNat_toNat) UInt32.toNat_lt
    fun _ => UInt32.toNat_ofNat_of_lt

/-- A number of 64 bits. -/
def uint64 : Format UInt64 :=
  bounded 8 UInt64.size UInt64.toNat UInt64.ofNat (fun _ => UInt64.ofNat_toNat) UInt64.toNat_lt
    fun _ => UInt64.toNat_ofNat_of_lt

theorem exact_uint16 (n : UInt16) : uint16.Exact n := exact_number.2 n.toNat_lt

theorem exact_uint32 {k : Nat} {n : UInt32} : (uint32 k).Exact n ↔ n.toNat < Nat.pow 256 k :=
  exact_number

theorem exact_uint64 (n : UInt64) : uint64.Exact n := exact_number.2 n.toNat_lt

end Format

/-- A differentiator has 24 bits. -/
def Slice.Fits (s : Slice) : Prop := ∀ sd, s.sd = some sd → sd.toNat < 0x1000000

namespace Ngap

open Format

variable {α β : Type}

/-! ## Formats of the fields -/

/-- Values that are written in half an octet. -/
structure Half (α : Type) where
  /-- The half octet of a value. -/
  code : α → Nat
  /-- The value of a half octet. -/
  value? : Nat → Option α
  code_lt : ∀ a, code a < 16
  value?_code : ∀ a, value? (code a) = some a
  code_of_value? : ∀ {n a}, value? n = some a → code a = n

/-- A decimal digit. -/
def Half.digit : Half (Fin 10) where
  code d := d
  value? n := if below : n < 10 then some ⟨n, below⟩ else none
  code_lt d := Nat.lt_trans d.isLt (by decide)
  value?_code d := dif_pos d.isLt
  code_of_value? := by
    intro n d is
    split at is
    · cases is
      rfl
    · cases is

/-- A decimal digit, or the filler in the place of one. -/
def Half.filled : Half (Option (Fin 10)) where
  code d := d.elim 15 digit.code
  value? n := if n = 15 then some none else (digit.value? n).map some
  code_lt
    | some d => digit.code_lt d
    | none => by decide
  value?_code
    | some d => by
      show (if d.val = 15 then _ else (digit.value? (digit.code d)).map some) = _
      rw [if_neg (by omega), digit.value?_code]
      rfl
    | none => rfl
  code_of_value? := by
    intro n d is
    split at is
    · rename_i filler
      cases is
      exact filler.symm
    · obtain ⟨e, there, rfl⟩ := Option.map_eq_some_iff.1 is
      exact digit.code_of_value? there

theorem toNat_digitPair {low high : Nat} (hl : low < 16) (hh : high < 16) :
    (digitPair low high).toNat = high * 16 + low :=
  UInt8.toNat_ofNat_of_lt (show high * 16 + low < 256 by omega)

/-- Two half octets in one, the first in the low half. -/
def halves (low : Half α) (high : Half β) : Format (α × β) :=
  octet.via (fun a => digitPair (low.code a.1) (high.code a.2))
    (fun x => do
      let a ← low.value? (x.toNat % 16)
      let b ← high.value? (x.toNat / 16)
      return (a, b))
    (by
      rintro ⟨a, b⟩ -
      have hl := low.code_lt a
      have hh := high.code_lt b
      have first : (high.code b * 16 + low.code a) % 16 = low.code a := by omega
      have second : (high.code b * 16 + low.code a) / 16 = high.code b := by omega
      simp [toNat_digitPair hl hh, first, second, low.value?_code, high.value?_code])
    (by
      intro x a _ is
      obtain ⟨b, first, is⟩ := Option.bind_eq_some_iff.1 is
      obtain ⟨c, second, is⟩ := Option.bind_eq_some_iff.1 is
      cases is
      show UInt8.ofNat _ = x
      rw [low.code_of_value? first, high.code_of_value? second, Nat.div_add_mod']
      exact UInt8.ofNat_toNat)

/-- A PLMN: six digits, the last of which may be absent. -/
def plmnFormat : Format Plmn :=
  (both (halves .digit .digit) (both (halves .digit .filled) (halves .digit .digit))).of
    (fun p => ((p.mcc1, p.mcc2), (p.mcc3, p.mnc3), (p.mnc1, p.mnc2)))
    (fun d => ⟨d.1.1, d.1.2, d.2.1.1, d.2.2.1, d.2.2.2, d.2.1.2⟩) (fun _ => rfl) fun _ => rfl

theorem exact_plmn (p : Plmn) : plmnFormat.Exact p := ⟨trivial, trivial, trivial⟩

theorem write_plmn (p : Plmn) : plmnFormat.write p = plmnOctets p := by
  obtain ⟨_, _, _, _, _, mnc3⟩ := p
  cases mnc3 <;> rfl

/-- A GUAMI: PLMN, region, set and pointer. -/
def guamiFormat : Format Guami :=
  (both plmnFormat (both octet (both uint16 octet))).of
    (fun g => (g.plmn, g.amf.region, g.amf.set, g.amf.pointer))
    (fun f => ⟨f.1, f.2.1, f.2.2.1, f.2.2.2⟩) (fun _ => rfl) fun _ => rfl

theorem exact_guami (g : Guami) : guamiFormat.Exact g :=
  ⟨exact_plmn g.plmn, trivial, exact_uint16 g.amf.set, trivial⟩

/-- The two directions of an AMBR. -/
def ambrFormat : Format Ambr :=
  (both uint64 uint64).of (fun a => (a.downlink, a.uplink)) (fun f => ⟨f.1, f.2⟩) (fun _ => rfl)
    fun _ => rfl

theorem exact_rates (a : Ambr) : ambrFormat.Exact a := ⟨exact_uint64 _, exact_uint64 _⟩

/-- An AMBR that is left out if it is 0 in both directions. -/
def limitFormat : Format Ambr :=
  (optional ambrFormat).via
    (fun a => if a.downlink = 0 ∧ a.uplink = 0 then none else some a)
    (fun
      | none => some {}
      | some a => if a.downlink = 0 ∧ a.uplink = 0 then none else some a)
    (by
      rintro ⟨downlink, uplink⟩ -
      by_cases zero : downlink = 0 ∧ uplink = 0
      · rw [if_pos zero, zero.1, zero.2]
      · simp [if_neg zero])
    (by
      intro a b _ is
      cases a with
      | none => cases is; rfl
      | some a =>
        by_cases zero : a.downlink = 0 ∧ a.uplink = 0
        · simp [if_pos zero] at is
        · simp only [if_neg zero, Option.some.injEq] at is
          rw [← is, if_neg zero])

theorem exact_limit (a : Ambr) : limitFormat.Exact a := fun b _ => exact_rates b

/-- A slice: its type and its optional differentiator. -/
def wireSlice : Format Slice :=
  (both octet (optional (uint32 3))).of (fun s => (s.sst, s.sd)) (fun f => ⟨f.1, f.2⟩)
    (fun _ => rfl) fun _ => rfl

theorem write_wireSlice (s : Slice) : wireSlice.write s = sliceOctets s := by
  obtain ⟨sst, sd⟩ := s
  cases sd <;> rfl

/-- A session to be set up. -/
def wireItem : Format SetupItem :=
  (both octet (both wireSlice (both (optional (.counted 2)) (.counted 2)))).of
    (fun i => (i.psi, i.slice, i.nas, i.n2)) (fun f => ⟨f.1, f.2.1, f.2.2.1, f.2.2.2⟩)
    (fun _ => rfl) fun _ => rfl

theorem write_wireItem (i : SetupItem) : wireItem.write i = i.octets := by
  show [i.psi] ++ (wireSlice.write i.slice ++ ((optional (.counted 2)).write i.nas ++
    Octets.counted 2 i.n2)) = _
  rw [write_wireSlice, write_optional, SetupItem.octets, List.append_assoc, List.append_assoc]

/-- One field, with its number in front. -/
def sole (f : Format α) : Format α :=
  (list 1 f).via (fun a => [a])
    (fun
      | [a] => some a
      | _ => none)
    (fun _ => rfl)
    (by
      intro as a _ is
      split at is
      · cases is
        rfl
      · cases is)

theorem exact_sole {f : Format α} {a : α} (exact : f.Exact a) : (sole f).Exact a :=
  exact_list.2 ⟨show 1 < 256 by decide, List.forall_mem_singleton.2 exact⟩

/-- The name of an access technology. -/
def ratFormat : Format RatType :=
  (Format.counted 2).via (fun rat => ofAscii (Named.name rat))
    (fun xs => Named.values.find? fun rat => ofAscii (Named.name rat) == xs)
    (by
      intro rat _
      cases rat <;> decide)
    fun _ is => eq_of_beq (List.find?_some is :)

theorem exact_rat (rat : RatType) : ratFormat.Exact rat := by
  refine Format.exact_counted_two.2 ?_
  cases rat <;> decide

/-- The identifiers of a connection. -/
def idsFormat : Format UeIds :=
  (both (number 8) uint64).of (fun ids => (ids.amf, ids.ran)) (fun f => ⟨f.1, f.2⟩) (fun _ => rfl)
    fun _ => rfl

/-- GUAMI, AMBR, slices, capability and session of a first setup. -/
def firstSetupFormat : Format (Guami × Ambr × List Slice × Octets × SetupItem) :=
  both guamiFormat (both ambrFormat (both (list 1 wireSlice) (both (.counted 1) (sole wireItem))))

/-- Set, pointer and temporary identifier of a UE, and its tracking area. -/
def pagingFormat : Format (UInt16 × UInt8 × UInt32 × Tai) :=
  both uint16 (both octet (both (uint32 4)
    ((both plmnFormat (uint32 3)).of (fun t => (t.plmn, t.tac)) (fun f => ⟨f.1, f.2⟩) (fun _ => rfl)
      fun _ => rfl)))

/-! ## Messages that fit, and what they encode -/

/-- A message to be carried, and a differentiator, fit. -/
structure SetupItem.Fits (i : SetupItem) : Prop where
  slice : i.slice.Fits
  nas : ∀ xs, i.nas = some xs → xs.length ≤ 65535
  n2 : i.n2.length ≤ 65535

/-- Everything of varying length fits its count, and every differentiator its octets. -/
def Request.Fits : Request → Prop
  | downlinkNas nas => nas.length ≤ 65535
  | initialContextSetup _ _ allowed capability item =>
    allowed.length ≤ 255 ∧ (∀ s ∈ allowed, s.Fits) ∧ capability.length ≤ 255 ∧ item.Fits
  | resourceModify _ nas n2 => nas.length ≤ 65535 ∧ n2.length ≤ 65535
  | resourceRelease _ nas n2 => (∀ xs, nas = some xs → xs.length ≤ 65535) ∧ n2.length ≤ 65535
  | resourceSetup item => item.Fits
  | contextModification _ restrictions => restrictions.length ≤ 255

/-- A message to the radio network: what a builder is called with. -/
inductive Message where
  /-- A message about the connection of a UE. -/
  | request (ids : UeIds) (r : Request)
  /-- A paging message. -/
  | paging (p : Paging)
  deriving DecidableEq

namespace Message

/-- The octets of a message. -/
def octets : Message → Octets
  | request ids r => r.octets ids
  | paging p => p.octets

/-- The fields of a message fit their counts and words. -/
def Fits : Message → Prop
  | request ids r => ids.amf < UInt64.size ∧ r.Fits
  | paging p => p.tai.tac.toNat < 0x1000000

/-- The builder of a message, and the fields that it encodes: all of a message about a connection,
and set, pointer, temporary identifier and tracking area of a paging message. -/
def encoded : Message → (UeIds × Request) ⊕ (UInt16 × UInt8 × UInt32 × Tai)
  | request ids r => .inl (ids, r)
  | paging p => .inr (p.guti.amf.set, p.guti.amf.pointer, p.guti.tmsi, p.tai)

end Message

/-! ## Reading -/

/-- What follows the identifiers of the UE, by the procedure code. -/
def Request.read? (code : Nat) (xs : Octets) : Option Request :=
  match code with
  | 4 => ((Format.counted 2).whole? xs).map downlinkNas
  | 14 => (firstSetupFormat.whole? xs).map fun (guami, ambr, allowed, capability, item) =>
      initialContextSetup guami ambr allowed capability item
  | 26 => ((both octet (both (.counted 2) (.counted 2))).whole? xs).map fun (psi, nas, n2) =>
      resourceModify psi nas n2
  | 28 => ((both octet (both (optional (.counted 2)) (.counted 2))).whole? xs).map
      fun (psi, nas, n2) => resourceRelease psi nas n2
  | 29 => (wireItem.whole? xs).map resourceSetup
  | 40 => ((both limitFormat (list 1 ratFormat)).whole? xs).map fun (ambr, restrictions) =>
      contextModification ambr restrictions
  | _ => none

/-- The builder of a message and the fields in it. -/
def read? (xs : Octets) : Option ((UeIds × Request) ⊕ (UInt16 × UInt8 × UInt32 × Tai)) := do
  let ((code, _), xs) ← (both (number 2) octet).read xs
  if code = 24 then (pagingFormat.whole? xs).map .inr
  else
    let (ids, xs) ← idsFormat.read xs
    (Request.read? code xs).map fun r => .inl (ids, r)

theorem exact_wireSlice {s : Slice} (fits : s.Fits) : wireSlice.Exact s :=
  ⟨trivial, fun sd is => exact_uint32.2 (fits sd is)⟩

theorem exact_wireItem {i : SetupItem} (fits : i.Fits) : wireItem.Exact i :=
  ⟨trivial, exact_wireSlice fits.slice, exact_optional_iff.2 fits.nas, exact_counted_two.2 fits.n2⟩

/-- What is written in a format is read in it. -/
theorem map_whole? {f : Format α} {g : α → β} {a : α} {xs : Octets} (exact : f.Exact a)
    (written : f.write a = xs) : (f.whole? xs).map g = some (g a) := by
  rw [whole?_eq_some_iff.2 ⟨exact, written⟩]
  rfl

/-- Elements in a format of their own are the list of them. -/
theorem flatMap_write {f : Format α} {g : α → Octets} (each : ∀ a, f.write a = g a) (as : List α) :
    as.flatMap f.write = as.flatMap g :=
  congrArg (List.flatMap · as) (funext each)

theorem write_firstSetup (guami : Guami) (ambr : Ambr) (allowed : List Slice) (capability : Octets)
    (item : SetupItem) : firstSetupFormat.write (guami, ambr, allowed, capability, item) =
      Request.content (.initialContextSetup guami ambr allowed capability item) := by
  have identity : guamiFormat.write guami = plmnOctets guami.plmn ++ [guami.amf.region] ++
      word 2 guami.amf.set.toNat ++ [guami.amf.pointer] := by
    rw [← write_plmn, List.append_assoc, List.append_assoc]
    rfl
  have slices := flatMap_write write_wireSlice allowed
  have item : (sole wireItem).write item = [1] ++ item.octets := by
    rw [← write_wireItem]
    exact congrArg ([1] ++ ·) (List.append_nil _)
  show guamiFormat.write guami ++ (ambrOctets ambr ++
    ((word 1 allowed.length ++ allowed.flatMap wireSlice.write) ++
      (Octets.counted 1 capability ++ (sole wireItem).write _))) = _
  rw [identity, slices, item]
  simp only [Request.content, List.append_assoc]

theorem write_restrictions (ambr : Ambr) (restrictions : List RatType) :
    (both limitFormat (list 1 ratFormat)).write (ambr, restrictions) =
      Request.content (.contextModification ambr restrictions) := by
  have names : restrictions.flatMap ratFormat.write =
      restrictions.flatMap fun rat => Octets.counted 2 (ofAscii (Named.name rat)) := rfl
  have limit : limitFormat.write ambr =
      if ambr.downlink = 0 ∧ ambr.uplink = 0 then [0] else 1 :: ambrOctets ambr := by
    show (optional ambrFormat).write (if _ then _ else _) = _
    split <;> rfl
  rw [write_both, write_list, names, limit, Request.content, List.append_assoc]

/-- **What follows the identifiers of the UE is read as the message.** -/
theorem Request.read?_content {r : Request} (fits : r.Fits) :
    read? r.procedure r.content = some r := by
  cases r with
  | downlinkNas nas => exact map_whole? (exact_counted_two.2 fits) rfl
  | initialContextSetup guami ambr allowed capability item =>
    obtain ⟨few, slices, short, fits⟩ := fits
    have exact : firstSetupFormat.Exact (guami, ambr, allowed, capability, item) :=
      ⟨exact_guami guami, exact_rates ambr,
        (exact_list_one fun s mem => exact_wireSlice (slices s mem)).2 few,
        exact_counted.2 (Nat.lt_succ_of_le short), exact_sole (exact_wireItem fits)⟩
    exact map_whole? exact (write_firstSetup guami ambr allowed capability item)
  | resourceModify psi nas n2 =>
    have exact : (both octet (both (.counted 2) (.counted 2))).Exact (psi, nas, n2) :=
      ⟨trivial, exact_counted_two.2 fits.1, exact_counted_two.2 fits.2⟩
    exact map_whole? exact rfl
  | resourceRelease psi nas n2 =>
    have exact : (both octet (both (optional (.counted 2)) (.counted 2))).Exact (psi, nas, n2) :=
      ⟨trivial, exact_optional_iff.2 fits.1, exact_counted_two.2 fits.2⟩
    refine map_whole? exact ?_
    rw [content, ← write_optional]
    rfl
  | resourceSetup item => exact map_whole? (exact_wireItem fits) (write_wireItem item)
  | contextModification ambr restrictions =>
    have exact : (both limitFormat (list 1 ratFormat)).Exact (ambr, restrictions) :=
      ⟨exact_limit ambr, (exact_list_one fun rat _ => exact_rat rat).2 fits⟩
    exact map_whole? exact (write_restrictions ambr restrictions)

theorem exact_opening {code : Nat} (fits : code < 0x10000) (criticality : UInt8) :
    (both (number 2) octet).Exact (code, criticality) :=
  ⟨exact_number.2 fits, trivial⟩

theorem write_paging (p : Paging) :
    (both (number 2) octet).write (24, 1) ++
      pagingFormat.write (p.guti.amf.set, p.guti.amf.pointer, p.guti.tmsi, p.tai) = p.octets := by
  have tai : (both plmnFormat (uint32 3)).write (p.tai.plmn, p.tai.tac) =
      plmnOctets p.tai.plmn ++ word 3 p.tai.tac.toNat := by
    rw [write_both, write_plmn]
    rfl
  show word 2 24 ++ [1] ++ (word 2 p.guti.amf.set.toNat ++ ([p.guti.amf.pointer] ++
    (word 4 p.guti.tmsi.toNat ++ (both plmnFormat (uint32 3)).write (p.tai.plmn, p.tai.tac)))) = _
  rw [tai]
  simp only [Paging.octets, List.append_assoc]

/-- **A message that fits is read as its builder and the fields that it encodes.** -/
theorem read?_octets {m : Message} (fits : m.Fits) : read? m.octets = some m.encoded := by
  cases m with
  | request ids r =>
    obtain ⟨ids_fit, fits⟩ := fits
    have code : r.procedure < 0x10000 ∧ r.procedure ≠ 24 := by
      cases r <;> simp [Request.procedure]
    have written : (Message.request ids r).octets =
        (both (number 2) octet).write (r.procedure, r.criticality) ++
          (idsFormat.write ids ++ r.content) := by
      show Request.octets ids r = word 2 r.procedure ++ [r.criticality] ++
        (word 8 ids.amf ++ word 8 ids.ran.toNat ++ r.content)
      simp only [Request.octets, List.append_assoc]
    have opening := Format.read_write _ (exact_opening code.1 r.criticality)
      (idsFormat.write ids ++ r.content)
    have exact : idsFormat.Exact ids := ⟨exact_number.2 ids_fit, exact_uint64 ids.ran⟩
    have identifiers := idsFormat.read_write exact r.content
    rw [written, read?, opening]
    simp [code.2, identifiers, Request.read?_content fits, Message.encoded]
  | paging p =>
    have exact : pagingFormat.Exact (p.guti.amf.set, p.guti.amf.pointer, p.guti.tmsi, p.tai) :=
      ⟨exact_uint16 _, trivial, exact_uint32.2 (UInt32.toNat_lt _), exact_plmn _,
        exact_uint32.2 fits⟩
    have opening := Format.read_write _ (exact_opening (show 24 < 0x10000 by decide) 1)
      (pagingFormat.write (p.guti.amf.set, p.guti.amf.pointer, p.guti.tmsi, p.tai))
    rw [write_paging] at opening
    show read? p.octets = _
    rw [read?, opening]
    exact map_whole? exact rfl

/-- **Messages that fit have the same octets exactly if they have the same builder and the same
encoded fields.** -/
theorem Message.octets_eq_iff {m m' : Message} (fits : m.Fits) (fits' : m'.Fits) :
    m.octets = m'.octets ↔ m.encoded = m'.encoded := by
  constructor
  · intro same
    have read := congrArg read? same
    rw [read?_octets fits, read?_octets fits'] at read
    exact Option.some.inj read
  · intro same
    cases m with
    | request ids r =>
      cases m' with
      | request => cases same; rfl
      | paging => cases same
    | paging p =>
      cases m' with
      | request => cases same
      | paging q =>
        show p.octets = q.octets
        rw [← write_paging, Sum.inr.inj same, write_paging]

end Ngap

/-! ## NAS transports -/

namespace Nas

open Format

/-- The units of two seconds of a back-off time, if there is one. -/
def units (backoff : Option UInt8) : Option UInt8 :=
  (backoff.filter (2 ≤ ·)).map (· / 2)

theorem backoffElement_eq (backoff : Option UInt8) : backoffElement backoff =
    match units backoff with
    | some n => [0x37, 1, n]
    | none => [] := by
  cases backoff with
  | none => rfl
  | some seconds =>
    by_cases long : 2 ≤ seconds <;> simp [backoffElement, units, Option.filter, long]

/-- The cause and the back-off time that end a message. -/
def elements? : Octets → Option (Option Cause × Option UInt8)
  | [] => some (none, none)
  | [0x37, 1, n] => some (none, some n)
  | [0x58, c] => some (some (.ofCode c), none)
  | [0x58, c, 0x37, 1, n] => some (some (.ofCode c), some n)
  | _ => none

theorem elements?_append (cause : Option Cause) (backoff : Option UInt8) :
    elements? (causeElement cause ++ backoffElement backoff) = some (cause, units backoff) := by
  rw [backoffElement_eq]
  cases cause with
  | none => cases units backoff <;> rfl
  | some c =>
    cases units backoff <;> exact congrArg (fun c => some (some c, _)) (Cause.ofCode_code c)

/-- The PSI, the container type, the payload, the cause and the back-off time of a transport. -/
def read? (xs : Octets) : Option (UInt8 × UInt8 × Octets × Option Cause × Option UInt8) :=
  match transportFormat.read xs with
  | some (([_, _, _, _, _, container], payload, [_, psi]), rest) =>
    (elements? rest).map fun (cause, backoff) => (psi, container, payload, cause, backoff)
  | _ => none

namespace Transport

variable {t t' : Transport}

/-- The payload fits its length. -/
def Fits (t : Transport) : Prop := t.payload.length ≤ 65535

/-- The fields that a transport encodes: the PSI, four bits of the container type, the payload, the
cause and the back-off time in units of two seconds. -/
def encoded (t : Transport) : UInt8 × UInt8 × Octets × Option Cause × Option UInt8 :=
  (t.psi, t.container % 16, t.payload, t.cause, units t.backoff)

/-- **A transport that fits is read as the fields that it encodes.** -/
theorem read?_octets (fits : t.Fits) : read? t.octets = some t.encoded := by
  have exact : transportFormat.Exact
      (header 0x68 ++ [t.container % 16], t.payload, [0x12, t.psi]) :=
    ⟨rfl, exact_counted_two.2 fits, rfl⟩
  have written : t.octets =
      transportFormat.write (header 0x68 ++ [t.container % 16], t.payload, [0x12, t.psi]) ++
        (causeElement t.cause ++ backoffElement t.backoff) := by
    simp [octets, transportFormat]
  rw [written, read?, transportFormat.read_write exact]
  show (elements? _).map _ = _
  rw [elements?_append]
  rfl

/-- **Transports that fit have the same octets exactly if they encode the same fields.** -/
theorem octets_eq_iff (fits : t.Fits) (fits' : t'.Fits) :
    t.octets = t'.octets ↔ t.encoded = t'.encoded := by
  constructor
  · intro same
    have read := congrArg read? same
    rw [read?_octets fits, read?_octets fits'] at read
    exact Option.some.inj read
  · intro same
    obtain ⟨psi, container, payload, cause, backoff⟩ :
      t.psi = t'.psi ∧ t.container % 16 = t'.container % 16 ∧ t.payload = t'.payload ∧
        t.cause = t'.cause ∧ units t.backoff = units t'.backoff := by
      simpa only [encoded, Prod.mk.injEq] using same
    simp only [octets, backoffElement_eq, psi, container, payload, cause, backoff]

end Transport

/-- The payload of a transport. -/
def payload? (xs : Octets) : Option Octets :=
  (read? xs).map fun fields => fields.2.2.1

theorem payload?_wrapSession {n1 : Octets} (fits : n1.length ≤ 65535) (psi : UInt8) :
    payload? (wrapSession psi n1) = some n1 := by
  rw [payload?, wrapSession, Transport.read?_octets (t := { psi, payload := n1 }) fits]
  rfl

end Nas

namespace Ngap

/-! ## What a session management function supplied -/

/-- The PDU session of a message, the message to the UE, and the information to the radio
network. -/
def Request.session? : Request → Option (UInt8 × Option Octets × Octets)
  | initialContextSetup _ _ _ _ item => some (item.psi, item.nas, item.n2)
  | resourceSetup item => some (item.psi, item.nas, item.n2)
  | resourceModify psi nas n2 => some (psi, some nas, n2)
  | resourceRelease psi nas n2 => some (psi, nas, n2)
  | _ => none

theorem Request.Fits.length_le {r : Request} {psi : UInt8} {nas : Option Octets} {n2 xs : Octets}
    (fits : r.Fits) (is : r.session? = some (psi, nas, n2)) (present : nas = some xs) :
    xs.length ≤ 65535 := by
  cases r with
  | downlinkNas | contextModification => cases is
  | initialContextSetup => cases is; exact fits.2.2.2.nas xs present
  | resourceModify => cases is; cases present; exact fits.1
  | resourceRelease => cases is; exact fits.1 xs present
  | resourceSetup => cases is; exact SetupItem.Fits.nas fits xs present

/-- The PDU session of a message, and what was supplied for it: the payload of the message to the
UE, if there is one, and the information to the radio network. -/
def supplied? (xs : Octets) : Option (UInt8 × Option Octets × Octets) :=
  match read? xs with
  | some (.inl (_, r)) =>
    match r.session? with
    | some (psi, none, n2) => some (psi, none, n2)
    | some (psi, some nas, n2) => (Nas.payload? nas).map fun n1 => (psi, some n1, n2)
    | none => none
  | _ => none

section Supplied

variable {ids : UeIds} {r : Request} {psi : UInt8} {n1 : Option Octets} {n2 : Octets}

/-- **What was supplied for a session is recovered from the message**, if the message to the UE is
wrapped for the session. -/
theorem supplied?_octets (fits : (Message.request ids r).Fits)
    (is : r.session? = some (psi, n1.map (Nas.wrapSession psi), n2)) :
    supplied? (r.octets ids) = some (psi, n1, n2) := by
  have there : read? (r.octets ids) = some (.inl (ids, r)) := read?_octets fits
  simp only [supplied?, there, is]
  cases n1 with
  | none => rfl
  | some n1 =>
    have short : (Nas.wrapSession psi n1).length ≤ 65535 := fits.2.length_le is rfl
    rw [Nas.length_wrapSession] at short
    show (Nas.payload? (Nas.wrapSession psi n1)).map _ = _
    rw [Nas.payload?_wrapSession (by omega)]
    rfl

theorem session?_setupRequest (c : Context) (u : Ue) (leg : Leg) (s : Session)
    (nas : Option Octets) :
    (Delivery.setupRequest c u leg s nas n2).session? = some (s.psi, nas, n2) := by
  unfold Delivery.setupRequest
  split <;> rfl

/-- What a command supplies; a modification has a message to the UE. -/
theorem session?_commandRequest {c : HeldCommand} (has : c.kind = .modification → c.n1.isSome) :
    (Delivery.commandRequest psi c).session? =
      some (psi, c.n1.map (Nas.wrapSession psi), c.n2) := by
  obtain ⟨kind, n1, n2⟩ := c
  cases kind with
  | modification =>
    obtain ⟨n1, rfl⟩ := Option.isSome_iff_exists.1 (has rfl)
    rfl
  | release => rfl

/-- What was supplied is recovered from the request that sets a session up on a leg. -/
theorem supplied?_setupRequest {c : Context} {u : Ue} {leg : Leg} {s : Session}
    (is : Delivery.setupRequest c u leg s (n1.map (Nas.wrapSession s.psi)) n2 = r)
    (fits : (Message.request ids r).Fits) : supplied? (r.octets ids) = some (s.psi, n1, n2) :=
  supplied?_octets fits (is ▸ session?_setupRequest c u leg s _)

/-- What was supplied is recovered from the request that carries a command. -/
theorem supplied?_commandRequest {c : HeldCommand} (has : c.kind = .modification → c.n1.isSome)
    (fits : (Message.request ids (Delivery.commandRequest psi c)).Fits) :
    supplied? ((Delivery.commandRequest psi c).octets ids) = some (psi, c.n1, c.n2) :=
  supplied?_octets fits (session?_commandRequest has)

end Supplied

/-- **Messages to the radio network and NAS transports are unambiguous.** Messages that fit have the
same octets exactly if they have the same builder and the same encoded fields; transports that fit
have the same octets exactly if they encode the same fields; and what was supplied for a session is
recovered from every message that sets it up, modifies it or releases it. -/
theorem unambiguous :
    (∀ m m' : Message, m.Fits → m'.Fits → (m.octets = m'.octets ↔ m.encoded = m'.encoded)) ∧
    (∀ t t' : Nas.Transport, t.Fits → t'.Fits →
      (t.octets = t'.octets ↔ t.encoded = t'.encoded)) ∧
    ∀ (ids : UeIds) (r : Request) (psi : UInt8) (n1 : Option Octets) (n2 : Octets),
      (Message.request ids r).Fits → r.session? = some (psi, n1.map (Nas.wrapSession psi), n2) →
      supplied? (r.octets ids) = some (psi, n1, n2) :=
  ⟨fun _ _ => Message.octets_eq_iff, fun _ _ => Nas.Transport.octets_eq_iff,
    fun _ _ _ _ _ => supplied?_octets⟩

/-- A session to be set up, with one octet for the UE. -/
def SetupItem.short : SetupItem :=
  { psi := 5, slice := ⟨1, some 0x010203⟩, nas := some (Nas.wrapSession 5 [0x2e]),
    n2 := [0x00, 0x7e] }

theorem SetupItem.fits_short : SetupItem.short.Fits where
  slice sd is := Option.some.inj is ▸ show (0x010203 : UInt32).toNat < 0x1000000 by decide
  nas xs is := Option.some.inj is ▸ show (Nas.wrapSession 5 [0x2e]).length ≤ 65535 by decide
  n2 := by decide

/-- The hypotheses are satisfiable: the messages that set a session up and release it have other
octets, so do a transport and the same one with a back-off time, and what the setup supplied is
recovered from it. -/
theorem unambiguous_short :
    (Message.request ⟨1, 2⟩ (.resourceSetup .short)).octets ≠
      (Message.request ⟨1, 2⟩ (.resourceRelease 5 none [0x00, 0x7e])).octets ∧
    Nas.Transport.octets { psi := 5, payload := [0x2e] } ≠
      Nas.Transport.octets { psi := 5, payload := [0x2e], backoff := some 9 } ∧
    supplied? (Request.octets ⟨1, 2⟩ (.resourceSetup .short)) =
      some (5, some [0x2e], [0x00, 0x7e]) := by
  have fits : (Message.request ⟨1, 2⟩ (.resourceSetup .short)).Fits :=
    ⟨by decide, SetupItem.fits_short⟩
  have release_fits : (Message.request ⟨1, 2⟩ (.resourceRelease 5 none [0x00, 0x7e])).Fits :=
    ⟨by decide, nofun, by decide⟩
  refine ⟨fun same => ?_, fun same => ?_, unambiguous.2.2 _ _ _ _ _ fits rfl⟩
  · cases (unambiguous.1 _ _ fits release_fits).1 same
  · have short (backoff : Option UInt8) :
        Nas.Transport.Fits { psi := 5, payload := [0x2e], backoff } :=
      show 1 ≤ 65535 by decide
    exact absurd ((unambiguous.2.1 _ _ (short none) (short (some 9))).1 same) (by decide)

end Ngap
end Amf
