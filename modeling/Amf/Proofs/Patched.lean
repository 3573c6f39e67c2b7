import Mathlib.Data.List.Basic
import Amf.Proofs.Committed
import Amf.Proofs.Numerals

/-!
# Patches of a policy

What a change of a document asks of a policy, said without the order in which the restrictions and
the bit rate are updated: one case of `Patches` for each kind of place and operation, where a list
is split around the item that is meant. A change succeeds exactly if a patch is defined, and comes to
this one (`apply_patches`). A change that is refused leaves the policy as it was, with one exception:
a whole document whose restrictions can be read and whose bit rate cannot (`apply_refused`).

| read from a value | |
| --- | --- |
| `IsNumeral` | a number in decimal digits |
| `IsIndex` | a position, or `-` for the end |
| `IsRat`, `IsRats` | an access technology, a list of them |
| `IsRate`, `IsAmbr` | a bit rate, an aggregate one |
-/

namespace Amf

namespace Subscription

open Document Text

/-! ## The reference -/

/-- The index names a position of a list: its end by `-`, any position by its number. -/
def IsIndex (index : String) (length i : Nat) : Prop :=
  index = "-" ∧ i = length ∨ IsNumeral index.toList i ∧ i < UInt64.size

/-- The value is the name of an access technology. -/
def IsRat (j : Json) (rat : RatType) : Prop := j = .str (Named.name rat)

/-- The value is a list of names of access technologies. -/
def IsRats (j : Json) (rats : List RatType) : Prop :=
  j = .arr (rats.map fun rat => .str (Named.name rat))

/-- The value is the text of a bit rate. -/
def IsRate (value : Option Json) (rate : UInt64) : Prop :=
  ∃ text, value = some (.str text) ∧ Bitrate.ofText? text = some rate

/-- The value is an aggregate bit rate: both directions, or nothing for unlimited ones. -/
def IsAmbr (value : Option Json) (a : Ambr) : Prop :=
  (value = none ∨ value = some .null) ∧ a = {} ∨
    ∃ members, value = some (.obj members) ∧ IsRate (members.lookup "uplink") a.uplink ∧
      IsRate (members.lookup "downlink") a.downlink

/-- The path leads to the place. -/
def Place.IsAt (path : String) : Place → Prop
  | document => path = ""
  | restrictions => path = "/ratRestrictions"
  | restriction index => path = "/ratRestrictions/" ++ index
  | ambr => path = "/subscribedUeAmbr"
  | uplink => path = "/subscribedUeAmbr/uplink"
  | downlink => path = "/subscribedUeAmbr/downlink"
  | other => path ≠ "" ∧ path ≠ "/ratRestrictions" ∧
      (∀ index, path ≠ "/ratRestrictions/" ++ index) ∧ path ≠ "/subscribedUeAmbr" ∧
      path ≠ "/subscribedUeAmbr/uplink" ∧ path ≠ "/subscribedUeAmbr/downlink"

/-- The operation puts its value at its place. -/
def Puts (op : ChangeType) : Prop := op = .add ∨ op = .replace

/-- The restrictions that a whole document leaves: those of its list, or the ones before if it has
none. -/
def IsList (members : List (String × Json)) (before rats : List RatType) : Prop :=
  members.lookup "ratRestrictions" = none ∧ rats = before ∨
    ∃ list, members.lookup "ratRestrictions" = some list ∧ IsRats list rats

/-- The policy that an operation makes of another with a value at a place. -/
inductive Patches (p : Policy) : ChangeType → Place → Option Json → Policy → Prop
  /-- A whole document has a bit rate, if only an unlimited one. -/
  | document {op members rats a} (puts : Puts op) (list : IsList members p.restrictions rats)
      (rate : IsAmbr (members.lookup "subscribedUeAmbr") a) :
      Patches p op .document (some (.obj members)) ⟨rats, a, true⟩
  /-- A list of restrictions takes the place of the one before. -/
  | restrictions {op j rats} (puts : Puts op) (list : IsRats j rats) :
      Patches p op .restrictions (some j) { p with restrictions := rats }
  /-- A restriction is added before the one at its position, or at the end. -/
  | insert {index j rat before after} (is : IsRat j rat) (split : p.restrictions = before ++ after)
      (named : IsIndex index p.restrictions.length before.length) :
      Patches p .add (.restriction index) (some j)
        { p with restrictions := before ++ rat :: after }
  /-- A restriction takes the place of the one at its position. -/
  | overwrite {index j rat before old after} (is : IsRat j rat)
      (split : p.restrictions = before ++ old :: after)
      (named : IsIndex index p.restrictions.length before.length) :
      Patches p .replace (.restriction index) (some j)
        { p with restrictions := before ++ rat :: after }
  /-- A replacement at the end, where there is nothing to replace, is an addition. -/
  | append {index j rat} (is : IsRat j rat)
      (named : IsIndex index p.restrictions.length p.restrictions.length) :
      Patches p .replace (.restriction index) (some j)
        { p with restrictions := p.restrictions ++ [rat] }
  /-- The restriction at a position is left out. -/
  | delete {index value before old after} (split : p.restrictions = before ++ old :: after)
      (named : IsIndex index p.restrictions.length before.length) :
      Patches p .remove (.restriction index) value { p with restrictions := before ++ after }
  /-- Without the document or its list there are no restrictions; the bit rate stays. -/
  | clear {place value} (place_eq : place = .document ∨ place = .restrictions) :
      Patches p .remove place value { p with restrictions := [] }
  /-- An aggregate bit rate takes the place of the one before. -/
  | ambr {op value a} (puts : Puts op) (rate : IsAmbr value a) :
      Patches p op .ambr value { p with ambr := a, ambrChanged := true }
  /-- One direction is changed, the other one stays. -/
  | uplink {op value r} (puts : Puts op) (rate : IsRate value r) :
      Patches p op .uplink value { p with ambr.uplink := r, ambrChanged := true }
  /-- One direction is changed, the other one stays. -/
  | downlink {op value r} (puts : Puts op) (rate : IsRate value r) :
      Patches p op .downlink value { p with ambr.downlink := r, ambrChanged := true }
  /-- What is removed of a bit rate is unlimited. -/
  | unlimited {value} : Patches p .remove .ambr value { p with ambr := {}, ambrChanged := true }
  /-- One direction is unlimited, the other one stays. -/
  | unlimitedUplink {value} :
      Patches p .remove .uplink value { p with ambr.uplink := 0, ambrChanged := true }
  /-- One direction is unlimited, the other one stays. -/
  | unlimitedDownlink {value} :
      Patches p .remove .downlink value { p with ambr.downlink := 0, ambrChanged := true }
  /-- No other place is kept, so that nothing changes there. -/
  | elsewhere {op value} : Patches p op .other value p
  /-- Nothing is moved. -/
  | move {place value} : Patches p .move place value p

variable {p q : Policy} {item : ChangeItem} {op : ChangeType} {path index : String}
  {value : Option Json} {j : Json} {rat : RatType} {rats rats' : List RatType} {a : Ambr}
  {replace : Bool} {length i : Nat}

/-! ## Values -/

theorem rat?_eq_ok_iff : rat? j = .ok rat ↔ IsRat j rat := by
  unfold IsRat
  constructor
  · intro read
    unfold rat? at read
    split at read
    · split at read
      · rename_i named
        cases read
        rw [Named.name_of_ofName? named]
      · cases read
    · cases read
  · rintro rfl
    simp only [rat?, RatType.ofName?_name]

theorem rats?_arr_eq_ok_iff {items : List Json} :
    items.mapM rat? = .ok rats ↔ items = rats.map fun rat => .str (Named.name rat) := by
  induction items generalizing rats with
  | nil =>
    rw [List.mapM_nil]
    constructor
    · rintro ⟨⟩
      rfl
    · intro is
      rw [List.map_eq_nil_iff.1 is.symm]
      rfl
  | cons j items ih =>
    rw [List.mapM_cons]
    constructor
    · intro read
      obtain ⟨rat, first, read⟩ := bind_eq_ok_iff.1 read
      obtain ⟨rest, others, read⟩ := bind_eq_ok_iff.1 read
      cases read
      rw [List.map_cons, rat?_eq_ok_iff.1 first, ← ih.1 others]
    · intro is
      obtain ⟨rat, rest, rfl, first, others⟩ := List.map_eq_cons_iff.1 is.symm
      refine bind_eq_ok_iff.2 ⟨rat, rat?_eq_ok_iff.2 first.symm, ?_⟩
      exact bind_eq_ok_iff.2 ⟨rest, ih.2 others.symm, rfl⟩

theorem rats?_eq_ok_iff : rats? j = .ok rats ↔ IsRats j rats := by
  unfold IsRats
  cases j with
  | arr items => exact rats?_arr_eq_ok_iff.trans (by rw [Json.arr.injEq])
  | _ => exact ⟨nofun, nofun⟩

theorem rate?_eq_ok_iff {rate : UInt64} : rate? value = .ok rate ↔ IsRate value rate := by
  unfold IsRate
  constructor
  · intro read
    unfold rate? at read
    split at read
    · rename_i text
      split at read
      · rename_i is
        cases read
        exact ⟨text, rfl, is⟩
      · cases read
    · cases read
  · rintro ⟨text, rfl, is⟩
    simp only [rate?, is]

theorem ambr?_eq_ok_iff : ambr? value = .ok a ↔ IsAmbr value a := by
  unfold IsAmbr
  constructor
  · intro read
    unfold ambr? at read
    split at read
    · cases read
      exact .inl ⟨.inl rfl, rfl⟩
    · cases read
      exact .inl ⟨.inr rfl, rfl⟩
    · obtain ⟨uplink, up, read⟩ := bind_eq_ok_iff.1 read
      obtain ⟨downlink, down, read⟩ := bind_eq_ok_iff.1 read
      cases read
      exact .inr ⟨_, rfl, rate?_eq_ok_iff.1 up, rate?_eq_ok_iff.1 down⟩
    · cases read
  · rintro (⟨rfl | rfl, rfl⟩ | ⟨members, rfl, up, down⟩)
    · rfl
    · rfl
    · refine bind_eq_ok_iff.2 ⟨_, rate?_eq_ok_iff.2 up, ?_⟩
      exact bind_eq_ok_iff.2 ⟨_, rate?_eq_ok_iff.2 down, rfl⟩

/-! ## Positions -/

theorem position?_eq_ok_iff : position? index length = .ok i ↔ IsIndex index length i := by
  unfold position? IsIndex
  rw [← readUnsigned?_eq_some_iff]
  by_cases is : index = "-"
  · subst is
    have none : readUnsigned? UInt64.size "-".toList = none := rfl
    rw [if_pos rfl, none]
    simp [eq_comm]
  · rw [if_neg is]
    cases readUnsigned? UInt64.size index.toList <;> simp [is]

section
variable {before after : List RatType}

theorem exists_append_of_le (within : i ≤ rats.length) :
    ∃ before after, rats = before ++ after ∧ i = before.length :=
  ⟨rats.take i, rats.drop i, (List.take_append_drop i rats).symm,
    (List.length_take_of_le within).symm⟩

theorem insertIdx_length_append :
    (before ++ after).insertIdx before.length rat = before ++ rat :: after := by
  induction before with
  | nil => rfl
  | cons first before ih => exact congrArg (first :: ·) ih

/-- An item is put between those before its position and those from it on, or takes the place of the
one at its position. -/
theorem putAt?_append (named : position? index (before ++ after).length = .ok before.length) :
    putAt? replace index rat (before ++ after) =
      .ok (before ++ rat :: if replace then after.tail else after) := by
  refine bind_eq_ok_iff.2 ⟨_, named, ?_⟩
  rw [insertIdx_length_append]
  cases replace with
  | false => simp [pure, Except.pure]
  | true => cases after <;> simp [pure, Except.pure]

/-- The item at a position is left out. -/
theorem removeAt?_append {old : RatType}
    (named : position? index (before ++ old :: after).length = .ok before.length) :
    removeAt? index (before ++ old :: after) = .ok (before ++ after) := by
  refine bind_eq_ok_iff.2 ⟨_, named, ?_⟩
  rw [if_pos (by simp), List.eraseIdx_append_of_length_le le_rfl, Nat.sub_self]
  rfl

end

theorem putAt?_eq_ok_iff : putAt? replace index rat rats = .ok rats' ↔
    ∃ before after, rats = before ++ after ∧ IsIndex index rats.length before.length ∧
      rats' = before ++ rat :: if replace then after.tail else after := by
  constructor
  · intro put
    obtain ⟨i, named, done⟩ := bind_eq_ok_iff.1 put
    have within : i ≤ rats.length := by
      simp only [Bool.and_eq_true, decide_eq_true_eq] at done
      split at done
      · omega
      · split at done
        · assumption
        · cases done
    obtain ⟨before, after, rfl, rfl⟩ := exists_append_of_le within
    rw [putAt?_append named] at put
    cases put
    exact ⟨before, after, rfl, position?_eq_ok_iff.1 named, rfl⟩
  · rintro ⟨before, after, rfl, named, rfl⟩
    exact putAt?_append (position?_eq_ok_iff.2 named)

theorem removeAt?_eq_ok_iff : removeAt? index rats = .ok rats' ↔
    ∃ before old after, rats = before ++ old :: after ∧ IsIndex index rats.length before.length ∧
      rats' = before ++ after := by
  constructor
  · intro removed
    obtain ⟨i, named, done⟩ := bind_eq_ok_iff.1 removed
    have within : i < rats.length := by
      split at done
      · assumption
      · cases done
    obtain ⟨before, _ | ⟨old, after⟩, rfl, rfl⟩ := exists_append_of_le within.le
    · simp at within
    · rw [removeAt?_append named] at removed
      cases removed
      exact ⟨before, old, after, rfl, position?_eq_ok_iff.1 named, rfl⟩
  · rintro ⟨before, old, after, rfl, named, rfl⟩
    exact removeAt?_append (position?_eq_ok_iff.2 named)

/-! ## Places -/

/-- A path begins with the prefix of the restrictions exactly if it leads to one of them. -/
theorem eq_append_iff : path = "/ratRestrictions/" ++ index ↔
    restrictionPrefix.isPrefixOf path.toList = true ∧
      String.ofList (path.toList.drop restrictionPrefix.length) = index := by
  have split : path = "/ratRestrictions/" ++ index ↔
      path.toList = restrictionPrefix ++ index.toList := by
    rw [← String.toList_inj, String.toList_append]
    rfl
  rw [split, List.isPrefixOf_iff_prefix, ← String.toList_inj, String.toList_ofList]
  constructor
  · intro is
    rw [is]
    exact ⟨⟨_, rfl⟩, List.drop_left⟩
  · rintro ⟨⟨rest, is⟩, named⟩
    rw [← is, List.drop_left] at named
    rw [← is, named]

theorem isAt_ofPath (path : String) : (Place.ofPath path).IsAt path := by
  unfold Place.ofPath
  split
  · assumption
  split
  · assumption
  split
  · assumption
  split
  · assumption
  split
  · assumption
  split
  · rename_i starts
    exact eq_append_iff.2 ⟨starts, rfl⟩
  · rename_i starts
    exact ⟨‹_›, ‹_›, fun index is => starts (eq_append_iff.1 is).1, ‹_›, ‹_›, ‹_›⟩

/-- No other place begins as a restriction does. -/
theorem ofPath_of_starts (starts : restrictionPrefix.isPrefixOf path.toList = true) :
    Place.ofPath path =
      .restriction (String.ofList (path.toList.drop restrictionPrefix.length)) := by
  unfold Place.ofPath
  rw [if_neg, if_neg, if_neg, if_neg, if_neg, if_pos starts]
  all_goals
    rintro rfl
    exact absurd starts (by decide)

/-- **A path leads to one place.** -/
theorem ofPath_eq_iff {place : Place} : Place.ofPath path = place ↔ place.IsAt path := by
  constructor
  · rintro rfl
    exact isAt_ofPath path
  · intro leads
    cases place with
    | other =>
      obtain ⟨document, list, item, rate, up, down⟩ := leads
      unfold Place.ofPath
      rw [if_neg document, if_neg list, if_neg rate, if_neg up, if_neg down, if_neg]
      exact fun starts => item _ (eq_append_iff.2 ⟨starts, rfl⟩)
    | restriction index =>
      obtain ⟨starts, named⟩ := eq_append_iff.1 leads
      rw [ofPath_of_starts starts, named]
    | _ =>
      obtain rfl : path = _ := leads
      rfl

/-! ## Patches -/

/-- The policy with what a change makes of its restrictions and, if it is one, of its bit rate. -/
def Policy.update (p : Policy) (restrictions : List RatType) : Option Ambr → Policy
  | none => { p with restrictions }
  | some ambr => { restrictions, ambr, ambrChanged := true }

section
variable {α : Type}

theorem Update.exec_lift_bind {x : Except ChangeError α} {f : α → Update} :
    Update.exec (liftM x >>= f) p = match x with
      | .error e => (.error e, p)
      | .ok b => (f b).exec p := by
  cases x <;> rfl

theorem Update.exec_get_bind {f : Policy → Update} : Update.exec (get >>= f) p = (f p).exec p := rfl

theorem Update.exec_modify_bind {f : Policy → Policy} {u : PUnit → Update} :
    Update.exec (modify f >>= u) p = (u ⟨⟩).exec (f p) := rfl

end

/-- The restrictions are updated before it is known whether the bit rate can be. -/
theorem exec_apply (names : item.path = some path) : (apply item).exec p =
    match checkDocument item.op (Place.ofPath path) item.newValue with
    | .error e => (.error e, p)
    | .ok () =>
      match restrictionsAfter? item.op (Place.ofPath path) item.newValue p.restrictions with
      | .error e => (.error e, p)
      | .ok rats =>
        match ambrAfter? item.op (Place.ofPath path) item.newValue p.ambr with
        | .error e => (.error e, { p with restrictions := rats })
        | .ok ambr => (.ok (), p.update rats ambr) := by
  unfold apply
  rw [names]
  simp only [Update.exec_lift_bind, Update.exec_get_bind, Update.exec_modify_bind]
  generalize Place.ofPath path = place
  cases checkDocument item.op place item.newValue with
  | error => rfl
  | ok =>
    dsimp only
    cases restrictionsAfter? item.op place item.newValue p.restrictions with
    | error => rfl
    | ok rats =>
      dsimp only
      cases ambrAfter? item.op place item.newValue p.ambr with
      | error => rfl
      | ok ambr => cases ambr <;> rfl

theorem checkDocument_eq_ok_iff {place : Place} : checkDocument op place value = .ok () ↔
    (Puts op → place = .document → ∃ members, value = some (.obj members)) := by
  unfold checkDocument Puts
  split <;> grind

theorem map_eq_ok_iff {ε α β : Type} {x : Except ε α} {f : α → β} {b : β} :
    x.map f = .ok b ↔ ∃ a, x = .ok a ∧ b = f a := by
  cases x <;> simp [Except.map, eq_comm]

section
variable {place : Place} {members : List (String × Json)} {rate : Option Ambr}

theorem restrictionsPut?_document : restrictionsPut? replace .document (some (.obj members)) rats =
    .ok rats' ↔ IsList members rats rats' := by
  unfold restrictionsPut? IsList
  simp only [Option.bind_some, Json.get?]
  cases members.lookup "ratRestrictions" with
  | none => simp [eq_comm]
  | some list => simp [rats?_eq_ok_iff]

theorem restrictionsPut?_restrictions : restrictionsPut? replace .restrictions value rats =
    .ok rats' ↔ ∃ j, value = some j ∧ IsRats j rats' := by
  refine rats?_eq_ok_iff.trans ?_
  cases value <;> simp [IsRats]

theorem restrictionsPut?_restriction : restrictionsPut? replace (.restriction index) value rats =
    .ok rats' ↔ ∃ j rat, value = some j ∧ IsRat j rat ∧
      ∃ before after, rats = before ++ after ∧ IsIndex index rats.length before.length ∧
        rats' = before ++ rat :: if replace then after.tail else after := by
  refine bind_eq_ok_iff.trans ?_
  simp only [rat?_eq_ok_iff, putAt?_eq_ok_iff]
  cases value <;> simp [IsRat]

theorem ambrPut?_uplink : ambrPut? .uplink value a = .ok rate ↔
    ∃ r, IsRate value r ∧ rate = some { a with uplink := r } :=
  map_eq_ok_iff.trans (by simp only [rate?_eq_ok_iff])

theorem ambrPut?_downlink : ambrPut? .downlink value a = .ok rate ↔
    ∃ r, IsRate value r ∧ rate = some { a with downlink := r } :=
  map_eq_ok_iff.trans (by simp only [rate?_eq_ok_iff])

theorem ambrPut?_ambr : ambrPut? .ambr value a = .ok rate ↔
    ∃ b, IsAmbr value b ∧ rate = some b :=
  map_eq_ok_iff.trans (by simp only [ambr?_eq_ok_iff])

theorem ambrPut?_document : ambrPut? .document (some (.obj members)) a = .ok rate ↔
    ∃ b, IsAmbr (members.lookup "subscribedUeAmbr") b ∧ rate = some b := by
  show ambrPut? .ambr (members.lookup "subscribedUeAmbr") a = .ok rate ↔ _
  exact ambrPut?_ambr

/-- Additions and replacements go the same way. -/
theorem after_of_puts (puts : Puts op) :
    (∃ replace, restrictionsAfter? op = restrictionsPut? replace) ∧ ambrAfter? op = ambrPut? := by
  obtain rfl | rfl := puts
  · exact ⟨⟨false, rfl⟩, rfl⟩
  · exact ⟨⟨true, rfl⟩, rfl⟩

/-- What is put at a place, other than a restriction at a position, is put alike by an addition and
by a replacement. -/
theorem patches_of_put (puts : Puts op) (single : ∀ index, place ≠ .restriction index)
    (check : checkDocument op place value = .ok ())
    (list : restrictionsAfter? op place value p.restrictions = .ok rats)
    (rated : ambrAfter? op place value p.ambr = .ok rate) :
    Patches p op place value (p.update rats rate) := by
  obtain ⟨⟨replace, list_eq⟩, rated_eq⟩ := after_of_puts puts
  rw [list_eq] at list
  rw [rated_eq] at rated
  cases place with
  | document =>
    obtain ⟨members, rfl⟩ := checkDocument_eq_ok_iff.1 check puts rfl
    obtain ⟨b, is, rfl⟩ := ambrPut?_document.1 rated
    exact .document puts (restrictionsPut?_document.1 list) is
  | restrictions =>
    cases rated
    obtain ⟨j, rfl, is⟩ := restrictionsPut?_restrictions.1 list
    exact .restrictions puts is
  | restriction index => exact absurd rfl (single index)
  | ambr =>
    cases list
    obtain ⟨b, is, rfl⟩ := ambrPut?_ambr.1 rated
    exact .ambr puts is
  | uplink =>
    cases list
    obtain ⟨r, is, rfl⟩ := ambrPut?_uplink.1 rated
    exact .uplink puts is
  | downlink =>
    cases list
    obtain ⟨r, is, rfl⟩ := ambrPut?_downlink.1 rated
    exact .downlink puts is
  | other =>
    cases list
    cases rated
    exact .elsewhere

/-- What an update comes to is a patch. -/
theorem patches_of_after (check : checkDocument op place value = .ok ())
    (list : restrictionsAfter? op place value p.restrictions = .ok rats)
    (rated : ambrAfter? op place value p.ambr = .ok rate) :
    Patches p op place value (p.update rats rate) := by
  cases op with
  | move =>
    cases list
    cases rated
    exact .move
  | remove =>
    cases rated
    cases place with
    | document =>
      cases list
      exact .clear (.inl rfl)
    | restrictions =>
      cases list
      exact .clear (.inr rfl)
    | restriction index =>
      obtain ⟨before, old, after, split, named, rfl⟩ := removeAt?_eq_ok_iff.1 list
      exact .delete split named
    | ambr =>
      cases list
      exact .unlimited
    | uplink =>
      cases list
      exact .unlimitedUplink
    | downlink =>
      cases list
      exact .unlimitedDownlink
    | other =>
      cases list
      exact .elsewhere
  | add =>
    cases place with
    | restriction index =>
      cases rated
      obtain ⟨j, rat, rfl, is, before, after, split, named, rfl⟩ :=
        restrictionsPut?_restriction.1 list
      exact .insert is split named
    | _ => exact patches_of_put (.inl rfl) nofun check list rated
  | replace =>
    cases place with
    | restriction index =>
      cases rated
      obtain ⟨j, rat, rfl, is, before, _ | ⟨old, after⟩, split, named, rfl⟩ :=
        restrictionsPut?_restriction.1 list
      · rw [List.append_nil] at split
        rw [← split] at named ⊢
        exact .append is named
      · exact .overwrite is split named
    | _ => exact patches_of_put (.inr rfl) nofun check list rated

/-- A patch is what an update comes to. -/
theorem after_of_patches (patches : Patches p op place value q) :
    checkDocument op place value = .ok () ∧ ∃ rats rate,
      restrictionsAfter? op place value p.restrictions = .ok rats ∧
        ambrAfter? op place value p.ambr = .ok rate ∧ q = p.update rats rate := by
  refine ⟨checkDocument_eq_ok_iff.2 fun puts whole => ?_, ?_⟩
  · cases patches with
    | document => exact ⟨_, rfl⟩
    | clear => exact absurd puts (by simp [Puts])
    | move => exact absurd puts (by simp [Puts])
    | _ => cases whole
  cases patches with
  | @document op members rats a puts list is =>
    obtain ⟨⟨replace, list_eq⟩, rated_eq⟩ := after_of_puts puts
    rw [list_eq, rated_eq]
    exact ⟨rats, some a, restrictionsPut?_document.2 list, ambrPut?_document.2 ⟨a, is, rfl⟩, rfl⟩
  | @restrictions op j rats puts is =>
    obtain ⟨⟨replace, list_eq⟩, rated_eq⟩ := after_of_puts puts
    rw [list_eq, rated_eq]
    exact ⟨rats, none, rats?_eq_ok_iff.2 is, rfl, rfl⟩
  | insert is split named | overwrite is split named =>
    refine ⟨_, none, restrictionsPut?_restriction.2 ?_, rfl, rfl⟩
    exact ⟨_, _, rfl, is, _, _, split, named, rfl⟩
  | append is named =>
    refine ⟨_, none, restrictionsPut?_restriction.2 ?_, rfl, rfl⟩
    exact ⟨_, _, rfl, is, _, [], (List.append_nil _).symm, named, rfl⟩
  | delete split named =>
    exact ⟨_, none, removeAt?_eq_ok_iff.2 ⟨_, _, _, split, named, rfl⟩, rfl, rfl⟩
  | clear place_eq => obtain rfl | rfl := place_eq <;> exact ⟨[], none, rfl, rfl, rfl⟩
  | @ambr op value a puts is =>
    obtain ⟨⟨replace, list_eq⟩, rated_eq⟩ := after_of_puts puts
    rw [list_eq, rated_eq]
    exact ⟨_, some a, rfl, ambrPut?_ambr.2 ⟨a, is, rfl⟩, rfl⟩
  | uplink puts is =>
    obtain ⟨⟨replace, list_eq⟩, rated_eq⟩ := after_of_puts puts
    rw [list_eq, rated_eq]
    exact ⟨_, _, rfl, ambrPut?_uplink.2 ⟨_, is, rfl⟩, rfl⟩
  | downlink puts is =>
    obtain ⟨⟨replace, list_eq⟩, rated_eq⟩ := after_of_puts puts
    rw [list_eq, rated_eq]
    exact ⟨_, _, rfl, ambrPut?_downlink.2 ⟨_, is, rfl⟩, rfl⟩
  | unlimited | unlimitedUplink | unlimitedDownlink => exact ⟨_, _, rfl, rfl, rfl⟩
  | elsewhere => cases op <;> exact ⟨_, none, rfl, rfl, rfl⟩
  | move => exact ⟨_, none, rfl, rfl, rfl⟩

end

/-- What a change has done if it was taken. -/
theorem apply_eq_ok_iff : (apply item).exec p = (.ok (), q) ↔
    ∃ path, item.path = some path ∧ Patches p item.op (Place.ofPath path) item.newValue q := by
  constructor
  · intro taken
    cases names : item.path with
    | none =>
      unfold apply at taken
      rw [names] at taken
      cases taken
    | some path =>
      rw [exec_apply names] at taken
      refine ⟨path, rfl, ?_⟩
      split at taken
      · cases taken
      rename_i check
      split at taken
      · cases taken
      rename_i list
      split at taken
      · cases taken
      rename_i rated
      cases taken
      exact patches_of_after check list rated
  · rintro ⟨path, names, patches⟩
    obtain ⟨check, rats, rate, list, rated, rfl⟩ := after_of_patches patches
    rw [exec_apply names, check, list, rated]

/-! ## The other field -/

/-- A path that begins as the one of the restrictions leads to no bit rate. -/
theorem ambrAfter?_of_starts
    (starts : "/ratRestrictions".toList.isPrefixOf path.toList = true) :
    ambrAfter? op (Place.ofPath path) value a = .ok none := by
  have leads := isAt_ofPath path
  generalize Place.ofPath path = place at leads ⊢
  cases place with
  | restrictions | restriction | other => cases op <;> rfl
  | _ =>
    obtain rfl : path = _ := leads
    exact absurd starts (by decide)

/-- A path that begins as the one of the bit rate leads to no restrictions. -/
theorem restrictionsAfter?_of_starts
    (starts : "/subscribedUeAmbr".toList.isPrefixOf path.toList = true) :
    restrictionsAfter? op (Place.ofPath path) value rats = .ok rats := by
  have leads := isAt_ofPath path
  generalize Place.ofPath path = place at leads ⊢
  cases place with
  | ambr | uplink | downlink | other => cases op <;> rfl
  | restriction index =>
    obtain rfl : path = _ := leads
    rw [String.toList_append] at starts
    cases starts
  | _ =>
    obtain rfl : path = _ := leads
    exact absurd starts (by decide)

theorem starts_append {first rest : String} :
    first.toList.isPrefixOf (first ++ rest).toList = true := by
  rw [String.toList_append, List.isPrefixOf_iff_prefix]
  exact List.prefix_append _ _

/-- **A change applies exactly the patch that it names**: it succeeds if and only if it names a
place and a patch of this place is defined by its operation and its value, and what it leaves then
is the patched policy. Whether or not it succeeds, a change of the restrictions leaves the bit rate
alone, and the mark of a changed one, and a change of the bit rate leaves the restrictions alone. -/
theorem apply_patches (p : Policy) (item : ChangeItem) :
    (∀ q, (apply item).exec p = (.ok (), q) ↔ ∃ path place, item.path = some path ∧
      place.IsAt path ∧ Patches p item.op place item.newValue q) ∧
    (∀ rest, item.path = some ("/ratRestrictions" ++ rest) →
      ((apply item).exec p).2.ambr = p.ambr ∧
        ((apply item).exec p).2.ambrChanged = p.ambrChanged) ∧
    ∀ rest, item.path = some ("/subscribedUeAmbr" ++ rest) →
      ((apply item).exec p).2.restrictions = p.restrictions := by
  refine ⟨fun q => ?_, fun rest names => ?_, fun rest names => ?_⟩
  · simp only [apply_eq_ok_iff, ← ofPath_eq_iff, exists_and_left, exists_eq_left']
  · rw [exec_apply names]
    split
    · exact ⟨rfl, rfl⟩
    split
    · exact ⟨rfl, rfl⟩
    · rw [ambrAfter?_of_starts starts_append]
      exact ⟨rfl, rfl⟩
  · rw [exec_apply names, restrictionsAfter?_of_starts starts_append]
    split
    · rfl
    dsimp only
    split
    · rfl
    · rename_i ambr _
      cases ambr <;> rfl

/-! ## Refusals -/

/-- The change puts a whole document whose restrictions can be read and whose bit rate cannot. -/
def HalfApplies (item : ChangeItem) (before rats : List RatType) : Prop :=
  Puts item.op ∧ item.path = some "" ∧ ∃ members, item.newValue = some (.obj members) ∧
    IsList members before rats ∧ ∀ a, ¬IsAmbr (members.lookup "subscribedUeAmbr") a

/-- A bit rate that cannot be read, after restrictions were changed, is that of a whole document. -/
theorem halfApplies_of_failed {why : ChangeError} (names : item.path = some path)
    (check : checkDocument item.op (Place.ofPath path) item.newValue = .ok ())
    (list : restrictionsAfter? item.op (Place.ofPath path) item.newValue p.restrictions = .ok rats)
    (failed : ambrAfter? item.op (Place.ofPath path) item.newValue p.ambr = .error why) :
    rats = p.restrictions ∨ HalfApplies item p.restrictions rats := by
  have puts : Puts item.op := by
    cases op : item.op with
    | add => exact .inl rfl
    | replace => exact .inr rfl
    | remove | move =>
      rw [op] at failed
      cases failed
  obtain ⟨⟨replace, list_eq⟩, failed_eq⟩ := after_of_puts puts
  rw [list_eq] at list
  rw [failed_eq] at failed
  have leads := isAt_ofPath path
  generalize Place.ofPath path = place at *
  cases place with
  | document =>
    obtain rfl : path = "" := leads
    obtain ⟨members, is⟩ := checkDocument_eq_ok_iff.1 check puts rfl
    rw [is] at list failed
    refine .inr ⟨puts, names, members, is, restrictionsPut?_document.1 list, fun a rate => ?_⟩
    rw [ambrPut?_document.2 ⟨a, rate, rfl⟩] at failed
    cases failed
  | restrictions | restriction | other => cases failed
  | ambr | uplink | downlink =>
    cases list
    exact .inl rfl

theorem exec_apply_of_halfApplies (half : HalfApplies item p.restrictions rats) :
    ∃ why, (apply item).exec p = (.error why, { p with restrictions := rats }) := by
  obtain ⟨puts, names, members, is, list, unread⟩ := half
  have whole : Place.ofPath "" = .document := rfl
  have check := checkDocument_eq_ok_iff.2 fun (_ : Puts item.op) (_ : Place.document = .document) =>
    ⟨members, is⟩
  obtain ⟨⟨replace, list_eq⟩, failed_eq⟩ := after_of_puts puts
  rw [exec_apply names, whole, check, list_eq, failed_eq, is, restrictionsPut?_document.2 list]
  cases rated : ambrPut? .document (some (.obj members)) p.ambr with
  | error why => exact ⟨why, rfl⟩
  | ok rate =>
    obtain ⟨a, rate, -⟩ := ambrPut?_document.1 rated
    exact absurd rate (unread a)

/-- **A change that is refused leaves the policy as it was, unless it half applies.** A whole
document whose restrictions can be read replaces them even if its bit rate cannot be read; no other
refusal changes anything, and none changes the bit rate or the mark of a changed one. -/
theorem apply_refused (p : Policy) (item : ChangeItem) :
    (∀ why q, (apply item).exec p = (.error why, q) → q = p ∨
      ∃ rats, HalfApplies item p.restrictions rats ∧ q = { p with restrictions := rats }) ∧
    ∀ rats, HalfApplies item p.restrictions rats →
      ∃ why, (apply item).exec p = (.error why, { p with restrictions := rats }) := by
  refine ⟨fun why q refused => ?_, fun rats half => exec_apply_of_halfApplies half⟩
  cases names : item.path with
  | none =>
    unfold apply at refused
    rw [names] at refused
    cases refused
    exact .inl rfl
  | some path =>
    rw [exec_apply names] at refused
    split at refused
    · cases refused
      exact .inl rfl
    rename_i check
    split at refused
    · cases refused
      exact .inl rfl
    rename_i rats list
    split at refused
    · rename_i failed
      cases refused
      obtain rfl | half := halfApplies_of_failed names check list failed
      · exact .inl rfl
      · exact .inr ⟨rats, half, rfl⟩
    · cases refused

/-- A whole document with a restriction and a number for a bit rate. -/
def halfDocument : ChangeItem where
  op := .replace
  path := some ""
  newValue := some (.obj [("ratRestrictions", .arr [.str "EUTRA"]), ("subscribedUeAmbr", .int 5)])

/-- A refused change does not always leave the policy as it was: `halfDocument` is refused for its
bit rate, and the restriction of the policy has become its own. -/
theorem not_apply_refused_untouched :
    ¬∀ (p q : Policy) (item : ChangeItem) (why : ChangeError),
      (apply item).exec p = (.error why, q) → q = p := by
  intro untouched
  have kept := untouched { restrictions := [.nr] } { restrictions := [.eutra] } halfDocument
    (.invalidType "subscribedUeAmbr") rfl
  cases kept

end Subscription
end Amf
