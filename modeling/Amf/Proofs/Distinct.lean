import Amf.Proofs.Identities
import Amf.Proofs.Numerals

/-!
# Temporary identities that are told apart

The text of a temporary identity is its parts one after the other, with nothing between them, and one of
them has two lengths. The others have one each, so the text is taken apart from both ends, and what is
left is the network code:

| part | characters | taken from |
| --- | --- | --- |
| country code | 3 | the front |
| network code | 2 or 3 | |
| AMF identifier | 6 | the end, after the TMSI |
| TMSI | 8 | the end |

So two identities have one text exactly if they agree in network, packed AMF identifier and TMSI
(`Guti.ueContextId_eq_iff`). Packing drops what is beyond the widths of set and pointer, and nothing of an
AMF identifier within them (`AmfId.packed_inj`). As long as all identities are within the widths, the UE
that is found by one has this one, and UEs with identities of their own are found by them
(`Operation.run_distinguishes`).
-/

namespace Amf

/-! ## Networks -/

namespace Plmn

variable {p q : Plmn}

theorem digitsOf_digitChar (ds : List (Fin 10)) : digitsOf (String.ofList (ds.map digitChar)) = ds := by
  have each : ∀ d, (Text.digit? (digitChar d)).map (Fin.ofNat 10) = some d := by decide
  have all : ((fun c => (Text.digit? c).map (Fin.ofNat 10)) ∘ digitChar) = some := funext each
  unfold digitsOf
  rw [String.toList_ofList, List.filterMap_map, all, List.filterMap_some]

/-- **A network is read back from its codes**, so every network is that of some codes. -/
theorem ofCodes_codes (p : Plmn) : ofCodes (String.ofList p.mcc) (String.ofList p.mnc) = p := by
  unfold ofCodes mcc mnc
  rw [digitsOf_digitChar, digitsOf_digitChar]
  obtain ⟨_, _, _, _, _, _ | _⟩ := p <;> rfl

/-- **Networks are told apart by their codes**, whether the network code has two digits or three. -/
theorem codes_inj (same : p.mcc ++ p.mnc = q.mcc ++ q.mnc) : p = q := by
  obtain ⟨mcc, mnc⟩ := List.append_inj same rfl
  rw [← ofCodes_codes p, mcc, mnc, ofCodes_codes]

end Plmn

/-! ## AMF identifiers -/

namespace AmfId

variable {a b : AmfId}

/-- Set and pointer are within their widths. -/
def Fits (a : AmfId) : Prop := a.set.toNat < 0x400 ∧ a.pointer.toNat < 0x40

instance (a : AmfId) : Decidable a.Fits := inferInstanceAs (Decidable (_ ∧ _))

/-- **AMF identifiers within their widths are told apart when they are packed.** -/
theorem packed_inj (fits : a.Fits) (fits' : b.Fits) (same : a.packed = b.packed) : a = b := by
  obtain ⟨set, pointer⟩ := fits
  obtain ⟨set', pointer'⟩ := fits'
  unfold packed at same
  rw [Nat.mod_eq_of_lt set, Nat.mod_eq_of_lt set', Nat.mod_eq_of_lt pointer,
    Nat.mod_eq_of_lt pointer'] at same
  have region : a.region = b.region := UInt8.toNat_inj.1 (by omega)
  have set : a.set = b.set := UInt16.toNat_inj.1 (by omega)
  have pointer : a.pointer = b.pointer := UInt8.toNat_inj.1 (by omega)
  cases a
  cases b
  simp only at region set pointer
  rw [region, set, pointer]

end AmfId

/-! ## Temporary identities -/

namespace Guti

variable {g h : Guti}

/-- The AMF identifier is within its widths. -/
def Fits (g : Guti) : Prop := g.amf.Fits

instance (g : Guti) : Decidable g.Fits := inferInstanceAs (Decidable g.amf.Fits)

/-- **What the text of a temporary identity tells**: network, packed AMF identifier, and TMSI. -/
theorem ueContextId_eq_iff : g.ueContextId = h.ueContextId ↔
    g.plmn = h.plmn ∧ g.amf.packed = h.amf.packed ∧ g.tmsi = h.tmsi := by
  constructor
  · intro same
    have code : g.code = h.code := by
      have chars := congrArg String.toList same
      unfold ueContextId at chars
      rw [String.toList_append, String.toList_append, String.toList_ofList, String.toList_ofList] at chars
      exact List.append_cancel_left chars
    have packed : ∀ i : Guti, (Text.zeroFill 6 (Text.hexadecimal i.amf.packed)).length = 6 := fun i =>
      Text.length_zeroFill_hexadecimal (by decide) i.amf.packed_lt
    have tmsi : ∀ i : Guti, (Text.zeroFill 8 (Text.hexadecimal i.tmsi.toNat)).length = 8 := fun i =>
      Text.length_zeroFill_hexadecimal (by decide) i.tmsi.toNat_lt
    unfold Guti.code at code
    -- The parts of one length go from the end, which leaves the two codes.
    obtain ⟨code, last⟩ := List.append_inj' code ((tmsi g).trans (tmsi h).symm)
    obtain ⟨codes, middle⟩ := List.append_inj' code ((packed g).trans (packed h).symm)
    exact ⟨Plmn.codes_inj codes, Text.zeroFill_hexadecimal_inj middle,
      UInt32.toNat_inj.1 (Text.zeroFill_hexadecimal_inj last)⟩
  · rintro ⟨plmn, packed, tmsi⟩
    unfold ueContextId Guti.code
    rw [plmn, packed, tmsi]

/-- **Temporary identities within their widths are told apart by their texts.** -/
theorem ueContextId_inj (fits : g.Fits) (fits' : h.Fits) (same : g.ueContextId = h.ueContextId) :
    g = h := by
  obtain ⟨plmn, packed, tmsi⟩ := ueContextId_eq_iff.1 same
  have amf := AmfId.packed_inj fits fits' packed
  cases g
  cases h
  simp only at plmn amf tmsi
  rw [plmn, amf, tmsi]

/-- Beyond the widths, identities may have one text. -/
example : ueContextId { amf := { set := 0x400 } } = ueContextId { amf := { set := 0 } } :=
  ueContextId_eq_iff.2 ⟨rfl, rfl, rfl⟩

end Guti

/-! ## Identities that UEs have -/

namespace Context

variable {c c' : Context} {u v : Nat} {g h : Guti}

/-- The temporary identity of a UE, if the UE is known and has one. -/
def gutiOf (c : Context) (u : Nat) : Option Guti := (c.ues.get? u).bind (·.guti)

theorem gutiOf_congr (same : (c'.ues.get? u).map (·.guti) = (c.ues.get? u).map (·.guti)) :
    c'.gutiOf u = c.gutiOf u := by
  have bound := congrArg (·.bind id) same
  simp only [Option.bind_map] at bound
  exact bound

theorem gutiOf_insert {x : Ue} (is : c'.ues = c.ues.insert v x) :
    c'.gutiOf u = if u = v then x.guti else c.gutiOf u := by
  unfold gutiOf
  rw [is, Table.get?_insert]
  split <;> rfl

theorem gutiOf_removeUe (has : (c.removeUe v).gutiOf u = some g) : c.gutiOf u = some g := by
  unfold removeUe at has
  split at has
  · exact has
  · obtain ⟨x, left, guti⟩ := Option.bind_eq_some_iff.1 has
    exact Option.bind_eq_some_iff.2 ⟨x, Table.get?_of_erase left, guti⟩

theorem gutiOf_setSupi {supi : String} : (c.setSupi v supi).gutiOf u = c.gutiOf u := by
  unfold setSupi
  split
  · rfl
  · rename_i known
    exact gutiOf_congr (Table.map_get?_insert known rfl)

theorem gutiOf_setGuti (has : (c.setGuti v h).gutiOf u = some g) :
    c.gutiOf u = some g ∨ u = v ∧ h = g := by
  unfold setGuti at has
  split at has
  · exact .inl has
  · rw [gutiOf_insert rfl] at has
    split at has
    · rename_i is
      exact .inr ⟨is, Option.some.inj has⟩
    · exact .inl has

theorem identityOf_temporary (c : Context) (u : Nat) :
    c.identityOf .temporary u = (c.gutiOf u).map Guti.ueContextId := by
  unfold identityOf namesOf gutiOf
  cases c.ues.get? u <;> rfl

end Context

namespace Operation

open Context

variable {os : List Operation} {n : Node} {u v k : Nat} {g h : Guti}

/-- **A UE has the temporary identity that it had, or the one that it is given.** -/
theorem gutiOf_apply (o : Operation) (has : (o.apply n).context.gutiOf u = some g) :
    n.context.gutiOf u = some g ∨ o = setGuti u g := by
  cases registers : o.registers with
  | false =>
    have names := (o.sameRegister (n := n) registers).names u
    unfold namesOf at names
    have same := congrArg (·.map (·.2)) names
    simp only [Option.map_map] at same
    exact .inl ((gutiOf_congr same).symm.trans has)
  | true =>
    cases o with
    | addUe =>
      refine .inl (of_addUe (P := fun d => d.gutiOf u = some g → n.context.gutiOf u = some g) id ?_ has)
      intro has
      rw [gutiOf_insert rfl] at has
      split at has
      · cases has
      · exact has
    | removeUe v => exact .inl (gutiOf_removeUe has)
    | setSupi v supi => exact .inl (gutiOf_setSupi.symm.trans has)
    | setGuti v h =>
      obtain had | ⟨rfl, rfl⟩ := gutiOf_setGuti has
      · exact .inl had
      · exact .inr rfl
    | addSession v psi =>
      have same : (addSession v psi |>.apply n).context.gutiOf u = n.context.gutiOf u :=
        of_addSession (P := fun d => d.gutiOf u = n.context.gutiOf u) rfl fun _ known =>
          gutiOf_congr (Table.map_get?_insert known rfl)
      exact .inl (same.symm.trans has)
    | _ => cases registers

/-- Before the first UE is added, none has a temporary identity; so those that UEs have were given in the
run. -/
theorem mem_of_gutiOf (none : ∀ u, n.context.gutiOf u = none)
    (has : (stateAt os n k).context.gutiOf u = some g) : setGuti u g ∈ os := by
  induction k with
  | zero =>
    rw [show (stateAt os n 0).context.gutiOf u = .none from none u] at has
    cases has
  | succ k ih =>
    cases at_ : os[k]? with
    | none =>
      rw [stateAt_succ_of_none at_] at has
      exact ih has
    | some o =>
      rw [stateAt_succ at_] at has
      obtain had | rfl := o.gutiOf_apply has
      · exact ih had
      · exact List.mem_of_getElem? at_

end Operation

/-! ## The index -/

namespace Context

variable {c : Context} {u : Nat} {g : Guti}

/-- The temporary identities of UEs are within their widths. -/
def Narrow (c : Context) : Prop := ∀ u g, c.gutiOf u = some g → g.Fits

/-- **Within the widths, a UE has a text for its temporary identity exactly if it has the identity.** -/
theorem Narrow.identityOf_iff (narrow : c.Narrow) (fits : g.Fits) :
    c.identityOf .temporary u = some g.ueContextId ↔ c.gutiOf u = some g := by
  rw [identityOf_temporary, Option.map_eq_some_iff]
  constructor
  · rintro ⟨h, has, same⟩
    rw [has, Guti.ueContextId_inj (narrow u h has) fits same]
  · exact fun has => ⟨g, has, rfl⟩

/-- **The UE that is found by a temporary identity has this one.** -/
theorem Indexed.gutiOf_of_findUe? (h : c.Indexed) (narrow : c.Narrow) (fits : g.Fits)
    (found : c.findUe? g.ueContextId = some u) : c.gutiOf u = some g := by
  rw [findUe?_of_isPrefixOf g.isPrefixOf_ueContextId] at found
  exact (narrow.identityOf_iff fits).1 (h.sound .temporary _ u found)

end Context

namespace Operation

open Context

variable {os : List Operation} {n : Node} {k : Nat}

/-- The index of temporary identities misses no UE, if no two UEs are given the same one. -/
theorem complete_stateAt (fits : ∀ u g, setGuti u g ∈ os → g.Fits)
    (apart : ∀ u v g, setGuti u g ∈ os → setGuti v g ∈ os → u = v)
    (none : ∀ u, n.context.gutiOf u = none) (registered : n.context.Registered) (k : Nat) :
    ((stateAt os n k).context.index .temporary).Complete
      ((stateAt os n k).context.identityOf .temporary) := by
  induction k with
  | zero =>
    intro u s held
    rw [identityOf_temporary, show (stateAt os n 0).context.gutiOf u = .none from none u] at held
    cases held
  | succ k ih =>
    cases at_ : os[k]? with
    | none =>
      rw [stateAt_succ_of_none at_]
      exact ih
    | some o =>
      have known : (stateAt os n k).context.Registered :=
        run_keeps (P := fun m => m.context.Registered) (fun o _ => o.registered) _ registered
      rw [stateAt_succ at_]
      cases o.renames known .temporary with
      | nobody index held =>
        rw [index, held]
        exact ih
      | somebody w new index held =>
        rw [index, held]
        refine (Index.complete_replace_iff ih).2 fun s v gave holds other => ?_
        rw [identityOf_temporary, Option.map_eq_some_iff] at gave holds
        obtain ⟨g, had, rfl⟩ := gave
        obtain ⟨h, has, same⟩ := holds
        have given := mem_of_gutiOf none had
        have given' := mem_of_gutiOf none has
        rw [Guti.ueContextId_inj (fits v h given') (fits w g given) same] at given'
        exact absurd (apart v w g given' given) other

/-- **Temporary identities are never confused.** Two of them within their widths have the same text only
if they are the same. So in every state of a run whose identities are within the widths, the UE that is
found by one has this one and no other; and if no two UEs are given the same one, each UE that has one is
found by it. -/
theorem run_distinguishes (config : Config) (metrics : Metrics) (links : Links) (os : List Operation)
    (fits : ∀ u g, setGuti u g ∈ os → g.Fits) :
    let n : Node := { context := config.context, metrics, links }
    (∀ g h : Guti, g.Fits → h.Fits → g.ueContextId = h.ueContextId → g = h) ∧
      (∀ k g u, g.Fits → (stateAt os n k).context.findUe? g.ueContextId = some u →
        (stateAt os n k).context.gutiOf u = some g) ∧
      ((∀ u v g, setGuti u g ∈ os → setGuti v g ∈ os → u = v) → ∀ k g u,
        (stateAt os n k).context.gutiOf u = some g →
          (stateAt os n k).context.findUe? g.ueContextId = some u) := by
  intro n
  have nobody : ∀ u, n.context.gutiOf u = none := fun _ => rfl
  have narrow : ∀ k, (stateAt os n k).context.Narrow := fun k u g has =>
    fits u g (mem_of_gutiOf nobody has)
  have start : n.context.Indexed := config.indexed_context
  have sound : ∀ k g u, g.Fits → (stateAt os n k).context.findUe? g.ueContextId = some u →
      (stateAt os n k).context.gutiOf u = some g := fun k g u fits found =>
    (run_keeps (P := fun m => m.context.Indexed) (fun o _ => o.indexed) _ start).gutiOf_of_findUe?
      (narrow k) fits found
  refine ⟨fun g h => Guti.ueContextId_inj, sound, fun apart k g u has => ?_⟩
  have complete := complete_stateAt fits apart nobody start.registered k
  obtain ⟨v, found, -⟩ := complete u _ (((narrow k).identityOf_iff (narrow k u g has)).2 has)
  have found' : (stateAt os n k).context.findUe? g.ueContextId = some v :=
    (findUe?_of_isPrefixOf g.isPrefixOf_ueContextId).trans found
  have has' := sound k g v (narrow k u g has) found'
  rw [found', apart v u g (mem_of_gutiOf nobody has') (mem_of_gutiOf nobody has)]

/-- The hypothesis is satisfiable: a UE of a network with a code of two digits and one of a network whose
code goes on with a third one are found by their identities. -/
theorem run_distinguishes_codes :
    let g : Guti := { plmn := .ofCodes "001" "01", amf := { region := 2, set := 1 }, tmsi := 1 }
    let h : Guti := { plmn := .ofCodes "001" "010", amf := { region := 2, set := 1 }, tmsi := 1 }
    let os : List Operation := [addUe, setGuti 1 g, addUe, setGuti 2 h]
    let c := (stateAt os { context := Config.context default } 4).context
    (∀ u g, setGuti u g ∈ os → g.Fits) ∧ g.ueContextId ≠ h.ueContextId ∧
      c.findUe? g.ueContextId = some 1 ∧ c.findUe? h.ueContextId = some 2 := by
  intro g h os c
  have given : ∀ u i, setGuti u i ∈ os → u = 1 ∧ i = g ∨ u = 2 ∧ i = h := by
    intro u i mem
    simpa [os] using mem
  have other : g ≠ h := by decide
  have fits : ∀ u i, setGuti u i ∈ os → i.Fits := by
    intro u i mem
    obtain ⟨-, rfl⟩ | ⟨-, rfl⟩ := given u i mem <;> decide
  have apart : ∀ u v i, setGuti u i ∈ os → setGuti v i ∈ os → u = v := by
    intro u v i mem mem'
    obtain ⟨rfl, is⟩ | ⟨rfl, is⟩ := given u i mem <;>
      obtain ⟨rfl, is'⟩ | ⟨rfl, is'⟩ := given v i mem'
    · rfl
    · exact absurd (is.symm.trans is') other
    · exact absurd (is'.symm.trans is) other
    · rfl
  obtain ⟨distinct, -, found⟩ := run_distinguishes default {} {} os fits
  exact ⟨fits, fun same => other (distinct g h (by decide) (by decide) same),
    found apart 4 g 1 (by decide), found apart 4 h 2 (by decide)⟩

end Operation
end Amf
