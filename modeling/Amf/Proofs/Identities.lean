import Amf.Proofs.Operation
import Mathlib.Logic.Function.Basic

/-!
# Finding UEs by their identities

A UE is found by its permanent and by its temporary identity, each through an index of its own. Two
UEs may claim one identity; the index then names the one that claimed it last. An entry goes when
the identity is taken from *any* UE, so what is found by an identity always has it
(`Operation.run_sound`), but a UE may become impossible to find: exactly if its identity is taken
from another UE that has it too (`Operation.complete_iff`).

| operation | entry of the UE's former identity | entry of its new identity | other entries |
| --- | --- | --- | --- |
| `removeUe` | none | | as before |
| `setSupi`, `setGuti` | none, unless it is the new one | the UE | as before |
| any other | as before | | as before |
-/

namespace Amf

/-! ## Indices -/

namespace Index

variable {x : Index} {held : Nat → Option String} {u : Nat} {new : Option String}

/-- What is found by a text holds the text. -/
def Sound (x : Index) (held : Nat → Option String) : Prop :=
  ∀ s u, x.get? s = some u → held u = some s

/-- By a text that is held, something that holds it is found. -/
def Complete (x : Index) (held : Nat → Option String) : Prop :=
  ∀ u s, held u = some s → ∃ v, x.get? s = some v ∧ held v = some s

/-- The index after a number has given up the text that it held, for another text or for none. -/
def replace (x : Index) (u : Nat) (old : Option String) : Option String → Index
  | none => Context.dropIdentity x old
  | some s => (Context.dropIdentity x old).insert s u

theorem get?_dropIdentity (old : Option String) (s : String) :
    (Context.dropIdentity x old).get? s = if old = some s then none else x.get? s := by
  cases old with
  | none => rfl
  | some t =>
    show (x.erase t).get? s = _
    rw [get?_erase]
    simp only [Option.some.injEq, eq_comm]

theorem get?_replace (old : Option String) (s : String) : (x.replace u old new).get? s =
    if new = some s then some u else if old = some s then none else x.get? s := by
  cases new with
  | none => exact get?_dropIdentity old s
  | some t =>
    show ((Context.dropIdentity x old).insert t u).get? s = _
    rw [get?_insert, get?_dropIdentity]
    simp only [Option.some.injEq, eq_comm]

/-- **An entry that is left is one of a number that still holds its text**: an entry goes with the
text that its number gives up. -/
theorem Sound.replace (sound : x.Sound held) (u : Nat) (new : Option String) :
    (x.replace u (held u) new).Sound (Function.update held u new) := by
  intro s v found
  rw [get?_replace] at found
  split at found
  · rename_i takes
    cases found
    rw [Function.update_self, takes]
  · split at found
    · cases found
    · rename_i kept
      have holds : held v = some s := sound s v found
      have other : v ≠ u := by
        rintro rfl
        exact kept holds
      rw [Function.update_of_ne other, holds]

/-- **A text can be looked up as before unless it is given up by one of several that hold it.** -/
theorem complete_replace_iff (complete : x.Complete held) :
    (x.replace u (held u) new).Complete (Function.update held u new) ↔
      ∀ s v, held u = some s → held v = some s → v ≠ u → new = some s := by
  constructor
  · intro complete' s v gave holds other
    refine Classical.byContradiction fun leaves => ?_
    obtain ⟨w, found, -⟩ := complete' v s (by rw [Function.update_of_ne other, holds])
    rw [get?_replace, if_neg leaves, if_pos gave] at found
    cases found
  · intro keeps v s holds
    by_cases takes : new = some s
    · refine ⟨u, ?_, by rw [Function.update_self, takes]⟩
      rw [get?_replace, if_pos takes]
    have other : v ≠ u := by
      rintro rfl
      rw [Function.update_self] at holds
      exact takes holds
    rw [Function.update_of_ne other] at holds
    -- The text is still held by `v`, so `u` did not give it up and its entry is the former one.
    have kept : held u ≠ some s := fun gave => takes (keeps s v gave holds other)
    obtain ⟨w, found, stays⟩ := complete v s holds
    have another : w ≠ u := by
      rintro rfl
      exact kept stays
    refine ⟨w, ?_, by rw [Function.update_of_ne another, stays]⟩
    rw [get?_replace, if_neg takes, if_neg kept, found]

end Index

/-! ## Identities -/

/-- The identities by which a UE is found. -/
inductive Identity where
  | permanent | temporary

/-- The text of an identity among the names of a UE, if the UE has it. -/
def Identity.text : Identity → Option String × Option Guti → Option String
  | permanent, names => names.1
  | temporary, names => names.2.map Guti.ueContextId

/-- The text of a temporary identity begins as such texts do. -/
theorem Guti.isPrefixOf_ueContextId (g : Guti) :
    scheme.toList.isPrefixOf g.ueContextId.toList = true := by
  unfold ueContextId
  rw [String.toList_append, List.isPrefixOf_iff_prefix]
  exact List.prefix_append _ _

namespace Context

variable {c c' : Context} {i : Identity} {u : Nat}

/-- The index for an identity. -/
def index (c : Context) : Identity → Index
  | .permanent => c.supis
  | .temporary => c.gutis

/-- The text of an identity of a UE, if the UE is known and has it. -/
def identityOf (c : Context) (i : Identity) (u : Nat) : Option String := (c.namesOf u).bind i.text

theorem identityOf_eq_some_iff {s : String} :
    c.identityOf i u = some s ↔ ∃ x, c.ues.get? u = some x ∧ i.text x.names = some s := by
  unfold identityOf namesOf
  cases c.ues.get? u with
  | none => exact ⟨nofun, fun ⟨_, hx, _⟩ => nomatch hx⟩
  | some x => exact ⟨fun h => ⟨x, rfl, h⟩, fun ⟨_, hx, h⟩ => Option.some.inj hx ▸ h⟩

/-- What becomes of an identity: nothing, or one UE gives it up, for another or for none, and the
index follows. -/
inductive Renames (i : Identity) (c c' : Context) : Prop
  | nobody (index : c'.index i = c.index i) (held : c'.identityOf i = c.identityOf i)
  | somebody (u : Nat) (new : Option String)
      (index : c'.index i = (c.index i).replace u (c.identityOf i u) new)
      (held : c'.identityOf i = Function.update (c.identityOf i) u new)

theorem Renames.of_same (same : SameRegister c c') : Renames i c c' := by
  refine .nobody ?_ (funext fun u => ?_)
  · cases i with
    | permanent => exact same.supis
    | temporary => exact same.gutis
  · unfold identityOf
    rw [same.names]

theorem Renames.refl : Renames i c c := .of_same .refl

theorem identityOf_of_some {x : Ue} (hx : c.ues.get? u = some x) :
    c.identityOf i u = i.text x.names := by
  unfold identityOf namesOf
  rw [hx]
  rfl

theorem identityOf_insert {x : Ue} {new : Option String} (is : c'.ues = c.ues.insert u x)
    (text : i.text x.names = new) : c'.identityOf i = Function.update (c.identityOf i) u new := by
  funext v
  unfold identityOf namesOf
  rw [is, Table.get?_insert]
  by_cases h : v = u
  · rw [if_pos h, h, Function.update_self]
    exact text
  · rw [if_neg h, Function.update_of_ne h]

/-- A UE in the place of one with the same identity changes nothing. -/
theorem identityOf_insert_same {x : Ue} (is : c'.ues = c.ues.insert u x)
    (same : i.text x.names = c.identityOf i u) : c'.identityOf i = c.identityOf i := by
  rw [identityOf_insert is same, Function.update_eq_self]

theorem identityOf_erase (is : c'.ues = c.ues.erase u) :
    c'.identityOf i = Function.update (c.identityOf i) u none := by
  funext v
  unfold identityOf namesOf
  rw [is, Table.get?_erase]
  by_cases h : v = u
  · rw [if_pos h, h, Function.update_self]
    rfl
  · rw [if_neg h, Function.update_of_ne h]

theorem renames_removeUe : Renames i c (c.removeUe u) := by
  cases hx : c.ues.get? u with
  | none =>
    rw [removeUe_of_none hx]
    exact .refl
  | some x =>
    rw [removeUe_of_some hx]
    refine .somebody u none ?_ (identityOf_erase rfl)
    rw [identityOf_of_some hx]
    cases i <;> rfl

theorem renames_setSupi {supi : String} : Renames i c (c.setSupi u supi) := by
  unfold setSupi
  split
  · exact .refl
  · rename_i x hx
    cases i with
    | permanent =>
      refine .somebody u (some supi) ?_ (identityOf_insert rfl rfl)
      rw [identityOf_of_some hx]
      rfl
    | temporary =>
      refine .nobody rfl (identityOf_insert_same rfl ?_)
      rw [identityOf_of_some hx]
      rfl

theorem renames_setGuti {guti : Guti} : Renames i c (c.setGuti u guti) := by
  unfold setGuti
  split
  · exact .refl
  · rename_i x hx
    cases i with
    | permanent =>
      refine .nobody rfl (identityOf_insert_same rfl ?_)
      rw [identityOf_of_some hx]
      rfl
    | temporary =>
      refine .somebody u (some guti.ueContextId) ?_ (identityOf_insert rfl rfl)
      rw [identityOf_of_some hx]
      rfl

end Context

namespace Operation

open Context

variable {o : Operation} {os : List Operation} {n : Node}

/-- **An operation changes an identity of one UE at most**, and the index with it. -/
theorem renames (o : Operation) (h : n.context.Registered) (i : Identity) :
    Renames i n.context (o.apply n).context := by
  cases registers : o.registers with
  | false => exact .of_same (o.sameRegister registers)
  | true =>
    cases o with
    | addUe =>
      refine of_addUe (P := Renames i n.context) .refl ?_
      have unnamed : i.text (Ue.names {}) = n.context.identityOf i n.context.nextUe := by
        unfold identityOf namesOf
        rw [h.new]
        cases i <;> rfl
      refine .nobody ?_ (identityOf_insert_same rfl unnamed)
      cases i <;> rfl
    | removeUe u => exact renames_removeUe
    | setSupi u supi => exact renames_setSupi
    | setGuti u guti => exact renames_setGuti
    | addSession u psi =>
      refine of_addSession (P := Renames i n.context) .refl fun x hx => ?_
      have same : i.text (Ue.names { x with
          sessions := x.sessions ++ [n.context.nextSession] }) = n.context.identityOf i u := by
        rw [identityOf_of_some hx]
        rfl
      refine .nobody ?_ (identityOf_insert_same rfl same)
      cases i <;> rfl
    | _ => cases registers

/-! ## What is found -/

/-- The operation takes an identity from a UE that another UE has as well. -/
def Forsakes (o : Operation) (n : Node) : Prop :=
  ∃ i u v s, v ≠ u ∧ n.context.identityOf i u = some s ∧ n.context.identityOf i v = some s ∧
    (o.apply n).context.identityOf i u ≠ some s

end Operation

/-- UEs have numbers that were given out, and each index names only UEs that have the identity. -/
structure Context.Indexed (c : Context) : Prop where
  registered : c.Registered
  sound : ∀ i, (c.index i).Sound (c.identityOf i)

/-- Where each index follows the identity that changes hands, what is found stays right. -/
theorem Context.Indexed.of_renames {c c' : Context} (h : c.Indexed) (registered : c'.Registered)
    (renames : ∀ i, Renames i c c') : c'.Indexed := by
  refine ⟨registered, fun i => ?_⟩
  cases renames i with
  | nobody index held =>
    rw [index, held]
    exact h.sound i
  | somebody u new index held =>
    rw [index, held]
    exact (h.sound i).replace u new

/-- Before the first UE is added, no index names one. -/
theorem Config.indexed_context (config : Config) : config.context.Indexed :=
  ⟨fun _ known => (nomatch known), fun i s u found => by cases i <;> cases found⟩

/-- **Every UE can be found by its own identities**: what is found by one is a UE that has it. -/
structure Context.Complete (c : Context) : Prop where
  supi : ∀ u x s, c.ues.get? u = some x → x.supi = some s →
    ∃ v y, c.findSupi? s = some v ∧ c.ues.get? v = some y ∧ y.supi = some s
  guti : ∀ u x g, c.ues.get? u = some x → x.guti = some g →
    ∃ v y h, c.findUe? g.ueContextId = some v ∧ c.ues.get? v = some y ∧ y.guti = some h ∧
      h.ueContextId = g.ueContextId

namespace Context

variable {c : Context}

theorem findUe?_of_isPrefixOf {k : String} (h : Guti.scheme.toList.isPrefixOf k.toList = true) :
    c.findUe? k = c.gutis.get? k := if_pos h

theorem complete_iff_index : c.Complete ↔ ∀ i, (c.index i).Complete (c.identityOf i) := by
  constructor
  · intro complete i u s holds
    obtain ⟨x, hx, text⟩ := identityOf_eq_some_iff.1 holds
    cases i with
    | permanent =>
      obtain ⟨v, y, found, hy, supi⟩ := complete.supi u x s hx text
      exact ⟨v, found, identityOf_eq_some_iff.2 ⟨y, hy, supi⟩⟩
    | temporary =>
      obtain ⟨g, guti, rfl⟩ := Option.map_eq_some_iff.1 text
      obtain ⟨v, y, h, found, hy, guti', same⟩ := complete.guti u x g hx guti
      rw [findUe?_of_isPrefixOf g.isPrefixOf_ueContextId] at found
      refine ⟨v, found, identityOf_eq_some_iff.2 ⟨y, hy, ?_⟩⟩
      exact Option.map_eq_some_iff.2 ⟨h, guti', same⟩
  · intro complete
    constructor
    · intro u x s hx supi
      obtain ⟨v, found, holds⟩ :=
        complete .permanent u s (identityOf_eq_some_iff.2 ⟨x, hx, supi⟩)
      obtain ⟨y, hy, supi'⟩ := identityOf_eq_some_iff.1 holds
      exact ⟨v, y, found, hy, supi'⟩
    · intro u x g hx guti
      have text : Identity.temporary.text x.names = some g.ueContextId :=
        Option.map_eq_some_iff.2 ⟨g, guti, rfl⟩
      obtain ⟨v, found, holds⟩ :=
        complete .temporary u g.ueContextId (identityOf_eq_some_iff.2 ⟨x, hx, text⟩)
      obtain ⟨y, hy, text'⟩ := identityOf_eq_some_iff.1 holds
      obtain ⟨h, guti', same⟩ := Option.map_eq_some_iff.1 text'
      refine ⟨v, y, h, ?_, hy, guti', same⟩
      rw [findUe?_of_isPrefixOf g.isPrefixOf_ueContextId]
      exact found

end Context

namespace Operation

open Context

variable {o : Operation} {os : List Operation} {n : Node}

/-- **No operation makes an index name a UE that does not have the identity.** -/
theorem indexed (o : Operation) (h : n.context.Indexed) : (o.apply n).context.Indexed :=
  h.of_renames (o.registered h.registered) (o.renames h.registered)

/-- **An operation leaves a UE impossible to find exactly if it takes the UE's identity from
another UE.** -/
theorem complete_apply_iff (registered : n.context.Registered) (complete : n.context.Complete) :
    (o.apply n).context.Complete ↔ ¬o.Forsakes n := by
  have complete := complete_iff_index.1 complete
  constructor
  · rintro complete' ⟨i, u, v, s, other, gave, holds, takes⟩
    have complete' := complete_iff_index.1 complete' i
    cases o.renames registered i with
    | nobody index held =>
      rw [held] at takes
      exact takes gave
    | somebody w new index held =>
      rw [index, held, Index.complete_replace_iff (complete i)] at complete'
      rw [held] at takes
      by_cases is : u = w
      · subst is
        rw [Function.update_self] at takes
        exact takes (complete' s v gave holds other)
      · rw [Function.update_of_ne is] at takes
        exact takes gave
  · intro keeps
    refine complete_iff_index.2 fun i => ?_
    cases o.renames registered i with
    | nobody index held =>
      rw [index, held]
      exact complete i
    | somebody u new index held =>
      rw [index, held, Index.complete_replace_iff (complete i)]
      intro s v gave holds other
      refine Classical.byContradiction fun takes => keeps ⟨i, u, v, s, other, gave, holds, ?_⟩
      rw [held, Function.update_self]
      exact takes

/-! ## Runs -/

/-- **UEs are found by their identities as long as none is taken from one of several, and no
longer.** From a context without UEs, every UE can be found by each of its identities in every state
of a run exactly if no operation of the run takes an identity from a UE that another UE has as
well. -/
theorem complete_iff (config : Config) (metrics : Metrics) (links : Links) (os : List Operation) :
    let n : Node := { context := config.context, metrics, links }
    (∀ k, (stateAt os n k).context.Complete) ↔
      ∀ (k : Nat) (o : Operation), os[k]? = some o → ¬o.Forsakes (stateAt os n k) := by
  intro n
  have registered : ∀ k, (stateAt os n k).context.Registered := fun k =>
    run_keeps (P := fun n => n.context.Registered) (fun o _ => o.registered) _
      (fun _ known => nomatch known)
  constructor
  · intro complete k o at_
    refine (complete_apply_iff (registered k) (complete k)).1 ?_
    rw [← stateAt_succ at_]
    exact complete (k + 1)
  · intro keeps k
    induction k with
    | zero => exact ⟨fun _ _ _ hx => (nomatch hx), fun _ _ _ hx => (nomatch hx)⟩
    | succ k ih =>
      cases at_ : os[k]? with
      | none =>
        rw [stateAt_succ_of_none at_]
        exact ih
      | some o =>
        rw [stateAt_succ at_]
        exact (complete_apply_iff (registered k) ih).2 (keeps k o at_)

/-- Two UEs claim one identity, and when the first of them goes the other cannot be found. -/
theorem not_complete_removed :
    ¬(run [addUe, setSupi 1 "imsi-1", addUe, setSupi 2 "imsi-1", removeUe 1]
      { context := Config.context default }).context.Complete := by
  intro complete
  obtain ⟨v, y, found, -⟩ := complete.supi 2 { supi := some "imsi-1" } "imsi-1" rfl rfl
  cases found

end Operation

/-! ## Requests -/

namespace Context

/-- A UE is known and has a name: as its temporary identity if the name begins like one, and else as
its permanent identity. -/
def Named (c : Context) (name : String) (u : Nat) : Prop :=
  ∃ x, c.ues.get? u = some x ∧
    if Guti.scheme.toList.isPrefixOf name.toList = true then
      ∃ g, x.guti = some g ∧ g.ueContextId = name
    else x.supi = some name

variable {c : Context} {u : Nat}

theorem Indexed.findSupi? (h : c.Indexed) {s : String} (found : c.findSupi? s = some u) :
    ∃ x, c.ues.get? u = some x ∧ x.supi = some s :=
  identityOf_eq_some_iff.1 (h.sound .permanent s u found)

theorem Indexed.findGuti? (h : c.Indexed) {k : String} (found : c.gutis.get? k = some u) :
    ∃ x g, c.ues.get? u = some x ∧ x.guti = some g ∧ g.ueContextId = k := by
  obtain ⟨x, hx, text⟩ := identityOf_eq_some_iff.1 (h.sound .temporary k u found)
  obtain ⟨g, guti, is⟩ := Option.map_eq_some_iff.1 text
  exact ⟨x, g, hx, guti, is⟩

/-- The UE that is found by a name has the name. -/
theorem Indexed.named (h : c.Indexed) {name : String} (found : c.findUe? name = some u) :
    c.Named name u := by
  unfold findUe? at found
  split at found
  · rename_i temporary
    obtain ⟨x, g, hx, guti, is⟩ := h.findGuti? found
    exact ⟨x, hx, by rw [if_pos temporary]; exact ⟨g, guti, is⟩⟩
  · rename_i permanent
    obtain ⟨x, hx, supi⟩ := h.findSupi? found
    exact ⟨x, hx, by rw [if_neg permanent]; exact supi⟩

end Context

/-- **What is found by an identity has it**, and so has the UE that a request comes to. -/
structure Node.Sound (n : Node) : Prop where
  supi : ∀ s u, n.context.findSupi? s = some u → ∃ x, n.context.ues.get? u = some x ∧ x.supi = some s
  guti : ∀ k u, Guti.scheme.toList.isPrefixOf k.toList = true → n.context.findUe? k = some u →
    ∃ x g, n.context.ues.get? u = some x ∧ x.guti = some g ∧ g.ueContextId = k
  /-- A request for a transfer is for a session of the UE that the path names. -/
  transfer : ∀ r o, ((Routing.transferOrder r).exec n).1 = .ok o →
    ∃ u psi, n.context.Named ((r.component? 1).getD "") u ∧
      n.context.findSession? u psi = some o.session
  /-- A request about a relocation is for the UE that the path names. -/
  relocation : ∀ name u, ((Relocation.findUe name).exec n).1 = .ok u →
    ∃ s, name = some s ∧ n.context.Named s u
  /-- A notification is for the UE of the permanent identity in the path. -/
  notification : ∀ supi u, ((Routing.findSupi supi).exec n).1 = .ok u →
    ∃ s x, supi = some s ∧ n.context.ues.get? u = some x ∧ x.supi = some s
  /-- A change of subscriber data is for the UE of the permanent identity in the resource. -/
  change : ∀ resource s u, Subscription.resourceUe? n.context resource = .ok (s, u) →
    ∃ x, n.context.ues.get? u = some x ∧ x.supi = some s

/-- A change of subscriber data is for the UE that is found by the permanent identity. -/
theorem Subscription.findSupi?_of_resourceUe? {c : Context} {resource s : String} {u : Nat}
    (found : resourceUe? c resource = .ok (s, u)) : c.findSupi? s = some u := by
  unfold resourceUe? at found
  split at found
  · cases found
  · split at found
    · cases found
    · rename_i known
      split at found
      · cases found
      · split at found
        · cases found
          exact known
        · cases found

theorem Node.sound_of_indexed {n : Node} (h : n.context.Indexed) : n.Sound where
  supi _ _ found := h.findSupi? found
  guti k u temporary found := by
    rw [Context.findUe?_of_isPrefixOf temporary] at found
    exact h.findGuti? found
  transfer r o ordered := by
    obtain ⟨u, psi, found, session, -⟩ := Routing.exists_of_transferOrder ordered
    exact ⟨u, psi, h.named found, session⟩
  relocation name u found := by
    obtain ⟨s, there, found⟩ := (Procedure.reads_need _ _).exec_bind_eq_ok.1 found
    rw [Procedure.exec_context_bind, Procedure.exec_need_eq_ok] at found
    exact ⟨s, Procedure.exec_need_eq_ok.1 there, h.named found⟩
  notification supi u found := by
    obtain ⟨s, there, found⟩ := (Procedure.reads_need _ _).exec_bind_eq_ok.1 found
    rw [Procedure.exec_context_bind, Procedure.exec_need_eq_ok] at found
    obtain ⟨x, hx, is⟩ := h.findSupi? found
    exact ⟨s, x, Procedure.exec_need_eq_ok.1 there, hx, is⟩
  change _ _ _ found := h.findSupi? (Subscription.findSupi?_of_resourceUe? found)

namespace Operation

/-- **What is found by an identity has it.** After any operations on a context without UEs, however
identities were given and taken, the UE that is found by a permanent identity is known and has it,
and so has the one that is found by the text of a temporary identity. So a request never comes to a
UE that is gone or that has another identity by now. -/
theorem run_sound (config : Config) (metrics : Metrics) (links : Links) (os : List Operation) :
    (run os { context := config.context, metrics, links }).Sound :=
  Node.sound_of_indexed (run_keeps (P := fun n => n.context.Indexed) (fun o _ => o.indexed) os
    config.indexed_context)

/-- An identity that two UEs claim finds the one that claimed it last. -/
example : (run [addUe, setSupi 1 "imsi-1", addUe, setSupi 2 "imsi-1"]
    { context := Config.context default }).context.findSupi? "imsi-1" = some 2 := by
  decide

end Operation
end Amf
