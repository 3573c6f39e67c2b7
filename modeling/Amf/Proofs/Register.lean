import Amf.Proofs.Sessions

/-!
# The register of UEs

Which UEs are known and by which names, the indices by which they are found, and the numbers of the
next UE and the next session. Only UEs that come and go, sessions that come, and names that are given
touch the register, so no step does (`Step.sameRegister`).
-/

namespace Amf

/-- The names of a UE. -/
def Ue.names (x : Ue) : Option String × Option Guti := (x.supi, x.guti)

/-- A measure of UEs that acts leave alone. -/
structure Ue.Fixed {β : Type} (g : Ue → β) : Prop where
  leg : ∀ x leg, g { x with leg } = g x
  sessions : ∀ x sessions, g { x with sessions } = g x
  paging : ∀ x pagingMessage, g { x with pagingMessage } = g x
  request : ∀ x deregistrationMessage, g { x with deregistrationMessage } = g x
  mark : ∀ x deregistration, g { x with deregistration } = g x
  policy : ∀ x restrictions ambr, g { x with restrictions, ambr } = g x

theorem Ue.fixed_names : Ue.Fixed Ue.names := by constructor <;> intros <;> rfl

namespace Context

variable {c c' : Context} {u : Nat}

/-- The names of a UE, if it is known. -/
def namesOf (c : Context) (u : Nat) : Option (Option String × Option Guti) :=
  (c.ues.get? u).map (·.names)

/-- The same UEs are known, by the same names and under the same entries. -/
structure SameRegister (c c' : Context) : Prop where
  supis : c'.supis = c.supis
  gutis : c'.gutis = c.gutis
  names : ∀ u, c'.namesOf u = c.namesOf u
  numbers : c'.nextNumbers = c.nextNumbers

theorem SameRegister.refl : SameRegister c c := ⟨rfl, rfl, fun _ => rfl, rfl⟩

theorem SameRegister.trans {c₁ c₂ c₃ : Context} (first : SameRegister c₁ c₂)
    (second : SameRegister c₂ c₃) : SameRegister c₁ c₃ :=
  ⟨second.supis.trans first.supis, second.gutis.trans first.gutis,
    fun u => (second.names u).trans (first.names u), second.numbers.trans first.numbers⟩

theorem SameRegister.of_legs (same : SameButLegs c c') (names : ∀ u, c'.namesOf u = c.namesOf u) :
    SameRegister c c' :=
  ⟨same.supis, same.gutis, names, same.numbers⟩

theorem sameRegister_quitPaging {timers : Timers} : SameRegister c (c.quitPaging u timers) :=
  ⟨rfl, rfl, fun _ => Table.map_get?_modify fun _ => rfl, rfl⟩

theorem sameRegister_park {clients : Clients} {pdu : Octets} {p : Parked} :
    SameRegister c ((c.withClients clients).park u pdu p) :=
  ⟨rfl, rfl, fun _ => Table.map_get?_modify fun _ => rfl, rfl⟩

/-- A session that goes leaves the register alone. -/
theorem sameRegister_removeSession {id : Nat} : SameRegister c (c.removeSession id) := by
  unfold removeSession
  split
  · exact .refl
  · exact ⟨rfl, rfl, fun _ => Table.map_get?_modify fun _ => rfl, rfl⟩

/-- A UE is known exactly if its names are. -/
theorem contains_ues_of_names (u : Nat) : c.ues.contains u = (c.namesOf u).isSome := by
  unfold Table.contains namesOf
  rw [Option.isSome_map]

theorem SameRegister.contains_ues (same : SameRegister c c') (u : Nat) :
    c'.ues.contains u = c.ues.contains u := by
  rw [contains_ues_of_names, same.names, ← contains_ues_of_names]

theorem SameRegister.findUe? (same : SameRegister c c') : c'.findUe? = c.findUe? := by
  unfold Context.findUe? findSupi?
  rw [same.supis, same.gutis]

/-! ## Numbers of UEs -/

/-- UEs have numbers that were given out. -/
def Registered (c : Context) : Prop := ∀ u, c.ues.contains u = true → u < c.nextUe

theorem Registered.of_same (same : SameRegister c c') (h : c.Registered) : c'.Registered := by
  intro u known
  rw [same.contains_ues] at known
  rw [(Prod.mk.inj same.numbers).1]
  exact h u known

/-- The number of the next UE is not in use. -/
theorem Registered.new (h : c.Registered) : c.ues.get? c.nextUe = none := by
  rw [← Option.not_isSome_iff_eq_none]
  exact fun known => Nat.lt_irrefl _ (h c.nextUe known)

end Context

/-! ## Steps -/

open Context

namespace Step

variable {a : Act} {n n' : Node}

/-- **What acts leave alone about UEs, every step keeps.** -/
theorem map_ues {β : Type} {g : Ue → β} (fixed : Ue.Fixed g) (step : Step a n n') (v : Nat) :
    (n'.context.ues.get? v).map g = (n.context.ues.get? v).map g := by
  cases step with
  | park => exact Table.map_get?_modify fun x => fixed.paging x _
  | deregister | forgetRequest => exact Table.map_get?_modify fun x => fixed.request x _
  | mark => exact Table.map_get?_modify fun x => fixed.mark x _
  | setPolicy => exact Table.map_get?_modify fun x => fixed.policy x _ _
  | repeatNothing _ lost => obtain ⟨-, rfl⟩ | ⟨-, rfl⟩ := lost <;> rfl
  | giveUp =>
    rw [Node.context_offerAll]
    exact Table.map_get?_modify fun x => fixed.paging x none
  | remove session =>
    rw [Node.context_uncount, Node.context_change, removeSession_of_some session]
    exact Table.map_get?_modify fun x => fixed.sessions x _
  | connect _ room => exact Node.map_ues_connect room fixed.leg fun x => fixed.paging x none
  | disconnect => exact (map_ues_removeLeg fixed.leg).trans (map_ues_deassociate fixed.leg)
  | detach =>
    rw [Node.context_change, Node.context_uncountLeg]
    refine map_ues_detach fixed.leg fun x => ?_
    exact (fixed.request { x with pagingMessage := none } none).trans (fixed.paging x none)
  | _ => rfl

/-- **No step touches the register.** -/
theorem sameRegister (step : Step a n n') : n.context.SameRegister n'.context := by
  have names : ∀ u, n'.context.namesOf u = n.context.namesOf u := step.map_ues Ue.fixed_names
  cases step with
  | repeatNothing _ lost =>
    obtain ⟨-, rfl⟩ | ⟨-, rfl⟩ := lost <;> exact ⟨rfl, rfl, names, rfl⟩
  | giveUp =>
    rw [Node.context_offerAll]
    exact sameRegister_quitPaging
  | remove => exact sameRegister_removeSession
  | connect _ room =>
    exact ⟨(Node.same_connect room).supis, (Node.same_connect room).gutis, names,
      (Node.same_connect room).numbers⟩
  | disconnect => exact .of_legs same_disconnect names
  | @detach _ u =>
    have same : n.context.SameButLegs (n.context.withoutLeg u) := same_withoutLeg
    rw [Node.context_change, Node.context_uncountLeg] at names ⊢
    refine ⟨?_, ?_, names, ?_⟩ <;> rw [detach_eq]
    · exact same.supis
    · exact same.gutis
    · exact same.numbers
  | _ => exact ⟨rfl, rfl, names, rfl⟩

end Step

theorem Chain.sameRegister {A : Act → Prop} {n n' : Node} (chain : Chain A n n') :
    n.context.SameRegister n'.context :=
  chain.keeps (P := fun m => n.context.SameRegister m.context)
    (fun _ _ _ _ step same => same.trans step.sameRegister) .refl

end Amf
