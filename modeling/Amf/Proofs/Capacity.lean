import Amf.Proofs.Deferred
import Amf.Proofs.Sharing

/-!
# Room for legs

A UE that connects gets its new leg before the former one is given up, so the legs have to fit when every
UE has one and one of them has two. An AMF takes twice as many legs as UEs, which is enough for any number
of UEs; but the double is taken in 64 bits. An AMF starts and, in runs that leave no leg without its UE,
puts every known UE that connects on a new leg exactly if the double is a number of 64 bits, whatever
becomes of one that is not (`Operation.connects_iff`).

| the most UEs | arithmetic | the most legs | a known UE that connects |
| --- | --- | --- | --- |
| `m`, with `2 * m < 2 ^ 64` | either | `2 * m` | has a new leg |
| `m`, with `2 * m ≥ 2 ^ 64` | wrapping | `2 * m - 2 ^ 64`, fewer than UEs | is idle if they are all taken |
| `m`, with `2 * m ≥ 2 ^ 64` | checked | none, for the start is broken off | none |
-/

namespace Amf

/-! ## Limits -/

namespace Context

variable {c c' : Context} {u k : Nat}

/-- The most UEs and the most legs. -/
def limits (c : Context) : Nat × Nat := (c.maxUes, c.maxLegs)

theorem limits_removeLeg : (c.removeLeg k).limits = c.limits := by
  unfold removeLeg
  split <;> rfl

theorem limits_deassociate : (c.deassociate u).limits = c.limits := by
  unfold deassociate
  split <;> rfl

theorem limits_associate : (c.associate u k).limits = c.limits := by
  unfold associate
  split <;> rfl

theorem limits_clearConnection : (c.clearConnection u).limits = c.limits := by
  unfold clearConnection
  split
  · rfl
  · exact limits_removeLeg.trans limits_deassociate

theorem limits_freeLeg : (c.freeLeg u).limits = c.limits := by
  unfold freeLeg
  split
  · exact limits_removeLeg
  · rfl

theorem limits_withoutLeg : (c.withoutLeg u).limits = c.limits := by
  unfold withoutLeg
  split
  · exact limits_clearConnection
  · rfl

theorem limits_removeSession : (c.removeSession k).limits = c.limits := by
  unfold removeSession
  split <;> rfl

theorem limits_removeUe : (c.removeUe u).limits = c.limits := by
  unfold removeUe
  split <;> rfl

theorem Registered.unknown (h : c.Registered) : c.ues.contains c.nextUe = false := by
  unfold Table.contains
  rw [h.new]
  rfl

theorem Names.limits (names : c.Names c') : c'.limits = c.limits := by
  cases names <;> rfl

end Context

open Context

variable {n n' : Node}

theorem Node.limits_connect {c : Context} {u k : Nat} {gnb ran : UInt64} {rat : RatType}
    (room : n.context.addLeg gnb ran = some (k, c)) :
    (n.connect c u k rat).context.limits = n.context.limits := by
  obtain ⟨-, -, rfl⟩ := addLeg_eq_some_iff.1 room
  rw [context_connect]
  exact limits_associate.trans limits_freeLeg

/-- **No step changes how many UEs and legs there may be.** -/
theorem Step.limits {a : Act} (step : Step a n n') : n'.context.limits = n.context.limits := by
  cases step with
  | repeatNothing _ lost => obtain ⟨-, rfl⟩ | ⟨-, rfl⟩ := lost <;> rfl
  | giveUp =>
    rw [Node.context_offerAll]
    rfl
  | remove => exact limits_removeSession
  | connect _ room => exact Node.limits_connect room
  | disconnect => exact limits_removeLeg.trans limits_deassociate
  | detach =>
    rw [Node.context_change, Node.context_uncountLeg, detach_eq]
    exact limits_withoutLeg
  | _ => rfl

theorem Chain.limits {A : Act → Prop} (chain : Chain A n n') :
    n'.context.limits = n.context.limits :=
  chain.keeps (P := fun m => m.context.limits = n.context.limits)
    (fun _ _ _ _ step same => step.limits.trans same) rfl

theorem Node.Begins.limits (begins : n.Begins n') : n'.context.limits = n.context.limits := by
  cases begins with
  | answer u =>
    rw [Node.context_answer]
    rfl
  | _ => rfl

theorem LegOperation.limits (o : LegOperation) {c : Context} : (o.apply c).limits = c.limits := by
  cases o with
  | add gnb ranId =>
    refine of_addLeg (P := fun d => d.limits = c.limits) rfl fun _ room => ?_
    rw [(addLeg_eq_some_iff.1 room).2.2]
    rfl
  | remove leg => exact limits_removeLeg
  | associate u leg => exact limits_associate
  | deassociate u => exact limits_deassociate
  | clear u => exact limits_clearConnection

namespace Operation

/-- **No operation changes how many UEs and legs there may be.** -/
theorem limits (o : Operation) : (o.apply n).context.limits = n.context.limits := by
  cases o with
  | addUe => exact of_addUe (P := fun d => d.limits = n.context.limits) rfl rfl
  | removeUe u => exact limits_removeUe
  | setSupi u supi => exact names_setSupi.limits
  | setGuti u guti => exact names_setGuti.limits
  | addSession u psi =>
    exact of_addSession (P := fun d => d.limits = n.context.limits) rfl fun _ _ => rfl
  | removeSession id => exact limits_removeSession
  | onLegs o => exact o.limits
  | handle | perform | page | answer =>
    exact of_drives (P := fun m => m.context.limits = n.context.limits) rfl fun begins chain =>
      chain.limits.trans begins.limits

/-! ## UEs -/

/-- **There are never more UEs than there may be.** -/
theorem few (o : Operation) (known : n.context.Registered) (h : n.context.ues.size ≤ n.context.maxUes) :
    (o.apply n).context.ues.size ≤ (o.apply n).context.maxUes := by
  have most : (o.apply n).context.maxUes = n.context.maxUes := congrArg Prod.fst o.limits
  rw [most]
  cases registers : o.registers with
  | false =>
    have same := o.sameRegister (n := n) registers
    rw [Table.size_congr same.contains_ues]
    exact h
  | true =>
    have named : ∀ {c}, n.context.Names c → c.ues.size ≤ n.context.maxUes := by
      intro c names
      cases names with
      | nothing => exact h
      | name there => exact Nat.le_trans (Nat.le_of_eq (Table.size_insert_of_known there)) h
    cases o with
    | addUe =>
      show (n.context.addUe.elim n.context (·.2)).ues.size ≤ _
      unfold Context.addUe
      split
      · exact h
      · rename_i room
        show (n.context.ues.insert _ _).size ≤ _
        rw [Table.size_insert_of_new known.unknown]
        omega
    | removeUe u =>
      show (n.context.removeUe u).ues.size ≤ _
      unfold Context.removeUe
      split
      · exact h
      · exact Nat.le_trans Table.size_erase_le h
    | setSupi u supi => exact named names_setSupi
    | setGuti u guti => exact named names_setGuti
    | addSession u psi =>
      exact of_addSession (P := fun c => c.ues.size ≤ n.context.maxUes) h fun _ there =>
        Nat.le_trans (Nat.le_of_eq (Table.size_insert_of_known there)) h
    | _ => cases registers

end Operation

/-! ## Legs -/

namespace Context

variable {c c' : Context} {u k : Nat}

/-- A UE without a leg leaves none behind. -/
theorem Leaves.sameLinks (leaves : c.Leaves u c') (numbers : c'.legNumbers = c.legNumbers)
    (unused : (c.ues.get? u).bind (·.leg) = none) : c.SameLinks c' := by
  refine ⟨fun v => ?_, fun k => by rw [leaves.legs, unused], numbers⟩
  rw [leaves.uses v]
  split
  · rename_i is
    rw [is, unused]
  · rfl

theorem Joined.removeLeg (h : c.Joined) : (c.removeLeg k).Joined := by
  cases there : c.legs.get? k with
  | none =>
    unfold Context.removeLeg
    rw [there]
    exact h
  | some l =>
    obtain ⟨u, serves⟩ := Option.ne_none_iff_exists'.1 (h.serves k l there)
    have leg := h.paired.legOf?_eq_some_iff.2 ⟨there, serves⟩
    rw [h.paired.removeLeg_eq leg]
    exact h.unlink leg

theorem Joined.clearConnection (h : c.Joined) : (c.clearConnection u).Joined := by
  cases leg : c.legOf? u with
  | none =>
    unfold Context.clearConnection
    rw [h.paired.uses_of_none leg]
    exact h
  | some has =>
    have cleared : c.clearConnection u = c.withoutLeg u := by
      unfold withoutLeg
      rw [leg]
      rfl
    rw [cleared, h.paired.withoutLeg_eq]
    exact h.freeLeg

end Context

namespace Operation

/-- The operation leaves a leg behind that serves nobody, or adds one or puts a UE on one outside of an
event. -/
def Strands : Operation → Node → Prop
  | removeUe u, n | onLegs (.deassociate u), n => n.context.connection u = .connected
  | onLegs (.add ..), _ | onLegs (.associate ..), _ => True
  | _, _ => False

/-- **An operation that strands no leg keeps legs and UEs pointing at each other.** -/
theorem joined_of_not_strands (o : Operation) (known : n.context.Registered) (h : n.context.Joined)
    (serves : ¬o.Strands n) : (o.apply n).context.Joined := by
  have unused : ∀ {u}, n.context.connection u ≠ .connected →
      (n.context.ues.get? u).bind (·.leg) = none := fun idle =>
    h.paired.uses_of_none (Option.not_isSome_iff_eq_none.1 fun has =>
      idle (connection_eq_connected.2 has))
  cases counts : o.countsLegs with
  | true => exact o.joined counts known h
  | false =>
    cases o with
    | removeUe u => exact (leaves_removeUe.sameLinks drops_removeUe.numbers (unused serves)).joined h
    | onLegs o =>
      cases o with
      | add | associate => exact absurd trivial serves
      | remove leg => exact h.removeLeg
      | deassociate u =>
        exact (leaves_deassociate.sameLinks drops_deassociate.numbers (unused serves)).joined h
      | clear u => exact h.clearConnection
    | _ => cases counts

end Operation

namespace Context

variable {c : Context} {u : Nat}

/-- Every leg serves a UE, and there are no more UEs than there may be. -/
structure Housed (c : Context) : Prop where
  registered : c.Registered
  joined : c.Joined
  few : c.ues.size ≤ c.maxUes

/-- **There are no more legs than UEs.** -/
theorem Housed.size_legs_le (h : c.Housed) : c.legs.size ≤ c.ues.size := by
  rw [h.joined.size_legs, ← Table.length_keys]
  exact List.length_filter_le _ _

/-- **Where there may be twice as many legs as UEs, there is room for one more leg** as soon as there is a
UE. -/
theorem Housed.room (h : c.Housed) (double : c.maxLegs = 2 * c.maxUes)
    (known : c.ues.contains u = true) : c.legs.size < c.maxLegs := by
  have legs := h.size_legs_le
  have few := h.few
  have some : 0 < c.ues.size := Nat.lt_of_lt_of_eq (Nat.succ_pos _) (Table.size_erase_of_mem known).symm
  omega

end Context

theorem Operation.housed (o : Operation) (h : n.context.Housed) (serves : ¬o.Strands n) :
    (o.apply n).context.Housed :=
  ⟨o.registered h.registered, o.joined_of_not_strands h.registered h.joined serves,
    o.few h.registered h.few⟩

/-! ## Deliveries -/

open Procedure

/-- A request is handed to the radio network on a leg, or held back on a session. -/
def Node.Hands (n n' : Node) (session : Nat) (l : Leg) (r : Ngap.Request) : Prop :=
  n'.links.offered = n.links.offered ++ [l.message r] ∨
    (n'.context.sessions.get? session).bind (·.heldSetup) = some (r.octets l.ids)

/-- **A setup marks the leg that its request is made for**, or does nothing at all. -/
theorem Delivery.setup_cases (id : Nat) (nas : Option Octets) (n2 : Octets) (n : Node) :
    ((Delivery.setup id nas n2).exec n).2 = n ∨
      ∃ s x k l, n.context.legOf? s.ue = some (k, l) ∧
        ((Delivery.setup id nas n2).exec n).2.context.legs = (n.context.markSetup k).legs ∧
        n.Hands ((Delivery.setup id nas n2).exec n).2 id l (setupRequest n.context x l s nas n2) := by
  cases session : n.context.sessions.get? id with
  | none =>
    unfold Delivery.setup
    rw [exec_bind_of_error (exec_session_of_none session)]
    exact .inl rfl
  | some s =>
    cases ue : n.context.ues.get? s.ue with
    | none =>
      unfold Delivery.setup
      rw [exec_bind_of_ok (exec_session_of_some session), exec_bind_of_error (exec_ue_of_none ue)]
      exact .inl rfl
    | some x =>
      cases leg : n.context.legOf? s.ue with
      | none =>
        unfold Delivery.setup
        rw [exec_bind_of_ok (exec_session_of_some session), exec_bind_of_ok (exec_ue_of_some ue),
          exec_bind_of_error (exec_legOf_of_none leg)]
        exact .inl rfl
      | some has =>
        obtain ⟨k, l⟩ := has
        refine .inr ⟨s, x, k, l, leg, ?_⟩
        rw [exec_setup nas n2 session ue leg]
        simp only
        split
        · rw [exec_emitOn]
          exact ⟨rfl, .inl (Links.offered_offer _ _)⟩
        · refine ⟨rfl, .inr ?_⟩
          show ((n.context.sessions.modify id _).get? id).bind _ = _
          rw [Table.get?_modify_of_some session]
          rfl

namespace Paging

variable {m : Node} {u k : Nat} {l : Leg} {p : Parked}

/-- The act of a delivery: a message leaves, or is held back. -/
def Delivers : Act → Prop
  | .tell .. | .setUp _ | .holdSetup _ | .holdCommand _ => True
  | _ => False

theorem delivers_chain (u : Nat) (p : Parked) (m : Node) :
    Chain Delivers m ((deliver u p).exec m).2 :=
  deliver_chain (fun _ _ _ _ => trivial) (fun _ _ _ => ⟨trivial, trivial⟩) fun _ => trivial

/-- A delivery leaves UEs, what is parked, and which UE uses which leg alone. -/
theorem same_deliver (u : Nat) (p : Parked) (m : Node) :
    ((deliver u p).exec m).2.context.ues = m.context.ues ∧
      ((deliver u p).exec m).2.context.parked = m.context.parked ∧
      ∀ j, ((deliver u p).exec m).2.context.legs.contains j = m.context.legs.contains j := by
  refine (delivers_chain u p m).keeps (P := fun m' => m'.context.ues = m.context.ues ∧
    m'.context.parked = m.context.parked ∧
    ∀ j, m'.context.legs.contains j = m.context.legs.contains j) ?_ ⟨rfl, rfl, fun _ => rfl⟩
  intro a n n' may step same
  cases step with
  | tell | holdCommand => exact same
  | setUp | holdSetup =>
    exact ⟨same.1, same.2.1, fun j => Table.contains_modify.trans (same.2.2 j)⟩
  | _ => exact may.elim

/-- **A delivery marks one leg at most**, and that only for the setup that was parked. -/
theorem legs_deliver (u : Nat) (p : Parked) (m : Node) :
    ((deliver u p).exec m).2.context.legs = m.context.legs ∨
      ∃ nas n2 s x k l, p.payload = .setup nas n2 ∧ m.context.legOf? s.ue = some (k, l) ∧
        ((deliver u p).exec m).2.context.legs = (m.context.markSetup k).legs ∧
        m.Hands ((deliver u p).exec m).2 p.session l
          (Delivery.setupRequest m.context x l s nas n2) := by
  have command : ∀ c, ((Delivery.commandOrHold u p.session c).exec m).2.context.legs =
      m.context.legs := by
    intro c
    have chain := Delivery.commandOrHold_chain (u := u) (n := m) (c := c)
      (A := fun a => (∃ v r, a = .tell v r) ∨ a = .holdCommand p.session)
      (fun s _ r _ => .inl ⟨s.ue, r, rfl⟩) fun _ => .inr rfl
    refine chain.keeps (P := fun m' => m'.context.legs = m.context.legs) ?_ rfl
    intro a n n' may step same
    obtain ⟨v, r, rfl⟩ | rfl := may <;> cases step <;> exact same
  unfold deliver
  cases payload : p.payload with
  | setup nas n2 =>
    obtain same | ⟨s, x, k, l, leg, marked, hands⟩ := Delivery.setup_cases p.session nas n2 m
    · exact .inl (congrArg (·.context.legs) same)
    · exact .inr ⟨nas, n2, s, x, k, l, rfl, leg, marked, hands⟩
  | modify | release => exact .inl (command _)

/-- **The leg of a UE after a delivery** is as before, or marked for the setup that was parked. -/
theorem legOf?_deliver (leg : m.context.legOf? u = some (k, l)) :
    ((deliver u p).exec m).2.context.legOf? u = some (k, l) ∨
      ((deliver u p).exec m).2.context.legOf? u = some (k, { l with setupSent := true }) ∧
        ∃ nas n2 s x, p.payload = .setup nas n2 ∧
          m.Hands ((deliver u p).exec m).2 p.session l
            (Delivery.setupRequest m.context x l s nas n2) := by
  obtain ⟨uses, there⟩ := legOf?_eq_some_iff.1 leg
  have ues := (same_deliver u p m).1
  simp only [legOf?_eq_some_iff, ues]
  obtain same | ⟨nas, n2, s, x, j, l', payload, other, marked, hands⟩ := legs_deliver u p m
  · exact .inl ⟨uses, same ▸ there⟩
  · rw [marked]
    by_cases is : k = j
    · subst is
      have one : l' = l :=
        Option.some.inj ((legOf?_eq_some_iff.1 other).2.symm.trans there)
      exact .inr ⟨⟨uses, Table.get?_modify_of_some there⟩, nas, n2, s, x, payload, one ▸ hands⟩
    · exact .inl ⟨uses, (Table.get?_modify_of_ne is).trans there⟩

end Paging

/-! ## Connections -/

namespace Node

/-- The setup parked for a UE is handed on as the first one of a leg. -/
def HandsOn (n n' : Node) (u : Nat) (l : Leg) : Prop :=
  ∃ p nas n2 guami ambr slices capability psi slice,
    n.context.parked.get? u = some p ∧ n'.context.parked.get? u = none ∧ p.payload = .setup nas n2 ∧
      n.Hands n' p.session l
        (.initialContextSetup guami ambr slices capability { psi, slice, nas, n2 })

/-- A UE has got a new leg in the place of its former one, as its connection was reported. -/
structure Connects (n n' : Node) (u : Nat) (gnb ran : UInt64) (rat : RatType) : Prop where
  connected : n'.context.connection u = .connected
  /-- The leg is new, nothing has been answered on it, and a setup has been made for it only if it is the
  one that was parked. -/
  leg : ∃ l, n'.context.legOf? u = some (n.context.nextLeg, l) ∧
    n.context.legs.get? n.context.nextLeg = none ∧
    l.gnb = gnb ∧ l.ids.ran = ran ∧ l.rat = rat ∧ l.ue = some u ∧ l.setupAnswered = false ∧
    (l.setupSent = true → n.HandsOn n' u l)
  /-- The former leg is gone. -/
  former : ∀ k l, n.context.legOf? u = some (k, l) → n'.context.legs.get? k = none

end Node

/-- A UE that is on the next leg has connected, if its former leg is gone. -/
theorem Node.Connects.of_leg {u : Nat} {gnb ran : UInt64} {rat : RatType} {sent : Bool}
    (h : n.context.Joined)
    (leg : n'.context.legOf? u = some (n.context.nextLeg,
      { ids := ⟨n.context.nextAmfId, ran⟩, gnb, rat, setupSent := sent, ue := some u }))
    (former : ∀ k l, n.context.legOf? u = some (k, l) → n'.context.legs.contains k = false)
    (handed : sent = true → n.HandsOn n' u
      { ids := ⟨n.context.nextAmfId, ran⟩, gnb, rat, setupSent := sent, ue := some u }) :
    n.Connects n' u gnb ran rat := by
  refine ⟨connection_of_leg leg, ⟨_, leg, h.numbered.new, rfl, rfl, rfl, rfl, rfl, handed⟩,
    fun k l at_ => ?_⟩
  exact Option.not_isSome_iff_eq_none.1 (Bool.eq_false_iff.1 (former k l at_))

/-- **A UE that connects gets a new leg in the place of its former one**, if there is room for one leg
more. -/
theorem Event.connects {u : Nat} (gnb ran : UInt64) (rat : RatType) (h : n.context.Joined)
    (known : n.context.ues.contains u = true) (room : n.context.legs.size < n.context.maxLegs) :
    n.Connects ((connected u gnb ran rat).handle n).2 u gnb ran rat := by
  obtain ⟨m, context, links, handled⟩ := handle_connected_of_room gnb ran rat known room
    fun added => Node.context_connect_of_joined h added known
  obtain ⟨next, amf, -⟩ : (n.context.freeLeg u).nextLeg = n.context.nextLeg ∧
      (n.context.freeLeg u).nextAmfId = n.context.nextAmfId ∧ _ := by
    have numbers := (drops_freeLeg (c := n.context) (u := u)).numbers
    unfold legNumbers at numbers
    rwa [Prod.mk.injEq, Prod.mk.injEq] at numbers
  have leg : m.context.legOf? u = some (n.context.nextLeg,
      { ids := ⟨n.context.nextAmfId, ran⟩, gnb, rat, ue := some u }) := by
    rw [context, legOf?_withLeg gnb ran rat (contains_ues_freeLeg.trans known), next, amf]
  have former : ∀ k l, n.context.legOf? u = some (k, l) → m.context.legs.contains k = false := by
    intro k l leg
    have below := (h.numbered.legs k l (legOf?_eq_some_iff.1 leg).2).1
    rw [context]
    show ((n.context.freeLeg u).legs.insert (n.context.freeLeg u).nextLeg _).contains k = false
    unfold Table.contains
    rw [next, Table.get?_insert_of_ne (Nat.ne_of_lt below), freeLeg_of_some leg, legs_removeLeg,
      Table.get?_erase_self]
    rfl
  have bare : n.Connects m u gnb ran rat := .of_leg h leg former nofun
  rw [handled]
  cases parked : n.context.parked.get? u with
  | none => exact bare
  | some p =>
    simp only
    split
    · obtain ⟨-, parked', legs⟩ := Paging.same_deliver u p m
      have former' := fun k l leg => (legs k).trans (former k l leg)
      obtain leg' | ⟨leg', nas, n2, s, x, payload, hands⟩ := Paging.legOf?_deliver (p := p) leg
      · exact .of_leg h leg' former' nofun
      · -- The request is the first one on the leg, so it is an initial context setup.
        have taken : m.context.parked.get? u = none := by
          rw [context]
          exact Table.get?_erase_self _ _
        unfold Node.Hands at hands
        rw [links] at hands
        exact .of_leg h leg' former' fun _ =>
          ⟨p, nas, n2, m.context.guami, x.ambr, x.allowed.map (·.serving), x.capability.valid, s.psi,
            s.slice, parked, parked' ▸ taken, payload, hands⟩
    · exact bare

/-! ## Configured limits -/

namespace Config

variable {config : Config}

theorem maxLegs_context (config : Config) :
    config.context.maxLegs = 2 * config.maxUes.toNat % UInt64.size := by
  show (config.maxUes * 2).toNat = _
  rw [UInt64.toNat_mul, Nat.mul_comm]
  rfl

/-- A double of 64 bits is the double. -/
theorem maxLegs_of_lt (fits : 2 * config.maxUes.toNat < UInt64.size) :
    config.context.maxLegs = 2 * config.context.maxUes := by
  rw [maxLegs_context, Nat.mod_eq_of_lt fits]
  rfl

/-- **Any other double wraps around**, and there may be fewer legs than UEs. -/
theorem maxLegs_lt (wraps : ¬2 * config.maxUes.toNat < UInt64.size) :
    config.context.maxLegs < config.context.maxUes := by
  have range : config.maxUes.toNat < UInt64.size := config.maxUes.toNat_lt_size
  rw [maxLegs_context, Nat.mod_eq_sub_mod (Nat.not_lt.1 wraps), Nat.mod_eq_of_lt (by omega)]
  show _ < config.maxUes.toNat
  omega

end Config

/-! ## Runs -/

/-- There are as many UEs as legs, and nothing is parked. -/
structure Context.Crowded (c : Context) (j : Nat) : Prop where
  registered : c.Registered
  numbered : c.Numbered
  ues : c.ues.size = j
  legs : c.legs.size = j
  unparked : c.parked = .empty

namespace Operation

variable {os : List Operation}

/-- A run strands no leg. -/
def NeverStrands (os : List Operation) (n : Node) : Prop :=
  ∀ (k : Nat) (o : Operation), os[k]? = some o → ¬o.Strands (stateAt os n k)

/-- The operation is an event, or adds a UE. -/
def plain : Operation → Bool
  | addUe | handle _ => true
  | _ => false

/-- Events strand no leg, and neither do UEs that are added. -/
theorem neverStrands_of_plain (all : ∀ o ∈ os, o.plain = true) : NeverStrands os n := by
  intro k o at_
  have plain := all o (List.mem_of_getElem? at_)
  cases o with
  | addUe | handle => exact id
  | _ => cases plain

/-- A UE is added and connects. -/
def arrival (u : Nat) : List Operation := [addUe, handle (.connected u 0 0 .nr)]

theorem run_append (os os' : List Operation) (n : Node) : run (os ++ os') n = run os' (run os n) :=
  List.foldl_append

/-- Every leg serves a UE in every state of a run that strands none. -/
theorem housed_stateAt (h : n.context.Housed) (never : NeverStrands os n) (k : Nat) :
    (stateAt os n k).context.Housed := by
  induction k with
  | zero => exact h
  | succ k ih =>
    cases at_ : os[k]? with
    | none =>
      rw [stateAt_succ_of_none at_]
      exact ih
    | some o =>
      rw [stateAt_succ at_]
      exact o.housed ih (never k o at_)

theorem limits_run (os : List Operation) : (run os n).context.limits = n.context.limits :=
  run_keeps (P := fun m => m.context.limits = n.context.limits) (fun o _ same => o.limits.trans same) os
    rfl

/-- A UE that is added while there is room has the next number. -/
theorem context_addUe (room : n.context.ues.size < n.context.maxUes) :
    (addUe.apply n).context = { n.context with
      ues := n.context.ues.insert n.context.nextUe {}, nextUe := n.context.nextUe + 1 } := by
  show n.context.addUe.elim n.context (·.2) = _
  unfold Context.addUe
  rw [if_neg (by omega)]
  rfl

/-- The UE that is added is known, and uses no leg. -/
theorem known_addUe (room : n.context.ues.size < n.context.maxUes) :
    (addUe.apply n).context.ues.get? n.context.nextUe = some {} := by
  rw [context_addUe room]
  exact Table.get?_insert_self _ _ _

/-- A UE that is added and connects brings one UE and one leg more. -/
theorem crowded_arrival {j : Nat} (h : n.context.Crowded j) (few : j < n.context.maxUes)
    (room : j < n.context.maxLegs) : (run (arrival n.context.nextUe) n).context.Crowded (j + 1) := by
  have place : n.context.ues.size < n.context.maxUes := h.ues ▸ few
  have known := known_addUe place
  have added := context_addUe place
  have nothing : (addUe.apply n).context.parked.get? n.context.nextUe = none := by
    rw [added]
    show n.context.parked.get? _ = none
    rw [h.unparked, Table.get?_empty]
  have spare : (addUe.apply n).context.legs.size < (addUe.apply n).context.maxLegs := by
    rw [added]
    exact h.legs ▸ room
  -- The connection finds room for its leg and nothing to deliver.
  have joined : (run (arrival n.context.nextUe) n).context =
      (addUe.apply n).context.withLeg n.context.nextUe 0 0 .nr := by
    obtain ⟨m, context, -, handled⟩ := Event.handle_connected_of_idle 0 0 .nr
      (Table.contains_iff.2 ⟨_, known⟩) (by rw [known]; rfl) spare
    rw [nothing] at handled
    exact (congrArg Node.context handled).trans context
  have registered := addUe.registered h.registered
  have numbered := addUe.numbered h.registered h.numbered
  refine ⟨Operation.registered (handle _) registered,
    Operation.numbered (handle _) registered numbered, ?_, ?_, ?_⟩ <;> rw [joined]
  · show ((addUe.apply n).context.ues.modify _ _).size = j + 1
    rw [Table.size_modify, added, Table.size_insert_of_new h.registered.unknown, h.ues]
  · rw [numbered.size_withLeg, added, h.legs]
  · show (addUe.apply n).context.parked.erase _ = .empty
    rw [added, h.unparked]
    rfl

theorem plain_append_arrival {u : Nat} (all : ∀ o ∈ os, o.plain = true) :
    ∀ o ∈ os ++ arrival u, o.plain = true := by
  rw [List.forall_mem_append]
  exact ⟨all, by simp [arrival, plain]⟩

/-- **A run of connections alone comes to any number of UEs and legs** for which there is room. -/
theorem exists_crowded (h : n.context.Crowded 0) {j : Nat} (few : j ≤ n.context.maxUes)
    (room : j ≤ n.context.maxLegs) :
    ∃ os, (∀ o ∈ os, o.plain = true) ∧ (run os n).context.Crowded j := by
  induction j with
  | zero => exact ⟨[], nofun, h⟩
  | succ j ih =>
    obtain ⟨os, all, crowded⟩ := ih (Nat.le_of_succ_le few) (Nat.le_of_succ_le room)
    obtain ⟨ues, legs⟩ := Prod.mk.inj (limits_run os (n := n))
    refine ⟨os ++ arrival (run os n).context.nextUe, plain_append_arrival all, ?_⟩
    rw [run_append]
    exact crowded_arrival crowded (by omega) (by omega)

/-- Where every leg is taken, a new UE that connects stays idle. -/
theorem idle_arrival {j : Nat} (h : n.context.Crowded j) (few : j < n.context.maxUes)
    (full : n.context.maxLegs ≤ j) :
    (run (arrival n.context.nextUe) n).context.connection n.context.nextUe = .idle := by
  have place : n.context.ues.size < n.context.maxUes := h.ues ▸ few
  have refused : (addUe.apply n).context.addLeg 0 0 = none := by
    unfold Context.addLeg
    rw [if_pos]
    rw [context_addUe place]
    exact h.legs ▸ full
  have same : run (arrival n.context.nextUe) n = addUe.apply n :=
    Event.handle_connected_of_none (.inr refused)
  have unused : (addUe.apply n).context.legOf? n.context.nextUe = none :=
    legOf?_of_unused (by rw [known_addUe place]; rfl)
  rw [same]
  unfold Context.connection
  rw [unused]
  rfl

/-- **Where there may be fewer legs than UEs, one UE too many comes and stays idle.** -/
theorem exists_idle (h : n.context.Crowded 0) (fewer : n.context.maxLegs < n.context.maxUes) :
    ∃ os k u, (∀ o ∈ os, o.plain = true) ∧ os[k]? = some (handle (.connected u 0 0 .nr)) ∧
      (stateAt os n k).context.ues.contains u = true ∧
      (stateAt os n (k + 1)).context.connection u = .idle := by
  -- The other UEs have taken every leg.
  obtain ⟨os, all, crowded⟩ := exists_crowded h (Nat.le_of_lt fewer) (Nat.le_refl _)
  obtain ⟨ues, legs⟩ := Prod.mk.inj (limits_run os (n := n))
  let u := (run os n).context.nextUe
  have at_ : (os ++ arrival u)[os.length + 1]? = some (handle (.connected u 0 0 .nr)) := by
    rw [List.getElem?_append_right (Nat.le_add_right _ 1), Nat.add_sub_cancel_left]
    rfl
  have before : stateAt (os ++ arrival u) n (os.length + 1) = addUe.apply (run os n) := by
    unfold stateAt
    rw [List.take_length_add_append, run_append]
    rfl
  have after : stateAt (os ++ arrival u) n (os.length + 2) = run (arrival u) (run os n) := by
    rw [stateAt_succ at_, before]
    rfl
  refine ⟨os ++ arrival u, os.length + 1, u, plain_append_arrival all, at_, ?_, ?_⟩
  · have place : (run os n).context.ues.size < (run os n).context.maxUes := by
      rw [crowded.ues, ues]
      exact fewer
    rw [before]
    exact Table.contains_iff.2 ⟨_, known_addUe place⟩
  · rw [after]
    exact idle_arrival crowded (ues ▸ fewer) (Nat.le_of_eq legs)

/-- **Where there may be twice as many legs as UEs, every known UE that connects gets one**, in every run
that strands none. -/
theorem connects_of_double (h : n.context.Housed) (double : n.context.maxLegs = 2 * n.context.maxUes)
    (never : NeverStrands os n) {k u : Nat} {gnb ran : UInt64} {rat : RatType}
    (at_ : os[k]? = some (handle (.connected u gnb ran rat)))
    (known : (stateAt os n k).context.ues.contains u = true) :
    (stateAt os n k).Connects (stateAt os n (k + 1)) u gnb ran rat := by
  have housed := housed_stateAt h never k
  obtain ⟨ues, legs⟩ := Prod.mk.inj (limits_run (os.take k) (n := n))
  have double' : (stateAt os n k).context.maxLegs = 2 * (stateAt os n k).context.maxUes := by
    unfold stateAt
    rw [ues, legs]
    exact double
  rw [stateAt_succ at_]
  exact Event.connects gnb ran rat housed.joined known (housed.room double' known)

/-- **An AMF starts and gives every known UE that connects a leg exactly if its number of UEs can be
doubled.** In runs that strand no leg, a known UE that connects is on a new leg, as the connection was
reported, with no setup on it but the one that was parked, and its former leg is gone. Whether a double
that does not fit breaks the start off or wraps around, the AMF starts and does so in each of these runs
exactly if twice the most UEs is a number of 64 bits. -/
theorem connects_iff (config : Config) (a : Arithmetic) (metrics : Metrics) (links : Links) :
    (∃ c, config.start a = .ok c ∧
      let n : Node := { context := c, metrics, links }
      ∀ os : List Operation, NeverStrands os n → ∀ k u gnb ran rat,
        os[k]? = some (handle (.connected u gnb ran rat)) →
        (stateAt os n k).context.ues.contains u = true →
        (stateAt os n k).Connects (stateAt os n (k + 1)) u gnb ran rat) ↔
    2 * config.maxUes.toNat < UInt64.size := by
  have fresh : config.context.Fresh := Provisioned.start.fresh
  have housed : config.context.Housed := ⟨fun _ known => (nomatch known), fresh.joined, Nat.zero_le _⟩
  constructor
  · rintro ⟨c, started, connects⟩
    obtain ⟨-, rfl⟩ := Config.start_eq_ok_iff.1 started
    by_contra wraps
    -- The start was not broken off, so the double has wrapped around and is less than the number of UEs.
    obtain ⟨os, k, u, all, at_, known, idle⟩ :=
      exists_idle (n := { context := config.context, metrics, links })
        ⟨housed.registered, fresh.numbered, rfl, rfl, rfl⟩ (Config.maxLegs_lt wraps)
    have is := (connects os (neverStrands_of_plain all) k u 0 0 .nr at_ known).connected
    rw [idle] at is
    cases is
  · intro fits
    refine ⟨config.context, Config.start_eq_ok_iff.2 ⟨fun _ => fits, rfl⟩, ?_⟩
    intro n os never k u gnb ran rat at_ known
    exact connects_of_double housed (Config.maxLegs_of_lt fits) never at_ known

/-- A configuration may say 2 ^ 63 UEs. Checked arithmetic breaks the start off then; where the double wraps
around there may be no leg at all, and the only UE connects and stays idle. -/
theorem not_connects_doubled :
    let config : Config := { maxUes := 9223372036854775808 }
    let n : Node := { context := config.context }
    let os : List Operation := [addUe, handle (.connected 1 1 100 .nr)]
    Config.ofText "amf:\n  max:\n    ue: 9223372036854775808" = .ok config ∧
      config.start .checked = .error .product ∧ config.start .wrapping = .ok n.context ∧
      NeverStrands os n ∧ (stateAt os n 1).context.ues.contains 1 = true ∧
      ¬(stateAt os n 1).Connects (stateAt os n 2) 1 1 100 .nr ∧
      (stateAt os n 2).context.connection 1 = .idle ∧ (stateAt os n 2).context.maxLegs = 0 := by
  intro config n os
  have idle : (stateAt os n 2).context.connection 1 = .idle := by decide
  refine ⟨by decide +kernel, Config.start_eq_error_iff.2 ⟨rfl, by decide, rfl⟩,
    Config.start_eq_ok_iff.2 ⟨nofun, rfl⟩, neverStrands_of_plain (by simp [os, plain]), by decide,
    fun connects => ?_, idle, by decide⟩
  have is := connects.connected
  rw [idle] at is
  cases is

end Operation
end Amf
