import Amf.Proofs.Operation
import Amf.Proofs.Store
import Mathlib.Data.List.Nodup

/-!
# Integrity of the stores

UEs, sessions, parked transfers and timers refer to each other by number, and what is referred to is
there (`Operation.run_intact`): sessions and their UEs point at each other, a parked transfer is for
a session of its UE, and timers run only for UEs that are known. So a UE that answers its paging
always finds the session that something was parked for.

| store | refers to | kept in order by |
| --- | --- | --- |
| sessions | their UE | `addSession`, `removeSession`, `removeUe` |
| UEs | their sessions | the same |
| parked transfers | their UE, their session | those that park and take; `removeSession`, `removeUe` |
| timers | their UE | those that start and stop; `removeUe` |
-/

namespace Amf

namespace Context

variable {c c' : Context} {u v id : Nat} {psi : UInt8} {kind : TimerKind}

/-! ## UEs and their sessions -/

/-- UEs and sessions point at each other, and the lists of sessions are as they should be. -/
structure Rostered (c : Context) : Prop where
  listed : c.Listed
  /-- No session is listed twice. -/
  once : ∀ u ids, c.sessionIds u = some ids → ids.Nodup
  bounded : ∀ u ids, c.sessionIds u = some ids → ids.length ≤ maxSessions
  assigned : ∀ id u psi, c.sessionKey id = some (u, psi) → psi ≠ unassignedPsi
  /-- Sessions have numbers that were given out. -/
  numbered : ∀ id key, c.sessionKey id = some key → id < c.nextSession

theorem Rostered.of_same (same : SameSessions c c') (next : c'.nextSession = c.nextSession)
    (h : c.Rostered) : c'.Rostered := by
  refine ⟨h.listed.of_same same, fun u ids list => ?_, fun u ids list => ?_, fun id u psi key => ?_,
    fun id k key => ?_⟩
  · exact h.once u ids (same.ids u ▸ list)
  · exact h.bounded u ids (same.ids u ▸ list)
  · exact h.assigned id u psi (same.key id ▸ key)
  · rw [next]
    exact h.numbered id k (same.key id ▸ key)

/-- Lists get shorter and sessions fewer, in step. -/
theorem Rostered.of_fewer (listed : c'.Listed)
    (ids : ∀ u ids', c'.sessionIds u = some ids' → ∃ ids, c.sessionIds u = some ids ∧ ids'.Sublist ids)
    (keys : ∀ id key, c'.sessionKey id = some key → c.sessionKey id = some key)
    (next : c'.nextSession = c.nextSession) (h : c.Rostered) : c'.Rostered := by
  refine ⟨listed, fun u ids' list' => ?_, fun u ids' list' => ?_, fun id u psi key => ?_,
    fun id k key => ?_⟩
  · obtain ⟨list, before, fewer⟩ := ids u ids' list'
    exact fewer.nodup (h.once u list before)
  · obtain ⟨list, before, fewer⟩ := ids u ids' list'
    exact Nat.le_trans fewer.length_le (h.bounded u list before)
  · exact h.assigned id u psi (keys id _ key)
  · rw [next]
    exact h.numbered id k (keys id k key)

theorem Rostered.removeSession (h : c.Rostered) (id : Nat) : (c.removeSession id).Rostered := by
  have next : (c.removeSession id).nextSession = c.nextSession :=
    (Prod.mk.inj sameRegister_removeSession.numbers).2
  refine h.of_fewer (h.listed.removeSession id) (fun v ids' list' => ?_) (fun j key there => ?_) next
  · cases key : c.sessionKey id with
    | none =>
      rw [removeSession_of_none (Option.map_eq_none_iff.1 key)] at list'
      exact ⟨ids', list', .refl _⟩
    | some owner =>
      obtain ⟨u, psi⟩ := owner
      rw [sessionIds_removeSession key] at list'
      split at list'
      · obtain ⟨ids, list, rfl⟩ := Option.map_eq_some_iff.1 list'
        exact ⟨ids, list, List.filter_sublist⟩
      · exact ⟨ids', list', .refl _⟩
  · rw [sessionKey_removeSession] at there
    split at there
    · cases there
    · exact there

/-- A UE that is added has no sessions. -/
theorem Rostered.addUe (h : c.Rostered) (new : c.ues.get? c.nextUe = none) :
    Rostered { c with ues := c.ues.insert c.nextUe {}, nextUe := c.nextUe + 1 } := by
  refine ⟨h.listed.addUe new, fun v ids' list' => ?_, fun v ids' list' => ?_, h.assigned, h.numbered⟩
  all_goals
    rw [sessionIds_addUe] at list'
    split at list'
  · cases list'
    exact List.nodup_nil
  · exact h.once v ids' list'
  · cases list'
    exact Nat.zero_le _
  · exact h.bounded v ids' list'

/-- A session is added under an identity that is assigned, and where there is room. -/
theorem room_of_addSession (added : c.addSession u psi = some (id, c')) :
    psi ≠ unassignedPsi ∧ ∀ ids, c.sessionIds u = some ids → ids.length < maxSessions := by
  unfold addSession at added
  split at added
  · cases added
  · rename_i new
    rw [not_or] at new
    refine ⟨new.1, fun ids list => ?_⟩
    obtain ⟨x, hx, rfl⟩ := Option.map_eq_some_iff.1 list
    rw [hx] at added
    simp only at added
    split at added
    · cases added
    · omega

theorem next_addSession (added : c.addSession u psi = some (id, c')) :
    c'.nextSession = c.nextSession + 1 := by
  obtain ⟨-, -, x, -, rfl⟩ := eq_of_addSession added
  rfl

theorem Rostered.addSession (h : c.Rostered) (added : c.addSession u psi = some (id, c')) :
    c'.Rostered := by
  obtain ⟨assigned, room⟩ := room_of_addSession added
  have keys := sessionKey_addSession added
  have lists := sessionIds_addSession added
  refine ⟨h.listed.addSession h.numbered added, fun v ids' list' => ?_, fun v ids' list' => ?_,
    fun i v psi' key => ?_, fun i k key => ?_⟩
  · rw [lists] at list'
    split at list'
    · obtain ⟨ids, list, rfl⟩ := Option.map_eq_some_iff.1 list'
      -- A number that was not given out is in no list.
      have new : c.nextSession ∉ ids := by
        intro mem
        obtain ⟨psi', key⟩ := h.listed.listed u ids _ list mem
        exact Nat.lt_irrefl _ (h.numbered _ _ key)
      exact (h.once u ids list).append (List.nodup_singleton _) (List.disjoint_singleton.2 new)
    · exact h.once v ids' list'
  · rw [lists] at list'
    split at list'
    · obtain ⟨ids, list, rfl⟩ := Option.map_eq_some_iff.1 list'
      have := room ids list
      rw [List.length_append, List.length_singleton]
      omega
    · exact h.bounded v ids' list'
  · rw [keys] at key
    split at key
    · cases key
      exact assigned
    · exact h.assigned i v psi' key
  · rw [next_addSession added]
    rw [keys] at key
    split at key
    · omega
    · exact Nat.lt_succ_of_lt (h.numbered i k key)

/-- A session that is added is none of those that something waits for. -/
theorem Owned.addSession (owned : c.Owned) (h : c.Rostered)
    (added : c.addSession u psi = some (id, c')) : c'.Owned := by
  have parked : c'.parked = c.parked := by
    obtain ⟨-, -, x, -, rfl⟩ := eq_of_addSession added
    rfl
  intro v p waits
  rw [parked] at waits
  have key := owned v p waits
  rw [sessionKey_addSession added, if_neg (Nat.ne_of_lt (h.numbered _ _ key))]
  exact key

/-! ## A UE goes -/

theorem get?_foldl_erase {α : Type} {j : Nat} :
    ∀ (ids : List Nat) (t : Table α),
      (ids.foldl Table.erase t).get? j = if j ∈ ids then none else t.get? j
  | [], _ => by rw [if_neg List.not_mem_nil]; rfl
  | i :: ids, t => by
    rw [List.foldl_cons, get?_foldl_erase ids, Table.get?_erase]
    by_cases first : j = i
    · rw [if_pos first, ite_self, if_pos (first ▸ List.mem_cons_self)]
    · rw [if_neg first]
      simp only [List.mem_cons, first, false_or]

/-- What is left of the sessions and their lists when a UE goes. -/
theorem sessionIds_removeUe {x : Ue} (hx : c.ues.get? u = some x) :
    (c.removeUe u).sessionIds v = if v = u then none else c.sessionIds v := by
  rw [removeUe_of_some hx]
  show ((c.ues.erase u).get? v).map _ = _
  rw [Table.get?_erase]
  split <;> rfl

theorem sessionKey_removeUe {x : Ue} (hx : c.ues.get? u = some x) :
    (c.removeUe u).sessionKey id = if id ∈ x.sessions then none else c.sessionKey id := by
  rw [removeUe_of_some hx]
  show ((x.sessions.foldl Table.erase c.sessions).get? id).map _ = _
  rw [get?_foldl_erase]
  split <;> rfl

/-- A session that a UE does not list is one of another UE. -/
theorem Listed.not_mem_of_ne (h : c.Listed) {x : Ue} (hx : c.ues.get? u = some x)
    (key : c.sessionKey id = some (v, psi)) (other : v ≠ u) : id ∉ x.sessions := by
  intro mem
  obtain ⟨psi', same⟩ := h.listed u x.sessions id (sessionIds_of_some hx) mem
  rw [key] at same
  cases same
  exact other rfl

theorem Listed.removeUe (h : c.Listed) {x : Ue} (hx : c.ues.get? u = some x) :
    (c.removeUe u).Listed := by
  constructor
  · intro i v psi' key
    rw [sessionKey_removeUe hx] at key
    split at key
    · cases key
    · rename_i unlisted
      obtain ⟨ids, list, mem⟩ := h.owner i v psi' key
      have other : v ≠ u := by
        rintro rfl
        unfold sessionIds at list
        rw [hx] at list
        cases list
        exact unlisted mem
      rw [sessionIds_removeUe hx, if_neg other]
      exact ⟨ids, list, mem⟩
  · intro v ids i list mem
    rw [sessionIds_removeUe hx] at list
    split at list
    · cases list
    · rename_i other
      obtain ⟨psi', key⟩ := h.listed v ids i list mem
      rw [sessionKey_removeUe hx, if_neg (h.not_mem_of_ne hx key other)]
      exact ⟨psi', key⟩
  · intro i j k hi hj
    rw [sessionKey_removeUe hx] at hi hj
    split at hi
    · cases hi
    · split at hj
      · cases hj
      · exact h.unique i j k hi hj

theorem Rostered.removeUe (h : c.Rostered) {x : Ue} (hx : c.ues.get? u = some x) :
    (c.removeUe u).Rostered := by
  refine h.of_fewer (h.listed.removeUe hx) (fun v ids' list' => ?_) (fun i k key => ?_) ?_
  · rw [sessionIds_removeUe hx] at list'
    split at list'
    · cases list'
    · exact ⟨ids', list', .refl _⟩
  · rw [sessionKey_removeUe hx] at key
    split at key
    · cases key
    · exact key
  · rw [removeUe_of_some hx]

/-- What is parked for other UEs is for sessions that stay. -/
theorem Owned.removeUe (owned : c.Owned) (h : c.Listed) {x : Ue} (hx : c.ues.get? u = some x) :
    (c.removeUe u).Owned := by
  intro v p waits
  have parked : (c.removeUe u).parked = c.parked.erase u := by
    rw [removeUe_of_some hx]
  rw [parked, Table.get?_erase] at waits
  split at waits
  · cases waits
  · rename_i other
    have key := owned v p waits
    rw [sessionKey_removeUe hx, if_neg (h.not_mem_of_ne hx key other)]
    exact key

/-! ## Timers -/

/-- Timers run for UEs that are known, one of a kind for each at most. -/
structure Timed (c : Context) : Prop where
  known : ∀ slot ∈ c.timers.slots, c.ues.contains slot.2 = true
  once : c.timers.slots.Nodup

theorem Timed.of_sublist (h : c.Timed) (fewer : c'.timers.slots.Sublist c.timers.slots)
    (ues : ∀ u, c.ues.contains u = true → c'.ues.contains u = true) : c'.Timed :=
  ⟨fun slot mem => ues _ (h.known slot (fewer.subset mem)), fewer.nodup h.once⟩

/-- No timers start and no UEs go. -/
theorem Timed.of_eq (h : c.Timed) (timers : c'.timers = c.timers)
    (ues : ∀ u, c.ues.contains u = true → c'.ues.contains u = true) : c'.Timed :=
  h.of_sublist (timers ▸ .refl _) ues

/-- A timer starts for a UE that is known, in the place of one that ran. -/
theorem Timed.start (h : c.Timed) (known : c.ues.contains u = true)
    (timers : c'.timers = c.timers.start kind u)
    (ues : ∀ u, c.ues.contains u = true → c'.ues.contains u = true) : c'.Timed := by
  cases enabled : (c.timers.configs.of kind).enabled with
  | false => exact h.of_eq (timers.trans (Timers.start_of_disabled enabled)) ues
  | true =>
    have slots : c'.timers.slots = c.timers.slots.filter (· ≠ (kind, u)) ++ [(kind, u)] :=
      timers ▸ Timers.slots_start enabled
    refine ⟨fun slot mem => ?_, ?_⟩
    · rw [slots] at mem
      obtain former | last := List.mem_append.1 mem
      · exact ues _ (h.known slot (List.mem_filter.1 former).1)
      · rw [List.mem_singleton.1 last]
        exact ues u known
    · have stopped : (kind, u) ∉ c.timers.slots.filter (· ≠ (kind, u)) := by
        simp
      rw [slots]
      exact (h.once.filter _).append (List.nodup_singleton _) (List.disjoint_singleton.2 stopped)

/-- The timers of a UE stop when it goes. -/
theorem Timed.removeUe (h : c.Timed) {x : Ue} (hx : c.ues.get? u = some x) :
    (c.removeUe u).Timed := by
  rw [removeUe_of_some hx]
  constructor
  · intro slot mem
    change slot ∈ (c.timers.stopAll u).slots at mem
    rw [Timers.slots_stopAll] at mem
    obtain ⟨mem, other⟩ := List.mem_filter.1 mem
    exact Table.contains_erase.2 ⟨of_decide_eq_true other, h.known slot mem⟩
  · show (c.timers.stopAll u).slots.Nodup
    rw [Timers.slots_stopAll]
    exact h.once.filter _

/-! ## All stores -/

/-- All references between the stores are in order. -/
structure Coherent (c : Context) : Prop where
  registered : c.Registered
  rostered : c.Rostered
  owned : c.Owned
  timed : c.Timed

/-- No UE and no session comes or goes. -/
theorem Coherent.of_same (registered : c'.Registered) (same : SameSessions c c')
    (next : c'.nextSession = c.nextSession) (owned : c'.Owned) (timed : c'.Timed)
    (h : c.Coherent) : c'.Coherent :=
  ⟨registered, h.rostered.of_same same next, owned, timed⟩

theorem Owned.of_same (same : SameStore c c') (h : c.Owned) : c'.Owned := by
  intro u p waits
  rw [same.parked] at waits
  rw [same.sessions.key]
  exact h u p waits

theorem SameSessions.contains_ues (same : SameSessions c c') (known : c.ues.contains u = true) :
    c'.ues.contains u = true := by
  rw [Context.contains_ues, same.ids, ← Context.contains_ues]
  exact known

theorem timers_removeSession : (c.removeSession id).timers = c.timers := by
  unfold removeSession
  split <;> rfl

theorem Owned.removeSession (h : c.Owned) (id : Nat) : (c.removeSession id).Owned := by
  cases session : c.sessions.get? id with
  | none =>
    rw [removeSession_of_none session]
    exact h
  | some s => exact (alters_removeSession session).owned h

theorem Coherent.removeSession (h : c.Coherent) (id : Nat) : (c.removeSession id).Coherent :=
  ⟨h.registered.of_same sameRegister_removeSession, h.rostered.removeSession id,
    h.owned.removeSession id, h.timed.of_eq timers_removeSession fun u known =>
      (sameRegister_removeSession.contains_ues u).trans known⟩

theorem Coherent.addUe (h : c.Coherent) (registered : c'.Registered)
    (added : c.addUe = some (u, c')) : c'.Coherent := by
  obtain ⟨-, rfl⟩ := eq_of_addUe added
  exact ⟨registered, h.rostered.addUe h.registered.new, h.owned,
    h.timed.of_eq rfl fun _ known => Table.contains_insert.2 (.inr known)⟩

theorem Coherent.removeUe (h : c.Coherent) (registered : (c.removeUe u).Registered) :
    (c.removeUe u).Coherent := by
  cases hx : c.ues.get? u with
  | none =>
    rw [removeUe_of_none hx]
    exact h
  | some x =>
    exact ⟨registered, h.rostered.removeUe hx, h.owned.removeUe h.rostered.listed hx,
      h.timed.removeUe hx⟩

/-- A UE gets a name, and stays as it is otherwise. -/
theorem Coherent.of_names (names : c.Names c') (h : c.Coherent) : c'.Coherent := by
  have same := names.sameSessions
  cases names with
  | nothing => exact h
  | name known =>
    exact h.of_same (h.registered.insert known) same rfl h.owned
      (h.timed.of_eq rfl fun _ => same.contains_ues)

theorem Coherent.addSession (h : c.Coherent) (registered : c'.Registered)
    (added : c.addSession u psi = some (id, c')) : c'.Coherent := by
  refine ⟨registered, h.rostered.addSession added, h.owned.addSession h.rostered added, ?_⟩
  obtain ⟨-, -, x, -, rfl⟩ := eq_of_addSession added
  exact h.timed.of_eq rfl fun _ known => Table.contains_insert.2 (.inr known)

/-- A UE is paged, and something is parked for a session of it. -/
theorem Coherent.park {p : Parked} {clients : Clients} {pdu : Octets} (h : c.Coherent)
    (known : c.ues.contains u = true) (key : c.sessionKey p.session = some (u, p.psi)) :
    ((c.withClients clients).park u pdu p).Coherent := by
  have same : c.SameSessions ((c.withClients clients).park u pdu p) :=
    .of_modifyUe rfl rfl fun _ => rfl
  have alters : (Act.park u p).Alters c ((c.withClients clients).park u pdu p) := ⟨rfl, key, same⟩
  exact h.of_same (h.registered.of_same sameRegister_park) same rfl (alters.owned h.owned)
    (h.timed.start known rfl fun _ => same.contains_ues)

/-- The paging of a UE ends, and what was parked for it is taken. -/
theorem Coherent.quitPaging (h : c.Coherent) :
    (c.quitPaging u (c.timers.stop .t3513 u)).Coherent := by
  have same : c.SameSessions (c.quitPaging u (c.timers.stop .t3513 u)) :=
    .of_modifyUe rfl rfl fun _ => rfl
  have alters : (Act.giveUp u).Alters c (c.quitPaging u (c.timers.stop .t3513 u)) := ⟨rfl, same⟩
  exact h.of_same (h.registered.of_same sameRegister_quitPaging) same rfl (alters.owned h.owned)
    (h.timed.of_sublist Timers.sublist_slots_stop fun _ => same.contains_ues)

end Context

/-! ## Steps -/

namespace Step

open Context

variable {a : Act} {n n' : Node}

/-- **A step starts timers for known UEs only.** -/
theorem timed (step : Step a n n') (h : n.context.Timed) : n'.context.Timed := by
  have ues : ∀ u, n.context.ues.contains u = true → n'.context.ues.contains u = true :=
    fun u known => (step.sameRegister.contains_ues u).trans known
  have same : n'.context.timers = n.context.timers → n'.context.Timed := fun timers => h.of_eq timers ues
  cases step with
  | park session ue => exact h.start (Table.contains_iff.2 ⟨_, ue⟩) rfl ues
  | deregister known => exact h.start known rfl ues
  | repeatPaging expiry | repeatRefused expiry | expireRequest expiry =>
    exact h.of_sublist (Timers.slots_of_expire expiry) ues
  | stopRequest => exact h.of_sublist Timers.sublist_slots_stop ues
  | repeatNothing expiry lost =>
    have fewer := Timers.slots_of_expire expiry
    refine h.of_sublist ?_ ues
    obtain ⟨-, rfl⟩ | ⟨-, rfl⟩ := lost
    · exact fewer
    · exact .trans Timers.sublist_slots_stop fewer
  | giveUp expiry =>
    refine h.of_sublist ?_ ues
    rw [Node.context_offerAll]
    exact Timers.slots_of_expire expiry
  | @connect _ u _ _ _ _ c known room =>
    refine h.of_sublist ?_ ues
    rw [Node.context_connect, ← (same_addLeg room).timers]
    show (c.timers.stop .t3513 u).slots.Sublist _
    exact Timers.sublist_slots_stop
  | detach =>
    refine h.of_sublist ?_ ues
    rw [Node.context_change, Node.context_uncountLeg, detach_eq]
    exact Timers.slots_stopAll ▸ List.filter_sublist
  | remove => exact same timers_removeSession
  | disconnect => exact same same_disconnect.timers
  | _ => exact same rfl

/-- **Every step keeps the references between the stores in order.** -/
theorem coherent (step : Step a n n') (h : n.context.Coherent) : n'.context.Coherent := by
  by_cases removes : ∃ id, a = .remove id
  · obtain ⟨id, rfl⟩ := removes
    cases step
    exact h.removeSession id
  · have register := step.sameRegister
    exact h.of_same (h.registered.of_same register)
      (step.sameSessions fun id is => removes ⟨id, is⟩) (Prod.mk.inj register.numbers).2
      (step.alters.owned h.owned) (step.timed h.timed)

end Step

theorem Chain.coherent {A : Act → Prop} {n n' : Node} (chain : Chain A n n')
    (h : n.context.Coherent) : n'.context.Coherent :=
  chain.keeps (P := fun m => m.context.Coherent) (fun _ _ _ _ step => step.coherent) h

/-! ## Operations -/

theorem Node.Begins.coherent {n m : Node} (begins : n.Begins m) (h : n.context.Coherent) :
    m.context.Coherent := by
  cases begins with
  | nothing => exact h
  | park known key => exact h.park known key
  | answer u =>
    rw [Node.context_answer]
    exact h.quitPaging

namespace Operation

open Context

variable {n : Node}

/-- **Every operation keeps the references between the stores in order.** -/
theorem coherent (o : Operation) (h : n.context.Coherent) : (o.apply n).context.Coherent := by
  have registered := o.registered h.registered
  cases o with
  | addUe =>
    change (n.context.addUe.elim n.context (·.2)).Registered at registered
    show (n.context.addUe.elim n.context (·.2)).Coherent
    cases added : n.context.addUe with
    | none => exact h
    | some r =>
      rw [added] at registered
      exact h.addUe registered added
  | removeUe u => exact h.removeUe registered
  | setSupi u supi => exact h.of_names names_setSupi
  | setGuti u guti => exact h.of_names names_setGuti
  | addSession u psi =>
    change ((n.context.addSession u psi).elim n.context (·.2)).Registered at registered
    show ((n.context.addSession u psi).elim n.context (·.2)).Coherent
    cases added : n.context.addSession u psi with
    | none => exact h
    | some r =>
      rw [added] at registered
      exact h.addSession registered added
  | removeSession id => exact h.removeSession id
  | onLegs o =>
    exact h.of_same registered o.sameSessions (Prod.mk.inj o.same.numbers).2
      (h.owned.of_same ⟨o.same.parked, o.sameSessions⟩)
      (h.timed.of_eq o.same.timers fun _ => o.sameSessions.contains_ues)
  | handle | perform | page | answer =>
    exact of_drives (P := fun m => m.context.Coherent) rfl fun begins chain =>
      chain.coherent (begins.coherent h)

end Operation

/-! ## What is referred to is there -/

namespace Context

/-- **What the stores refer to is there**, and nothing is there twice. -/
structure Intact (c : Context) : Prop where
  /-- The UE of a session is known, and lists the session once. -/
  owner : ∀ id s, c.sessions.get? id = some s →
    ∃ x, c.ues.get? s.ue = some x ∧ x.sessions.count id = 1
  /-- What a UE lists is a session of the UE. -/
  listed : ∀ u x, c.ues.get? u = some x → ∀ id ∈ x.sessions,
    ∃ s, c.sessions.get? id = some s ∧ s.ue = u
  /-- Sessions have identities that are assigned. -/
  assigned : ∀ id s, c.sessions.get? id = some s → s.psi ≠ unassignedPsi
  /-- The sessions of a UE have different identities. -/
  distinct : ∀ i j s t, c.sessions.get? i = some s → c.sessions.get? j = some t → s.ue = t.ue →
    s.psi = t.psi → i = j
  bounded : ∀ u x, c.ues.get? u = some x → x.sessions.length ≤ maxSessions
  /-- What is parked for a UE is for a session of the UE, and has its identity. -/
  parked : ∀ u p, c.parked.get? u = some p →
    ∃ s, c.sessions.get? p.session = some s ∧ s.ue = u ∧ s.psi = p.psi
  /-- Timers run for UEs that are known. -/
  timers : ∀ t ∈ c.timers.running, c.ues.contains t.ue = true
  /-- There is one timer of a kind for each UE at most. -/
  single : ∀ kind u, c.timers.running.countP (·.is kind u) ≤ 1

variable {c : Context} {u id : Nat} {psi : UInt8}

theorem exists_of_sessionKey (key : c.sessionKey id = some (u, psi)) :
    ∃ s, c.sessions.get? id = some s ∧ s.ue = u ∧ s.psi = psi := by
  obtain ⟨s, hs, is⟩ := Option.map_eq_some_iff.1 key
  exact ⟨s, hs, Prod.mk.inj is⟩

theorem Coherent.intact (h : c.Coherent) : c.Intact where
  owner id s hs := by
    obtain ⟨ids, list, mem⟩ := h.rostered.listed.owner id _ _ (sessionKey_of_some hs)
    obtain ⟨x, hx, rfl⟩ := Option.map_eq_some_iff.1 list
    exact ⟨x, hx, List.count_eq_one_of_mem (h.rostered.once _ _ list) mem⟩
  listed u x hx id mem := by
    obtain ⟨psi, key⟩ := h.rostered.listed.listed u _ id (sessionIds_of_some hx) mem
    obtain ⟨s, hs, ue, -⟩ := exists_of_sessionKey key
    exact ⟨s, hs, ue⟩
  assigned id s hs := h.rostered.assigned id _ _ (sessionKey_of_some hs)
  distinct i j s t hs ht ue psi := by
    refine h.rostered.listed.unique i j s.key (sessionKey_of_some hs) ?_
    rw [sessionKey_of_some ht, Session.key, Session.key, ue, psi]
  bounded u x hx := h.rostered.bounded u _ (sessionIds_of_some hx)
  parked u p waits := exists_of_sessionKey (h.owned u p waits)
  timers t mem := h.timed.known (t.kind, t.ue) (List.mem_map_of_mem mem)
  single kind u := Timers.count_slots ▸ List.nodup_iff_count_le_one.1 h.timed.once (kind, u)

end Context

/-- A context without UEs has nothing that could refer to what is not there. -/
theorem Config.coherent_context (config : Config) : config.context.Coherent := by
  have fresh : config.context.Fresh := Provisioned.start.fresh
  have idle : config.context.timers.slots = [] := congrArg (List.map _) fresh.running
  refine ⟨fun _ known => (nomatch known), ⟨fresh.listed, fun _ _ list => (nomatch list),
    fun _ _ list => (nomatch list), fun _ _ _ key => (nomatch key), fun _ _ key => (nomatch key)⟩,
    fresh.owned, ⟨fun slot mem => ?_, ?_⟩⟩
  · rw [idle] at mem
    cases mem
  · rw [idle]
    exact List.nodup_nil

namespace Context

variable {c : Context} {u id : Nat}

/-- What is filled in about a UE leaves the sessions alone. -/
theorem sameSessions_describeUe {f : Ue → Ue} (describes : Ue.Describes f) :
    c.SameSessions (c.modifyUe u f) :=
  .of_modifyUe rfl rfl fun x => (describes x).2.2.2.1

/-- What is filled in about a session leaves its UE and its identity alone. -/
theorem sameSessions_describeSession {f : Session → Session} (describes : Session.Describes f) :
    c.SameSessions (c.modifySession id f) :=
  .of_modifySession rfl rfl fun s => (describes s).1

theorem Coherent.describeUe {f : Ue → Ue} (describes : Ue.Describes f) (h : c.Coherent) :
    (c.modifyUe u f).Coherent := by
  have same : c.SameSessions (c.modifyUe u f) := sameSessions_describeUe describes
  have register : c.SameRegister (c.modifyUe u f) :=
    ⟨rfl, rfl, fun _ => Table.map_get?_modify fun x =>
      Prod.ext (describes x).1 (describes x).2.1, rfl⟩
  have store : c.SameStore (c.modifyUe u f) := ⟨rfl, same⟩
  exact h.of_same (h.registered.of_same register) same rfl (h.owned.of_same store)
    (h.timed.of_eq rfl fun _ => same.contains_ues)

theorem Coherent.describeSession {f : Session → Session} (describes : Session.Describes f)
    (h : c.Coherent) : (c.modifySession id f).Coherent := by
  have same : c.SameSessions (c.modifySession id f) := sameSessions_describeSession describes
  have store : c.SameStore (c.modifySession id f) := ⟨rfl, same⟩
  exact h.of_same h.registered same rfl (h.owned.of_same store)
    (h.timed.of_eq rfl fun _ => same.contains_ues)

end Context

/-- The stores of a context that was set up are in order. -/
theorem Provisioned.coherent {config : Config} {c : Context} (h : Provisioned config c) :
    c.Coherent := by
  induction h with
  | start => exact config.coherent_context
  | @addUe c _ _ _ added ih =>
    have after : (c.addUe.elim c (·.2)).Coherent := Operation.addUe.coherent (n := { context := c }) ih
    rw [added] at after
    exact after
  | setSupi _ _ _ ih => exact ih.of_names Context.names_setSupi
  | setGuti _ _ _ ih => exact ih.of_names Context.names_setGuti
  | @addSession c _ u _ psi _ added ih =>
    have after : ((c.addSession u psi).elim c (·.2)).Coherent :=
      (Operation.addSession u psi).coherent (n := { context := c }) ih
    rw [added] at after
    exact after
  | describeUe _ u describes ih => exact ih.describeUe describes
  | describeSession _ id describes ih => exact ih.describeSession describes

/-- What is parked for a UE that answers its paging is delivered if its session is there: the answer
is that there was something, or delivering it failed. -/
theorem Paging.answered_ne_false {n : Node} {u : Nat} {p : Parked}
    (parked : n.context.parked.get? u = some p)
    (there : n.context.sessions.contains p.session = true) :
    ((answered u).exec n).1 ≠ .ok false := by
  rw [Event.answered_of_some parked, if_pos there, Procedure.exec_bind]
  cases (deliver u p).exec (n.answer u) with
  | mk outcome m =>
    cases outcome <;> exact nofun

/-- **What the stores of a state refer to is there**, also when a paging is over. -/
structure Node.Intact (n : Node) : Prop extends n.context.Intact where
  /-- A UE that answers its paging finds the session that something was parked for. -/
  answers : ∀ u, ((Paging.answered u).exec n).1 = .ok false → n.context.parked.get? u = none
  /-- A UE that connects finds it as well, once it is on its new leg. -/
  connects : ∀ u k gnb ran rat c, n.context.addLeg gnb ran = some (k, c) →
    ((Paging.answered u).exec ((n.change fun _ => c).relocate u k rat)).1 = .ok false →
      n.context.parked.get? u = none

theorem Node.intact_of_coherent {n : Node} (h : n.context.Coherent) : n.Intact := by
  -- Operations on legs do not touch the parked transfers or the sessions.
  have finds : ∀ {m : Node} {u : Nat}, m.context.parked = n.context.parked →
      m.context.sessions = n.context.sessions → ((Paging.answered u).exec m).1 = .ok false →
        n.context.parked.get? u = none := by
    intro m u parked sessions gone
    rw [Option.eq_none_iff_forall_ne_some]
    intro p waits
    obtain ⟨s, hs, -⟩ := h.intact.parked u p waits
    refine Paging.answered_ne_false (p := p) ?_ (Table.contains_iff.2 ⟨s, ?_⟩) gone
    · rw [parked, waits]
    · rw [sessions, hs]
  refine ⟨h.intact, fun u => finds rfl rfl, fun u k gnb ran rat c room => ?_⟩
  have same : n.context.SameButLegs ((n.change fun _ => c).relocate u k rat).context :=
    (Context.same_addLeg room).trans (same_relocate (n := n.change fun _ => c))
  exact finds same.parked same.sessions

namespace Operation

/-- **What the stores refer to is there.** After any operations on a context without UEs, in any
order, sessions and UEs point at each other, what is parked is for a session of its UE, and timers
run for UEs that are known. So a UE never answers its paging after the session has gone that
something was parked for. -/
theorem run_intact (config : Config) (metrics : Metrics) (links : Links) (os : List Operation) :
    (run os { context := config.context, metrics, links }).Intact :=
  Node.intact_of_coherent
    (run_keeps (P := fun n => n.context.Coherent) (fun o _ => o.coherent) os config.coherent_context)

/-- A UE is paged for a session that it has. -/
example :
    let n := run [addUe, setGuti 1 default, addSession 1 5, page 1 (.release none []) none]
      { context := Config.context default }
    (n.context.parked.get? 1).map (·.session) = some 1 ∧ n.context.timers.isRunning .t3513 1 = true := by
  decide

end Operation
end Amf
