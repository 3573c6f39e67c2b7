import Amf.Proofs.Course
import Amf.Proofs.Provisioned
import Amf.Proofs.Register

/-!
# Operations

What may be done to an AMF from outside, one operation at a time and in any order: UEs, sessions and
legs come and go, UEs get identities, events are dealt with and procedures are carried out. Events
and procedures are chains of steps (`Event.handle_chain`, `Task.perform_chain`), as is what follows
once a UE is paged, leg or not, or answers its paging (`Operation.of_drives`). A run is a list of
operations, so what every operation keeps holds after every run (`Operation.run_keeps`).

| operation | UEs and their names | sessions | timers |
| --- | --- | --- | --- |
| `addUe`, `removeUe` | one more, one less | those of the UE go | those of the UE stop |
| `setSupi`, `setGuti` | a name of the UE | as before | as before |
| `addSession`, `removeSession` | as before | one more, one less | as before |
| `onLegs` | as before | as before | as before |
| `handle`, `perform` | as before | may go | may start and stop |
| `page`, `answer` | as before | as before | T3513 starts, stops |
-/

namespace Amf

open Context

/-- An operation on legs. -/
inductive LegOperation where
  | add (gnb ranId : UInt64)
  | remove (leg : Nat)
  | associate (ue leg : Nat)
  | deassociate (ue : Nat)
  | clear (ue : Nat)

/-- The context after an operation on legs; where there is no room for a leg, none is added. -/
def LegOperation.apply : LegOperation → Context → Context
  | add gnb ranId, c => (c.addLeg gnb ranId).elim c (·.2)
  | remove leg, c => c.removeLeg leg
  | associate ue leg, c => c.associate ue leg
  | deassociate ue, c => c.deassociate ue
  | clear ue, c => c.clearConnection ue

/-- A procedure that is carried out outside an event. -/
inductive Task where
  | transfer (o : Transfer.Order)
  | relocation (ueContextId : Option String) (b : Document.RelocationBody)
  | relocationUpdate (ueContextId : Option String) (r : Document.StatusUpdate)
  | deregistration (ue : Nat) (d : Document.Deregistration)
  | subscriberData (m : Document.Modification)
  | release (session : Nat) (i : ReleaseInput)

/-- The state after a procedure. -/
def Task.perform : Task → Node → Node
  | transfer o, n => ((Transfer.run o).exec n).2
  | relocation id b, n => ((Relocation.request id b).exec n).2
  | relocationUpdate id r, n => ((Relocation.update id r).exec n).2
  | deregistration ue d, n => ((Deregistration.notify ue d).exec n).2
  | subscriberData m, n => ((Subscription.notify m).exec n).2
  | release session i, n => ((Release.input session i).exec n).2

/-- An operation on an AMF. -/
inductive Operation where
  | addUe
  | removeUe (ue : Nat)
  | setSupi (ue : Nat) (supi : String)
  | setGuti (ue : Nat) (guti : Guti)
  | addSession (ue : Nat) (psi : UInt8)
  | removeSession (session : Nat)
  | onLegs (o : LegOperation)
  | handle (e : Event)
  | perform (t : Task)
  /-- The UE of a session is paged, whether it has a leg or not. -/
  | page (session : Nat) (payload : Payload) (failureUri : Option String)
  /-- A UE answers its paging, whether it has a leg or not. -/
  | answer (ue : Nat)

namespace Operation

/-- The state after an operation; where there is no room for a UE or a session, none is added. -/
def apply : Operation → Node → Node
  | addUe, n => n.change fun c => c.addUe.elim c (·.2)
  | removeUe ue, n => n.change (·.removeUe ue)
  | setSupi ue supi, n => n.change (·.setSupi ue supi)
  | setGuti ue guti, n => n.change (·.setGuti ue guti)
  | addSession ue psi, n => n.change fun c => (c.addSession ue psi).elim c (·.2)
  | removeSession session, n => n.change (·.removeSession session)
  | onLegs o, n => n.change o.apply
  | handle e, n => (e.handle n).2
  | perform t, n => t.perform n
  | page session payload failureUri, n => ((Paging.start session payload failureUri).exec n).2
  | answer ue, n => ((Paging.answered ue).exec n).2

/-- The state after operations, in order. -/
def run (os : List Operation) (n : Node) : Node := os.foldl (fun n o => o.apply n) n

/-- The state of a run before the operation of a number. -/
def stateAt (os : List Operation) (n : Node) (k : Nat) : Node := run (os.take k) n

variable {o : Operation} {os : List Operation} {n : Node} {k : Nat}

theorem stateAt_succ (h : os[k]? = some o) : stateAt os n (k + 1) = o.apply (stateAt os n k) := by
  unfold stateAt
  rw [List.take_add_one, h]
  exact List.foldl_append

theorem stateAt_succ_of_none (h : os[k]? = none) : stateAt os n (k + 1) = stateAt os n k := by
  unfold stateAt
  rw [List.take_add_one, h]
  exact congrArg (run · n) (List.append_nil _)

/-- What every operation of a kind keeps, a run of such operations keeps. -/
theorem run_keeps_of_forall {P : Node → Prop} {A : Operation → Prop}
    (keeps : ∀ o n, A o → P n → P (apply o n)) (all : ∀ o ∈ os, A o) (h : P n) : P (run os n) := by
  induction os generalizing n with
  | nil => exact h
  | cons o os ih =>
    exact ih (fun p mem => all p (List.mem_cons_of_mem o mem)) (keeps o n (all o List.mem_cons_self) h)

/-- **What every operation keeps, every run keeps.** -/
theorem run_keeps {P : Node → Prop} (keeps : ∀ o n, P n → P (apply o n)) (os : List Operation)
    (h : P n) : P (run os n) :=
  run_keeps_of_forall (A := fun _ => True) (fun o n _ => keeps o n) (fun _ _ => trivial) h

end Operation

/-! ## Chains -/

/-- An event is a chain of steps. -/
theorem Event.handle_chain (e : Event) (n : Node) : Chain (fun _ => True) n (e.handle n).2 :=
  (e.handle_course n).chain.mono fun _ _ => trivial

/-- **A procedure is a chain of steps.** -/
theorem Task.perform_chain (t : Task) (n : Node) : Chain (fun _ => True) n (t.perform n) := by
  cases t with
  | transfer o =>
    obtain ⟨s, p, -, -, -, step⟩ | ⟨-, course⟩ := Transfer.run_ends (A := fun _ => True) o n
      (fun _ _ _ _ => trivial) (fun _ => ⟨trivial, trivial⟩) (fun _ _ _ => trivial)
      (fun _ => trivial) fun _ _ => trivial
    · exact .of_step trivial step
    · exact course.chain
  | relocation id b =>
    show Chain _ n ((Relocation.request id b).exec n).2
    rw [Relocation.reads_request id b n]
  | relocationUpdate id r =>
    exact (Relocation.update_course (fun _ => trivial) fun _ _ _ _ _ => trivial).chain
  | deregistration u d =>
    exact Deregistration.notify_chain (fun _ => trivial) trivial trivial fun _ => trivial
  | subscriberData m =>
    exact Subscription.notify_chain (fun _ => trivial) (fun _ _ => trivial) (fun _ => trivial)
      (fun _ => trivial) fun _ => trivial
  | release id i => exact (Release.input_course trivial trivial).chain

/-- How an operation begins, before its steps: not at all, or with a UE that is paged, or with one that
answers its paging. -/
inductive Node.Begins (n : Node) : Node → Prop where
  | nothing : n.Begins n
  /-- A transfer is parked for the UE of its session, with the target that a URI comes to. -/
  | park {u : Nat} {clients : Clients} {pdu : Octets} {p : Parked} {uri : Option String}
      (known : n.context.ues.contains u = true)
      (key : n.context.sessionKey p.session = some (u, p.psi))
      (resolves : Paging.Resolves n.context uri clients p.target)
      (accepted : n.links.accepts (.radio (.paging u pdu)) = true) : n.Begins (n.park clients u pdu p)
  | answer (u : Nat) : n.Begins (n.answer u)

namespace Paging

variable {n : Node} {u : Nat}

/-- **A paging that starts parks a transfer**, and one that fails comes to steps. -/
theorem start_begins (id : Nat) (payload : Payload) (uri : Option String) (n : Node) :
    ∃ m, n.Begins m ∧ Chain (·.quiet = true) m ((start id payload uri).exec n).2 := by
  cases session : n.context.sessions.get? id with
  | none =>
    have failed : ((start id payload uri).exec n).2 = n := by
      unfold start
      rw [(Procedure.reads_session id).exec_bind]
      cases outcome : ((Procedure.session id).exec n).1 with
      | error fault => rfl
      | ok s =>
        rw [Procedure.exec_session_eq_ok, session] at outcome
        cases outcome
    rw [failed]
    exact ⟨n, .nothing, .refl⟩
  | some s =>
    obtain ⟨x, guti, clients, target, ue, -, resolved, accepted, done⟩ | ⟨-, chain⟩ :=
      start_outcome payload uri session
    · have key : n.context.sessionKey id = some (s.ue, s.psi) := by
        unfold sessionKey
        rw [session]
        rfl
      rw [done]
      exact ⟨_, .park (Table.contains_iff.2 ⟨x, ue⟩) key resolved accepted, .refl⟩
    · refine ⟨n, .nothing, chain.mono fun _ is => ?_⟩
      rw [is]
      rfl

/-- Once its paging is over, what was parked for a UE is delivered in steps. -/
theorem answered_chain (u : Nat) (n : Node) :
    Chain (·.quiet = true) (n.answer u) ((answered u).exec n).2 := by
  rw [Event.answered_snd]
  split
  · exact .refl
  · split
    · exact deliver_chain (fun _ _ _ _ => rfl) (fun _ _ _ => ⟨rfl, rfl⟩) fun _ => rfl
    · exact .refl

end Paging

theorem Node.context_answer {n : Node} {u : Nat} : (n.answer u).context =
    n.context.quitPaging u (n.context.timers.stop .t3513 u) := by
  unfold answer
  split <;> rfl

namespace Operation

/-- The operation is an event, a procedure or a paging. -/
def drives : Operation → Bool
  | handle _ | perform _ | page .. | answer _ => true
  | _ => false

/-- **Events, procedures and pagings come to steps**, once they have begun. -/
theorem of_drives {o : Operation} {n : Node} {P : Node → Prop} (drives : o.drives = true)
    (comes : ∀ {m m'}, n.Begins m → Chain (fun _ => True) m m' → P m') : P (o.apply n) := by
  cases o with
  | handle e => exact comes .nothing (e.handle_chain n)
  | perform t => exact comes .nothing (t.perform_chain n)
  | page id payload uri =>
    obtain ⟨m, begins, chain⟩ := Paging.start_begins id payload uri n
    exact comes begins (chain.mono fun _ _ => trivial)
  | answer u => exact comes (.answer u) ((Paging.answered_chain u n).mono fun _ _ => trivial)
  | _ => cases drives

end Operation

/-! ## Operations on legs -/

namespace LegOperation

variable {c : Context}

/-- **An operation on legs leaves alone what is not a leg.** -/
theorem same (o : LegOperation) : c.SameButLegs (o.apply c) := by
  cases o with
  | add gnb ranId => exact of_addLeg (P := c.SameButLegs) .refl fun _ room => same_addLeg room
  | remove leg => exact same_removeLeg
  | associate u leg => exact same_associate
  | deassociate u => exact same_deassociate
  | clear u => exact same_clearConnection

/-- A measure of UEs that does not depend on their legs is kept. -/
theorem map_ues (o : LegOperation) {β : Type} {g : Ue → β} (free : ∀ x leg, g { x with leg } = g x)
    (v : Nat) : ((o.apply c).ues.get? v).map g = (c.ues.get? v).map g := by
  cases o with
  | add gnb ranId =>
    refine of_addLeg (P := fun d => (d.ues.get? v).map g = (c.ues.get? v).map g) rfl fun _ room => ?_
    rw [(addLeg_eq_some_iff.1 room).2.2]
  | remove leg => exact map_ues_removeLeg free
  | associate u leg => exact map_ues_associate free
  | deassociate u => exact map_ues_deassociate free
  | clear u => exact map_ues_clearConnection free

theorem sameSessions (o : LegOperation) : c.SameSessions (o.apply c) := by
  refine ⟨fun v => o.map_ues (fun _ _ => rfl) v, fun id => ?_⟩
  unfold sessionKey
  rw [o.same.sessions]

end LegOperation

theorem Node.Begins.sameSessions {n m : Node} (begins : n.Begins m) :
    n.context.SameSessions m.context := by
  cases begins with
  | nothing => exact .refl
  | park => exact .of_modifyUe rfl rfl fun _ => rfl
  | answer u =>
    rw [Node.context_answer]
    exact .of_modifyUe rfl rfl fun _ => rfl

/-! ## The register -/

/-- The operation adds or removes a UE or a session, or gives a UE a name. -/
def Operation.registers : Operation → Bool
  | .addUe | .removeUe _ | .setSupi .. | .setGuti .. | .addSession .. => true
  | _ => false

theorem Node.Begins.sameRegister {n m : Node} (begins : n.Begins m) :
    n.context.SameRegister m.context := by
  cases begins with
  | nothing => exact .refl
  | park => exact sameRegister_park
  | answer u =>
    rw [Node.context_answer]
    exact sameRegister_quitPaging

/-- **Only UEs that come and go, sessions that come, and names that are given touch the register.** -/
theorem Operation.sameRegister {o : Operation} {n : Node} (other : o.registers = false) :
    n.context.SameRegister (o.apply n).context := by
  cases o with
  | addUe | removeUe | setSupi | setGuti | addSession => cases other
  | removeSession => exact sameRegister_removeSession
  | onLegs o => exact .of_legs o.same fun _ => o.map_ues (fun _ _ => rfl) _
  | handle | perform | page | answer =>
    exact of_drives (P := fun m => n.context.SameRegister m.context) rfl fun begins chain =>
      begins.sameRegister.trans chain.sameRegister

/-! ## UEs that go -/

namespace Context

variable {c : Context} {u : Nat}

theorem removeUe_of_none (h : c.ues.get? u = none) : c.removeUe u = c := by
  unfold removeUe
  rw [h]

theorem removeUe_of_some {x : Ue} (h : c.ues.get? u = some x) :
    c.removeUe u = { c with
      ues := c.ues.erase u
      supis := dropIdentity c.supis x.supi
      gutis := dropIdentity c.gutis (x.guti.map Guti.ueContextId)
      sessions := x.sessions.foldl Table.erase c.sessions
      legs := (c.removeUe u).legs
      parked := c.parked.erase u
      timers := c.timers.stopAll u } := by
  unfold removeUe
  rw [h]

end Context

/-- A UE in the place of another has a number that was given out. -/
theorem Context.Registered.insert {c : Context} {u : Nat} {x y : Ue} (h : c.Registered)
    (known : c.ues.get? u = some x) (v : Nat) (there : (c.ues.insert u y).contains v = true) :
    v < c.nextUe := by
  obtain rfl | there := Table.contains_insert.1 there
  · exact h v (Table.contains_iff.2 ⟨x, known⟩)
  · exact h v there

theorem Context.Registered.of_names {c c' : Context} (names : c.Names c') (h : c.Registered) :
    c'.Registered := by
  cases names with
  | nothing => exact h
  | name known => exact h.insert known

/-- **Every operation keeps the numbers of UEs in order.** -/
theorem Operation.registered (o : Operation) {n : Node} (h : n.context.Registered) :
    (o.apply n).context.Registered := by
  cases registers : o.registers with
  | false => exact h.of_same (o.sameRegister registers)
  | true =>
    cases o with
    | addUe =>
      refine of_addUe (P := Registered) h fun v known => ?_
      show v < n.context.nextUe + 1
      obtain rfl | known := Table.contains_insert.1 known
      · omega
      · exact Nat.lt_succ_of_lt (h v known)
    | removeUe u =>
      show Registered (n.context.removeUe u)
      cases hx : n.context.ues.get? u with
      | none =>
        rw [removeUe_of_none hx]
        exact h
      | some x =>
        rw [removeUe_of_some hx]
        exact fun v known => h v (Table.contains_erase.1 known).2
    | setSupi u supi => exact h.of_names names_setSupi
    | setGuti u guti => exact h.of_names names_setGuti
    | addSession u psi => exact of_addSession (P := Registered) h fun _ known => h.insert known
    | _ => cases registers

end Amf
