import Amf.Proofs.Deferred
import Amf.Proofs.Fate
import Amf.Proofs.Integrity

/-!
# Handing over what is deferred

A payload that cannot leave yet waits in a slot: an encoded setup request or a command on its
session, or a transfer that is parked for its UE. A flush empties its slot (`Slot.flush_leaves`):
for a UE with a leg, what is due is handed to the radio network, which may refuse it, and what is not
due moves on to a slot of its session. So it is handing over, and not being accepted, that ends the
wait: a message that is refused is gone (`Slot.not_lossless_refused`).

| slot | due | else |
| --- | --- | --- |
| setup request on a session | at once | |
| command on a session | at once | |
| parked setup | when the session is confirmed | becomes a setup request on the session |
| parked command | when the UE is established | becomes a command on the session |
-/

namespace Amf

open Context Procedure

/-- Where a payload waits: on its session, or parked for its UE. -/
inductive Slot where
  | setup (session : Nat)
  | command (session : Nat)
  | parked (ue : Nat)

/-- A payload that waits. -/
inductive Deferred where
  /-- A setup request, encoded. -/
  | encoded (pdu : Octets)
  /-- A session to set up. -/
  | setup (nas : Option Octets) (n2 : Octets)
  | command (c : HeldCommand)

/-- What a parked transfer delivers: a session to set up, or a command. -/
def Payload.deferred : Payload → Deferred
  | setup nas n2 => .setup nas n2
  | modify n1 n2 => .command ⟨.modification, some n1, n2⟩
  | release n1 n2 => .command ⟨.release, n1, n2⟩

/-- The octets carry a payload for a session, on the leg of its UE. -/
def Deferred.Carried (c : Context) (s : Session) (pdu : Octets) : Deferred → Prop
  | encoded held => pdu = held
  | setup nas n2 => ∃ u k l, c.ues.get? s.ue = some u ∧ c.legOf? s.ue = some (k, l) ∧
      pdu = (Delivery.setupRequest c u l s nas n2).octets l.ids
  | command cmd => ∃ k l, c.legOf? s.ue = some (k, l) ∧
      pdu = (Delivery.commandRequest s.psi cmd).octets l.ids

/-- What has become of a session holds a payload for it back. -/
def Deferred.HeldBy (c : Context) (s t : Session) : Deferred → Prop
  | command cmd => t.heldCommand = some cmd
  | d => ∃ pdu, d.Carried c s pdu ∧ t.heldSetup = some pdu

namespace Slot

/-- The session of the payload that waits in a slot, and the payload. -/
def content? (c : Context) : Slot → Option (Nat × Deferred)
  | setup id => ((c.sessions.get? id).bind (·.heldSetup)).map fun pdu => (id, .encoded pdu)
  | command id => ((c.sessions.get? id).bind (·.heldCommand)).map fun cmd => (id, .command cmd)
  | parked u => (c.parked.get? u).map fun p => (p.session, p.payload.deferred)

/-- The procedure that takes a payload out of a slot. -/
def flush : Slot → Procedure Bool
  | setup id => Delivery.releaseSetup id
  | command id => Delivery.releaseCommand id
  | parked u => Paging.answered u

/-- A payload in a slot can leave: a parked one as one that has just been asked for. -/
def due (c : Context) (s : Session) : Slot → Deferred → Bool
  | parked _, .setup .. => s.confirmed
  | parked _, .command _ => c.established s.ue
  | _, _ => true

end Slot

/-- A message is handed to its transport, and it is reported whether the transport took it. -/
structure Procedure.HandsOver (m : Outbound) (n : Node) (result : Except Fault Bool × Node) : Prop where
  links : result.2.links = n.links.offer m
  outcome : result.1 = (verdict n m).map fun _ => true

namespace Procedure

variable {m : Outbound} {n n' n'' : Node}

/-- What a transport decides does not depend on the context. -/
theorem verdict_congr (links : n'.links = n.links) : verdict n' m = verdict n m := by
  unfold verdict
  rw [links]

theorem HandsOver.of_links {result : Except Fault Bool × Node} (h : HandsOver m n' result)
    (links : n'.links = n.links) : HandsOver m n result :=
  ⟨h.links.trans (by rw [links]), h.outcome.trans (by rw [verdict_congr links])⟩

theorem handsOver_of_exec {q : Procedure Unit} (emits : q.exec n' = (verdict n m, n''))
    (links : n''.links = n.links.offer m) :
    HandsOver m n ((do q; return true : Procedure Bool).exec n') := by
  rw [exec_bind, emits]
  cases taken : verdict n m with
  | error fault => exact ⟨links, by rw [taken]; rfl⟩
  | ok => exact ⟨links, by rw [taken]; rfl⟩

end Procedure

variable {n : Node} {s : Session} {id k : Nat} {l : Leg}

/-! ## Setup requests and commands on a session -/

namespace Delivery

/-- Sending a command leaves the context as it is. -/
theorem context_command {cmd : HeldCommand} : ((command id cmd).exec n).2.context = n.context := by
  have told : Chain (fun a => ∃ u r, a = .tell u r) n ((command id cmd).exec n).2 :=
    command_chain fun s _ r _ => ⟨s.ue, r, rfl⟩
  refine told.keeps (P := fun m => m.context = n.context) (fun a m m' may step same => ?_) rfl
  obtain ⟨u, r, rfl⟩ := may
  cases step
  exact same

/-- **The setup request that a session holds back is gone after its flush**, whether it could be sent
or not. -/
theorem context_releaseSetup :
    ((releaseSetup id).exec n).2.context = n.context.holdSetup id none := by
  have idle : (∀ s, n.context.sessions.get? id = some s → s.heldSetup = none) →
      n.context = n.context.holdSetup id none := by
    intro empty
    refine congrArg (fun sessions => { n.context with sessions }) (Table.modify_eq_self ?_).symm
    exact fun s session => (congrArg (fun heldSetup => { s with heldSetup }) (empty s session)).symm
  unfold releaseSetup
  rw [(reads_session id).exec_bind]
  split
  · rename_i s session
    rw [exec_session_eq_ok] at session
    split
    · rename_i held
      refine idle fun t there => ?_
      rw [← Option.some.inj (session.symm.trans there), held]
    · rename_i pdu held
      simp only [exec_change_bind, exec_context_bind]
      split
      · rfl
      · rename_i k l leg
        rw [exec_bind_pure_snd (emitOn l pdu) fun _ => true, exec_emitOn]
        rfl
  · rename_i fault missing
    refine idle fun t there => ?_
    rw [exec_session_of_some there] at missing
    cases missing

/-- **The command that a session holds back is gone after its flush**, whether it could be sent or
not. -/
theorem context_releaseCommand :
    ((releaseCommand id).exec n).2.context = n.context.holdCommand id none := by
  unfold releaseCommand
  rw [exec_context_bind]
  split
  · rename_i idle
    refine congrArg (fun sessions => { n.context with sessions }) (Table.modify_eq_self ?_).symm
    intro s (session : n.context.sessions.get? id = some s)
    rw [session, Option.bind_some] at idle
    exact (congrArg (fun heldCommand => { s with heldCommand }) idle).symm
  · rw [exec_change_bind, exec_bind_pure_snd (command id _) fun _ => true, context_command]
    rfl

theorem releaseSetup_handsOver {pdu : Octets} (session : n.context.sessions.get? id = some s)
    (held : s.heldSetup = some pdu) (leg : n.context.legOf? s.ue = some (k, l)) :
    HandsOver (.radio (.toLeg l.gnb l.ids pdu)) n ((releaseSetup id).exec n) := by
  have leg' : (n.change (·.holdSetup id none)).context.legOf? s.ue = some (k, l) := leg
  have exec : (releaseSetup id).exec n =
      (do emitOn l pdu; return true : Procedure Bool).exec (n.change (·.holdSetup id none)) := by
    unfold releaseSetup
    rw [exec_bind_of_ok (exec_session_of_some session), held]
    simp only [exec_change_bind, exec_context_bind]
    split
    · rename_i idle
      cases leg'.symm.trans idle
    · rename_i there
      cases leg'.symm.trans there
      rfl
  rw [exec]
  exact handsOver_of_exec (exec_emitOn _ _ _) rfl

theorem releaseCommand_handsOver {cmd : HeldCommand}
    (session : n.context.sessions.get? id = some s) (held : s.heldCommand = some cmd)
    (leg : n.context.legOf? s.ue = some (k, l)) :
    HandsOver (l.message (commandRequest s.psi cmd)) n ((releaseCommand id).exec n) := by
  have session' : (n.change (·.holdCommand id none)).context.sessions.get? id =
      some { s with heldCommand := none } := by
    exact Table.get?_modify_of_some session
  have exec : (releaseCommand id).exec n =
      (do command id cmd; return true : Procedure Bool).exec (n.change (·.holdCommand id none)) := by
    unfold releaseCommand
    rw [exec_context_bind, session, Option.bind_some, held]
    rfl
  rw [exec]
  exact handsOver_of_exec ((exec_command cmd session' leg).trans (exec_emitOn _ _ _)) rfl

end Delivery

/-! ## Parked transfers -/

namespace Context

variable {c : Context} {u v : Nat} {timers : Timers}

theorem legOf?_quitPaging : (c.quitPaging u timers).legOf? v = c.legOf? v :=
  legOf?_congr (Table.map_get?_modify fun _ => rfl) rfl

theorem established_quitPaging : (c.quitPaging u timers).established v = c.established v :=
  established_congr (Table.map_get?_modify fun _ => rfl) (by rw [legOf?_quitPaging])

end Context

theorem Node.links_answer {u : Nat} : (n.answer u).links = n.links := by
  unfold Node.answer
  split <;> rfl

/-- What becomes of a payload: it is handed over, or held back by its session. -/
def Deferred.Leaves (d : Deferred) (due : Bool) (c : Context) (id : Nat) (s : Session) (l : Leg)
    (n : Node) (result : Except Fault Bool × Node) : Prop :=
  if due then ∃ pdu, d.Carried c s pdu ∧ HandsOver (.radio (.toLeg l.gnb l.ids pdu)) n result
  else result.1 = .ok true ∧ result.2.links = n.links ∧
    ∃ t, result.2.context.sessions.get? id = some t ∧ d.HeldBy c s t

namespace Deferred

variable {d : Deferred} {c : Context} {u : Nat} {timers : Timers} {pdu : Octets} {t : Session}

/-- The end of a paging does not change what carries a payload. -/
theorem Carried.of_quitPaging (h : d.Carried (c.quitPaging u timers) s pdu) : d.Carried c s pdu := by
  cases d with
  | encoded => exact h
  | setup nas n2 =>
    obtain ⟨x', k, l, known, leg, rfl⟩ := h
    rw [legOf?_quitPaging] at leg
    change (c.ues.modify u fun x => { x with pagingMessage := none }).get? s.ue = some x' at known
    rw [Table.get?_modify] at known
    split at known
    · obtain ⟨x, before, rfl⟩ := Option.map_eq_some_iff.1 known
      exact ⟨x, k, l, before, leg, rfl⟩
    · exact ⟨x', k, l, known, leg, rfl⟩
  | command cmd =>
    obtain ⟨k, l, leg, rfl⟩ := h
    exact ⟨k, l, legOf?_quitPaging.symm.trans leg, rfl⟩

theorem HeldBy.of_quitPaging (h : d.HeldBy (c.quitPaging u timers) s t) : d.HeldBy c s t := by
  cases d with
  | command => exact h
  | encoded | setup =>
    obtain ⟨pdu, carried, held⟩ := h
    exact ⟨pdu, carried.of_quitPaging, held⟩

end Deferred

theorem Delivery.setup_leaves (nas : Option Octets) (n2 : Octets)
    (session : n.context.sessions.get? id = some s) (leg : n.context.legOf? s.ue = some (k, l)) :
    (Deferred.setup nas n2).Leaves s.confirmed n.context id s l n
      ((do Delivery.setup id nas n2; return true : Procedure Bool).exec n) := by
  obtain ⟨x, known, -⟩ := Option.bind_eq_some_iff.1 (Context.legOf?_eq_some_iff.1 leg).1
  let pdu := (setupRequest n.context x l s nas n2).octets l.ids
  have carried : (Deferred.setup nas n2).Carried n.context s pdu := ⟨x, k, l, known, leg, rfl⟩
  have exec := exec_setup nas n2 session known leg
  unfold Deferred.Leaves
  split at exec
  · rename_i confirmed
    rw [if_pos confirmed]
    exact ⟨_, carried, handsOver_of_exec (exec.trans (exec_emitOn _ _ _)) rfl⟩
  · rename_i unconfirmed
    rw [if_neg unconfirmed, exec_bind_of_ok exec]
    refine ⟨rfl, rfl, { s with heldSetup := some pdu }, ?_, pdu, carried, rfl⟩
    exact Table.get?_modify_of_some session

theorem Delivery.commandOrHold_leaves (cmd : HeldCommand)
    (session : n.context.sessions.get? id = some s) (leg : n.context.legOf? s.ue = some (k, l)) :
    (Deferred.command cmd).Leaves (n.context.established s.ue) n.context id s l n
      ((do commandOrHold s.ue id cmd; return true : Procedure Bool).exec n) := by
  have exec : (commandOrHold s.ue id cmd).exec n = (if n.context.established s.ue then
      Delivery.command id cmd else change (·.holdCommand id (some cmd)) : Procedure Unit).exec n := rfl
  unfold Deferred.Leaves
  split at exec
  · rename_i established
    rw [if_pos established]
    exact ⟨_, ⟨k, l, leg, rfl⟩, handsOver_of_exec
      ((exec.trans (exec_command cmd session leg)).trans (exec_emitOn _ _ _)) rfl⟩
  · rename_i unready
    rw [if_neg unready, exec_bind_of_ok exec]
    refine ⟨rfl, rfl, { s with heldCommand := some cmd }, ?_, rfl⟩
    exact Table.get?_modify_of_some session

theorem Paging.answered_leaves {u : Nat} {p : Parked} (parked : n.context.parked.get? u = some p)
    (session : n.context.sessions.get? p.session = some s) (own : s.ue = u)
    (leg : n.context.legOf? s.ue = some (k, l)) :
    p.payload.deferred.Leaves (Slot.due n.context s (.parked u) p.payload.deferred) n.context
      p.session s l n ((answered u).exec n) := by
  -- The paging is over before anything is delivered.
  suffices delivered : p.payload.deferred.Leaves
      (Slot.due n.context s (.parked u) p.payload.deferred) (n.answer u).context p.session s l
      (n.answer u) ((do deliver u p; return true : Procedure Bool).exec (n.answer u)) by
    rw [Event.answered_of_some parked, if_pos (Table.contains_iff.2 ⟨s, session⟩)]
    rw [Node.context_answer] at delivered
    unfold Deferred.Leaves at delivered ⊢
    split
    · rename_i due
      rw [if_pos due] at delivered
      obtain ⟨pdu, carried, handsOver⟩ := delivered
      exact ⟨pdu, carried.of_quitPaging, handsOver.of_links Node.links_answer⟩
    · rename_i waits
      rw [if_neg waits] at delivered
      obtain ⟨outcome, links, t, there, held⟩ := delivered
      exact ⟨outcome, links.trans Node.links_answer, t, there, held.of_quitPaging⟩
  have session' : (n.answer u).context.sessions.get? p.session = some s := by
    rw [Node.context_answer]
    exact session
  have leg' : (n.answer u).context.legOf? s.ue = some (k, l) := by
    rw [Node.context_answer, legOf?_quitPaging]
    exact leg
  have established : n.context.established s.ue = (n.answer u).context.established s.ue := by
    rw [Node.context_answer, established_quitPaging]
  unfold deliver
  subst own
  cases p.payload with
  | setup nas n2 => exact Delivery.setup_leaves nas n2 session' leg'
  | modify n1 n2 | release n1 n2 =>
    show Deferred.Leaves _ (n.context.established s.ue) _ _ _ _ _ _
    rw [established]
    exact Delivery.commandOrHold_leaves _ session' leg'

/-! ## Flushes -/

namespace Slot

variable {slot : Slot} {d : Deferred}

theorem content?_setup_of_held {c : Context} {pdu : Octets}
    (held : (c.sessions.get? id).bind (·.heldSetup) = some pdu) :
    (Slot.setup id).content? c = some (id, .encoded pdu) := by
  show ((c.sessions.get? id).bind (·.heldSetup)).map _ = _
  rw [held]
  rfl

/-- Nothing is parked any more for a UE that has answered its paging. -/
theorem content?_answered {u : Nat} {p : Parked} (parked : n.context.parked.get? u = some p)
    (session : n.context.sessions.contains p.session = true) :
    (Slot.parked u).content? ((Paging.answered u).exec n).2.context = none := by
  have delivered : ((Paging.answered u).exec n).2 = ((Paging.deliver u p).exec (n.answer u)).2 := by
    rw [Event.answered_snd, parked]
    exact if_pos session
  have empty : ((Paging.answered u).exec n).2.context.parked.get? u = none := by
    rw [delivered, (Event.sameStore_deliver u p _).parked, Node.context_answer]
    exact Table.get?_erase_self _ _
  show (((Paging.answered u).exec n).2.context.parked.get? u).map _ = none
  rw [empty]
  rfl

/-- **A flush hands over what is due, and leaves the rest to its session.** In a context whose stores
are in order, and for a UE that has a leg, the slot is empty after its flush: what is due was handed
to the radio network on the leg, in one message that carries it, whether that took the message or
refused it; and what is not due has moved to a slot of its session, and nothing was handed over. -/
theorem flush_leaves (intact : n.context.Intact) (waits : slot.content? n.context = some (id, d))
    (session : n.context.sessions.get? id = some s) (leg : n.context.legOf? s.ue = some (k, l)) :
    slot.content? (slot.flush.exec n).2.context = none ∧
      d.Leaves (slot.due n.context s d) n.context id s l n (slot.flush.exec n) := by
  cases slot with
  | setup i =>
    obtain ⟨pdu, held, is⟩ := Option.map_eq_some_iff.1 waits
    cases is
    rw [session, Option.bind_some] at held
    refine ⟨?_, pdu, rfl, Delivery.releaseSetup_handsOver session held leg⟩
    show (Slot.setup id).content? ((Delivery.releaseSetup id).exec n).2.context = none
    rw [Delivery.context_releaseSetup]
    show ((((n.context.sessions.modify id _).get? id).bind _).map _) = none
    rw [Table.get?_modify_self, session]
    rfl
  | command i =>
    obtain ⟨cmd, held, is⟩ := Option.map_eq_some_iff.1 waits
    cases is
    rw [session, Option.bind_some] at held
    refine ⟨?_, _, ⟨k, l, leg, rfl⟩, Delivery.releaseCommand_handsOver session held leg⟩
    show (Slot.command id).content? ((Delivery.releaseCommand id).exec n).2.context = none
    rw [Delivery.context_releaseCommand]
    show ((((n.context.sessions.modify id _).get? id).bind _).map _) = none
    rw [Table.get?_modify_self, session]
    rfl
  | parked u =>
    obtain ⟨p, parked, is⟩ := Option.map_eq_some_iff.1 waits
    cases is
    obtain ⟨t, there, own, -⟩ := intact.parked u p parked
    rw [session] at there
    cases there
    exact ⟨content?_answered parked (Table.contains_iff.2 ⟨s, session⟩),
      Paging.answered_leaves parked session own leg⟩

set_option maxRecDepth 4000 in
/-- The hypotheses are satisfiable: a setup request waits for its session to be confirmed. -/
theorem flush_leaves_setUp :
    let n := Operation.run [.addUe, .setSupi 1 "imsi-1", .setGuti 1 default, .addSession 1 5,
      .handle (.connected 1 3 7 .nr), .handle (.request .setUp)] { context := Config.context default }
    ∃ d s k l, (n.context.Intact ∧ (Slot.setup 1).content? n.context = some (1, d) ∧
        n.context.sessions.get? 1 = some s ∧ n.context.legOf? s.ue = some (k, l)) ∧
      (Slot.setup 1).content? ((Slot.setup 1).flush.exec n).2.context = none ∧
      d.Leaves ((Slot.setup 1).due n.context s d) n.context 1 s l n ((Slot.setup 1).flush.exec n) := by
  intro n
  have intact : n.context.Intact := (Operation.run_intact default {} {} _).toIntact
  obtain ⟨pdu, held⟩ : ∃ pdu, (n.context.sessions.get? 1).bind (·.heldSetup) = some pdu :=
    Option.isSome_iff_exists.1 (by decide)
  obtain ⟨s, session, -⟩ := Option.bind_eq_some_iff.1 held
  obtain ⟨⟨k, l⟩, leg⟩ : ∃ has, (n.context.sessions.get? 1).bind (n.context.legOf? ·.ue) = some has :=
    Option.isSome_iff_exists.1 (by decide)
  rw [session, Option.bind_some] at leg
  have waits := content?_setup_of_held held
  exact ⟨_, s, k, l, ⟨intact, waits, session, leg⟩, flush_leaves intact waits session leg⟩

/-- Nothing is lost in the flush of a slot: what waits there goes on to wait, in the slot or on its
session, or the radio network takes a message that carries it. -/
def Lossless (slot : Slot) (n : Node) : Prop :=
  ∀ id d s, slot.content? n.context = some (id, d) → n.context.sessions.get? id = some s →
    let n' := (slot.flush.exec n).2
    slot.content? n'.context = some (id, d) ∨
      (∃ t, n'.context.sessions.get? id = some t ∧ d.HeldBy n.context s t) ∨
      ∃ gnb ids pdu, d.Carried n.context s pdu ∧
        n'.links.sent = n.links.sent ++ [.radio (.toLeg gnb ids pdu)]

set_option maxRecDepth 4000 in
/-- A setup request is held back, and the radio network refuses it when it is due: it is gone. -/
theorem not_lossless_refused :
    ¬(Slot.setup 1).Lossless (Event.run [.connected 1 0 101 .nr, .request .setUp]
      { context := .oneSession, links := { radioAccepts := fun _ => false } }) := by
  generalize is : Event.run _ _ = n
  intro lossless
  obtain ⟨pdu, held⟩ : ∃ pdu, (n.context.sessions.get? 1).bind (·.heldSetup) = some pdu :=
    Option.isSome_iff_exists.1 (by subst is; decide)
  obtain ⟨s, session, -⟩ := Option.bind_eq_some_iff.1 held
  have waits := content?_setup_of_held held
  have emptied : (((Slot.setup 1).flush.exec n).2.context.sessions.get? 1).bind (·.heldSetup) =
      none := by
    subst is
    decide
  have unsent : ((Slot.setup 1).flush.exec n).2.links.sent = [] := by
    subst is
    decide
  obtain stays | ⟨t, there, _, _, back⟩ | ⟨gnb, ids, pdu', _, sent⟩ := lossless 1 _ s waits session
  · change ((((Slot.setup 1).flush.exec n).2.context.sessions.get? 1).bind (·.heldSetup)).map _ = _
      at stays
    rw [emptied] at stays
    cases stays
  · rw [there, Option.bind_some, back] at emptied
    cases emptied
  · rw [unsent] at sent
    exact List.append_ne_nil_of_right_ne_nil _ (List.cons_ne_nil _ _) sent.symm

end Slot
end Amf
