import Amf.Proofs.Joined

/-!
# Deferred transfers

A transfer for an idle UE is parked, and delivered when the UE connects; a transfer for a UE that has
connected is delivered at once. Both come to the same (`Transfer.run_deferred`): the radio network is
handed the same messages on the same leg, after the paging message in the one case, and UEs, legs and
sessions are left in the same state.

| | parked, then connected | connected, then transferred |
| --- | --- | --- |
| messages | the paging message, then those of the delivery | those of the delivery |
| UEs, legs, sessions | those after the delivery | the same |
| paging of the UE | over | over |
-/

namespace Amf

open Procedure

/-! ## A new leg of an idle UE -/

namespace Context

variable {c : Context} {u : Nat}

/-- The paging of a UE is over: nothing is parked for it, T3513 is stopped, and no paging message is
kept. -/
structure Over (c : Context) (u : Nat) : Prop where
  parked : c.parked.get? u = none
  stopped : c.timers.isRunning .t3513 u = false
  unpaged : (c.ues.get? u).bind (·.pagingMessage) = none

theorem over_withLeg (c : Context) (u : Nat) (gnb ran : UInt64) (rat : RatType) :
    (c.withLeg u gnb ran rat).Over u := by
  refine ⟨Table.get?_erase_self _ _, ?_, ?_⟩
  · rw [← Bool.not_eq_true]
    exact fun runs => (Timers.isRunning_stop.1 runs).1 ⟨rfl, rfl⟩
  · show ((c.ues.modify u _).get? u).bind _ = none
    rw [Table.get?_modify_self]
    cases c.ues.get? u <;> rfl

end Context

namespace Event

variable {n : Node} {u : Nat}

/-- A UE that connects while there is room for a leg comes to the context that the new leg leads to, and
what was parked for it is delivered there. -/
theorem handle_connected_of_room {d : Context} (gnb ran : UInt64) (rat : RatType)
    (known : n.context.ues.contains u = true) (room : n.context.legs.size < n.context.maxLegs)
    (leads : ∀ {k c}, n.context.addLeg gnb ran = some (k, c) → (n.connect c u k rat).context = d) :
    ∃ m : Node, m.context = d ∧ m.links = n.links ∧
      ((connected u gnb ran rat).handle n).2 = match n.context.parked.get? u with
        | none => m
        | some p =>
          if n.context.sessions.contains p.session then ((Paging.deliver u p).exec m).2 else m := by
  obtain ⟨k, c, added⟩ : ∃ k c, n.context.addLeg gnb ran = some (k, c) :=
    ⟨_, _, Context.addLeg_eq_some_iff.2 ⟨room, rfl, rfl⟩⟩
  exact ⟨n.connect c u k rat, leads added, Node.links_connect, handle_connected known added⟩

/-- An idle UE that connects gets a leg, and what was parked for it is delivered. -/
theorem handle_connected_of_idle (gnb ran : UInt64) (rat : RatType)
    (known : n.context.ues.contains u = true) (idle : (n.context.ues.get? u).bind (·.leg) = none)
    (room : n.context.legs.size < n.context.maxLegs) :
    ∃ m : Node, m.context = n.context.withLeg u gnb ran rat ∧ m.links = n.links ∧
      ((connected u gnb ran rat).handle n).2 = match n.context.parked.get? u with
        | none => m
        | some p =>
          if n.context.sessions.contains p.session then ((Paging.deliver u p).exec m).2 else m :=
  handle_connected_of_room gnb ran rat known room fun added => Node.context_connect_of_idle added known idle

end Event

/-! ## Deliveries -/

namespace Context

variable {c c' : Context}

/-- The same for a delivery: the identifier of this AMF, the UEs, the legs and the sessions. -/
structure Alike (c c' : Context) : Prop where
  guami : c'.guami = c.guami
  ues : c'.ues = c.ues
  legs : c'.legs = c.legs
  sessions : c'.sessions = c.sessions

theorem Alike.legOf? (alike : c.Alike c') (u : Nat) : c'.legOf? u = c.legOf? u := by
  unfold Context.legOf?
  rw [alike.ues, alike.legs]

theorem Alike.established (alike : c.Alike c') (u : Nat) : c'.established u = c.established u := by
  unfold Context.established
  rw [alike.legOf?, alike.ues]

/-- The context with its legs and its sessions changed. -/
def delivered (c : Context) (f : Table Leg → Table Leg) (g : Table Session → Table Session) : Context :=
  { c with legs := f c.legs, sessions := g c.sessions }

end Context

namespace Node

variable {n : Node}

/-- The radio network takes every message. -/
def Hears (n : Node) : Prop := ∀ i, n.links.radioAccepts i = true

theorem exec_emitOn_of_hears {l : Leg} {pdu : Octets} (hears : n.Hears) :
    (emitOn l pdu).exec n = (.ok (), n.offerAll [.radio (.toLeg l.gnb l.ids pdu)]) := by
  rw [exec_emitOn]
  unfold verdict Links.accepts
  simp only
  rw [if_pos (hears _)]
  rfl

theorem sent_offer_of_hears {m : RadioMessage} (hears : n.Hears) :
    (n.offer (.radio m)).links.sent = n.links.sent ++ [.radio m] :=
  if_pos (hears _)

/-- Messages to the radio network leave in order. -/
theorem sent_offerAll_of_hears {ms : List Outbound} (hears : n.Hears)
    (radio : ∀ m ∈ ms, ∃ r, m = .radio r) : (n.offerAll ms).links.sent = n.links.sent ++ ms := by
  refine sent_offerAll fun m mem => ?_
  obtain ⟨r, rfl⟩ := radio m mem
  exact hears

end Node

section
variable {n : Node} {s : Session} {x : Ue} {k : Nat} {l : Leg}

theorem Delivery.exec_setup {id : Nat} (nas : Option Octets) (n2 : Octets)
    (session : n.context.sessions.get? id = some s) (ue : n.context.ues.get? s.ue = some x)
    (leg : n.context.legOf? s.ue = some (k, l)) : (Delivery.setup id nas n2).exec n =
      let pdu := (setupRequest n.context x l s nas n2).octets l.ids
      (if s.confirmed then emitOn l pdu else change (·.holdSetup id (some pdu)) : Procedure Unit).exec
        (n.change (·.markSetup k)) := by
  unfold Delivery.setup
  rw [exec_bind_of_ok (exec_session_of_some session), exec_bind_of_ok (exec_ue_of_some ue),
    exec_bind_of_ok (exec_legOf_of_some leg)]
  rfl

theorem Delivery.exec_command {id : Nat} (c : HeldCommand)
    (session : n.context.sessions.get? id = some s) (leg : n.context.legOf? s.ue = some (k, l)) :
    (Delivery.command id c).exec n = (emitOn l ((commandRequest s.psi c).octets l.ids)).exec n := by
  unfold Delivery.command
  rw [exec_bind_of_ok (exec_session_of_some session), exec_bind_of_ok (exec_legOf_of_some leg)]

end

/-! ## Deliveries in states that are alike -/

/-- The procedure changes legs and sessions and leaves messages on a leg, the same in every state that
is alike and in which the radio network takes every message. -/
def Procedure.Uniform (q : Procedure Unit) (c : Context) (l : Leg) : Prop :=
  ∃ f g ms, (∀ m ∈ ms, ∃ pdu, m = .radio (.toLeg l.gnb l.ids pdu)) ∧
    ∀ n : Node, c.Alike n.context → n.Hears →
      q.exec n = (.ok (), (n.change (·.delivered f g)).offerAll ms)

section
variable {c : Context} {p : Parked} {s : Session} {x : Ue} {id k : Nat} {l : Leg}

theorem Delivery.uniform_setup {nas : Option Octets} {n2 : Octets}
    (session : c.sessions.get? id = some s) (ue : c.ues.get? s.ue = some x)
    (leg : c.legOf? s.ue = some (k, l)) : Uniform (Delivery.setup id nas n2) c l := by
  let pdu := (setupRequest c x l s nas n2).octets l.ids
  have exec : ∀ n : Node, c.Alike n.context → (Delivery.setup id nas n2).exec n =
      (if s.confirmed then emitOn l pdu else change (·.holdSetup id (some pdu)) : Procedure Unit).exec
        (n.change (·.markSetup k)) := by
    intro n alike
    have same : setupRequest n.context x l s nas n2 = setupRequest c x l s nas n2 := by
      unfold setupRequest
      rw [alike.guami]
    rw [exec_setup nas n2 (alike.sessions ▸ session) (alike.ues ▸ ue) ((alike.legOf? _).trans leg), same]
  by_cases confirmed : s.confirmed = true
  · refine ⟨(·.modify k fun l => { l with setupSent := true }), fun t => t,
      [.radio (.toLeg l.gnb l.ids pdu)], fun m mem => ⟨pdu, List.mem_singleton.1 mem⟩,
      fun n alike hears => ?_⟩
    rw [exec n alike, if_pos confirmed]
    exact Node.exec_emitOn_of_hears hears
  · refine ⟨(·.modify k fun l => { l with setupSent := true }),
      (·.modify id fun s => { s with heldSetup := some pdu }), [], nofun, fun n alike _ => ?_⟩
    rw [exec n alike, if_neg confirmed]
    rfl

/-- A command leaves on the leg of an established UE, and else is held back on its session. -/
theorem Delivery.uniform_commandOrHold {command : HeldCommand} (session : c.sessions.get? id = some s)
    (leg : c.legOf? s.ue = some (k, l)) : Uniform (Delivery.commandOrHold s.ue id command) c l := by
  by_cases established : c.established s.ue = true
  · let pdu := (commandRequest s.psi command).octets l.ids
    refine ⟨fun t => t, fun t => t, [.radio (.toLeg l.gnb l.ids pdu)],
      fun m mem => ⟨pdu, List.mem_singleton.1 mem⟩, fun n alike hears => ?_⟩
    unfold commandOrHold
    rw [exec_context_bind, alike.established, if_pos established,
      exec_command command (alike.sessions ▸ session) ((alike.legOf? _).trans leg)]
    exact Node.exec_emitOn_of_hears hears
  · refine ⟨fun t => t, (·.modify id fun s => { s with heldCommand := some command }), [], nofun,
      fun n alike _ => ?_⟩
    unfold commandOrHold
    rw [exec_context_bind, alike.established, if_neg established]
    rfl

/-- **What is parked is delivered in the same way in states that are alike.** -/
theorem Paging.uniform_deliver (session : c.sessions.get? p.session = some s)
    (ue : c.ues.get? s.ue = some x) (leg : c.legOf? s.ue = some (k, l)) :
    Uniform (Paging.deliver s.ue p) c l := by
  unfold Paging.deliver
  split
  · exact Delivery.uniform_setup session ue leg
  · exact Delivery.uniform_commandOrHold session leg
  · exact Delivery.uniform_commandOrHold session leg

end

/-! ## Transfers -/

namespace Transfer

variable {n : Node} {o : Order} {s : Session}

/-- A transfer is accepted to be delivered later. -/
def Accepts (o : Order) (n : Node) : Prop :=
  ∃ outcome, ((run o).exec n).1 = .ok outcome ∧ outcome.status = .accepted

/-- What is parked for a transfer. -/
def Order.payload? (o : Order) (s : Session) : Option Payload :=
  match o.kind with
  | .setup => o.n2.map (.setup (o.n1.map (Nas.wrapSession s.psi)))
  | .modification => o.n1.bind fun n1 => o.n2.map (.modify n1)
  | .release => o.n2.map (.release o.n1)
  | .reject | .other _ => none

/-- What is delivered at once is not said to be accepted for later. -/
theorem ne_accepted_of_initiated {q : Procedure Unit} {m : Node} {outcome : Outcome}
    (done : ((do q; return Outcome.initiated : Procedure Outcome).exec m).1 = .ok outcome) :
    outcome.status ≠ .accepted := by
  have is : outcome = .initiated :=
    yields_bind (Q := (· = Outcome.initiated)) (fun _ => yields_pure rfl) m outcome done
  rw [is]
  exact nofun

/-- A transfer that is parked leaves its payload for the UE, which is paged for it. -/
theorem exec_park {payload : Payload} {outcome : Outcome}
    (session : n.context.sessions.get? o.session = some s)
    (done : ((park o payload).exec n).1 = .ok outcome) :
    ∃ clients pdu p, p.session = o.session ∧ p.psi = s.psi ∧ p.payload = payload ∧
      Paging.Resolves n.context o.failureUri clients p.target ∧
      n.links.accepts (.radio (.paging s.ue pdu)) = true ∧
      (park o payload).exec n = (.ok (.paging p.location), n.park clients s.ue pdu p) := by
  unfold park at done ⊢
  obtain ⟨u, guti, clients, target, -, -, resolved, accepted, is⟩ | ⟨⟨fault, failed⟩, -⟩ :=
    Paging.start_outcome payload o.failureUri session
  · rw [exec_bind_of_ok is]
    exact ⟨clients, _, ⟨o.session, s.psi, _, target, payload⟩, rfl, rfl, rfl, resolved, accepted, rfl⟩
  · rw [exec_bind] at done
    generalize (Paging.start o.session payload o.failureUri).exec n = result at failed done
    obtain ⟨_, m⟩ := result
    subst failed
    cases done

/-- A transfer for a session of a known UE is carried out by its procedure. -/
theorem exec_run (session : n.context.sessions.get? o.session = some s)
    (known : n.context.ues.contains s.ue = true) : (run o).exec n =
      (match o.kind with
        | .setup => setup o s
        | .modification => modification o s
        | .release => release o s
        | .reject => reject o
        | .other ie => throw (.unexpectedIe ie) : Procedure Outcome).exec n := by
  obtain ⟨x, there⟩ := Table.contains_iff.1 known
  unfold run
  rw [exec_context_bind, session, exec_bind_of_ok (exec_need_some s _ n), exec_context_bind, there]
  exact exec_bind_of_ok (exec_need_some x _ n) _

/-- **A transfer for a UE that has a leg delivers what would be parked for it.** -/
theorem exec_of_connected {p : Parked} (session : n.context.sessions.get? o.session = some s)
    (known : n.context.ues.contains s.ue = true) (connected : n.context.connection s.ue = .connected)
    (same : p.session = o.session) (payload : o.payload? s = some p.payload) : (run o).exec n =
      (do Paging.deliver s.ue p; return Outcome.initiated : Procedure Outcome).exec n := by
  rw [exec_run session known]
  unfold Order.payload? at payload
  cases kind : o.kind with
  | setup =>
    rw [kind] at payload
    obtain ⟨n2, is, given⟩ := Option.map_eq_some_iff.1 payload
    simp only
    unfold setup Order.needN2 Paging.deliver
    rw [is, exec_bind_of_ok (exec_need_some n2 _ n), exec_context_bind, connected, ← given, same]
  | modification =>
    rw [kind] at payload
    obtain ⟨n1, is₁, payload⟩ := Option.bind_eq_some_iff.1 payload
    obtain ⟨n2, is₂, given⟩ := Option.map_eq_some_iff.1 payload
    simp only
    unfold modification Order.needN1 Order.needN2 Paging.deliver
    rw [is₁, is₂, exec_bind_of_ok (exec_need_some n1 _ n), exec_bind_of_ok (exec_need_some n2 _ n),
      exec_context_bind, connected, ← given, same]
  | release =>
    rw [kind] at payload
    obtain ⟨n2, is, given⟩ := Option.map_eq_some_iff.1 payload
    simp only
    unfold release Order.needN2 Paging.deliver
    rw [is, exec_bind_of_ok (exec_need_some n2 _ n), exec_context_bind, connected, ← given, same]
  | reject | other =>
    rw [kind] at payload
    cases payload

/-- A transfer that succeeds has something to deliver, unless it rejects its session. -/
theorem exists_payload_of_ok {outcome : Outcome}
    (session : n.context.sessions.get? o.session = some s)
    (known : n.context.ues.contains s.ue = true) (done : ((run o).exec n).1 = .ok outcome) :
    (∃ payload, o.payload? s = some payload) ∨ o.kind = .reject := by
  rw [exec_run session known] at done
  unfold Order.payload?
  cases kind : o.kind with
  | setup =>
    rw [kind] at done
    simp only [setup, Order.needN2] at done
    obtain ⟨n2, is, -⟩ := (reads_need _ _).exec_bind_eq_ok.1 done
    rw [exec_need_eq_ok] at is
    exact .inl ⟨_, by rw [is]; rfl⟩
  | modification =>
    rw [kind] at done
    simp only [modification, Order.needN1, Order.needN2] at done
    obtain ⟨n1, is₁, done⟩ := (reads_need _ _).exec_bind_eq_ok.1 done
    obtain ⟨n2, is₂, -⟩ := (reads_need _ _).exec_bind_eq_ok.1 done
    rw [exec_need_eq_ok] at is₁ is₂
    exact .inl ⟨_, by rw [is₁, is₂]; rfl⟩
  | release =>
    rw [kind] at done
    simp only [release, Order.needN2] at done
    obtain ⟨n2, is, -⟩ := (reads_need _ _).exec_bind_eq_ok.1 done
    rw [exec_need_eq_ok] at is
    exact .inl ⟨_, by rw [is]; rfl⟩
  | reject => exact .inr rfl
  | other ie =>
    rw [kind] at done
    cases done

/-- A transfer that has nothing to park is not accepted for later. -/
theorem exists_payload_of_accepts (session : n.context.sessions.get? o.session = some s)
    (known : n.context.ues.contains s.ue = true) (accepts : Accepts o n) :
    ∃ payload, o.payload? s = some payload := by
  obtain ⟨outcome, done, accepted⟩ := accepts
  obtain asks | kind := exists_payload_of_ok session known done
  · exact asks
  · rw [exec_run session known, kind] at done
    have is : outcome = .initiated :=
      yields_bind (Q := (· = Outcome.initiated)) (fun _ => yields_bind fun _ => yields_bind fun _ =>
        yields_bind fun _ => yields_pure rfl) n outcome done
    rw [is] at accepted
    cases accepted

/-- A release that need not reach an idle UE is skipped. -/
theorem exec_of_skip {outcome : Outcome} (session : n.context.sessions.get? o.session = some s)
    (known : n.context.ues.contains s.ue = true) (idle : n.context.connection s.ue = .idle)
    (kind : o.kind = .release) (skip : o.skip = true) (done : ((run o).exec n).1 = .ok outcome) :
    (run o).exec n = (.ok .skipped, n) := by
  rw [exec_run session known, kind] at done ⊢
  simp only [release, Order.needN2] at done ⊢
  obtain ⟨n2, is, -⟩ := (reads_need _ _).exec_bind_eq_ok.1 done
  rw [exec_need_eq_ok] at is
  rw [is, exec_bind_of_ok (exec_need_some n2 _ n), exec_context_bind, idle]
  simp only [if_pos skip]
  rfl

/-- **A transfer that succeeds for an idle UE is parked for it**, unless it is a release that need not
reach it. -/
theorem exec_of_idle {payload : Payload} {outcome : Outcome}
    (session : n.context.sessions.get? o.session = some s)
    (known : n.context.ues.contains s.ue = true) (idle : n.context.connection s.ue = .idle)
    (asks : o.payload? s = some payload) (needed : o.kind = .release → o.skip = false)
    (done : ((run o).exec n).1 = .ok outcome) :
    (run o).exec n = (park o payload).exec n := by
  rw [exec_run session known] at done ⊢
  unfold Order.payload? at asks
  cases kind : o.kind with
  | setup =>
    rw [kind] at asks done
    obtain ⟨n2, is, rfl⟩ := Option.map_eq_some_iff.1 asks
    simp only [setup, Order.needN2] at done ⊢
    rw [is, exec_bind_of_ok (exec_need_some n2 _ n), exec_context_bind, idle] at done ⊢
    obtain ⟨uri, there, -⟩ := (reads_need _ _).exec_bind_eq_ok.1 done
    rw [exec_need_eq_ok] at there
    rw [there, exec_bind_of_ok (exec_need_some uri _ n)]
  | modification =>
    rw [kind] at asks
    obtain ⟨n1, is₁, asks⟩ := Option.bind_eq_some_iff.1 asks
    obtain ⟨n2, is₂, rfl⟩ := Option.map_eq_some_iff.1 asks
    simp only [modification, Order.needN1, Order.needN2]
    rw [is₁, is₂, exec_bind_of_ok (exec_need_some n1 _ n), exec_bind_of_ok (exec_need_some n2 _ n),
      exec_context_bind, idle]
  | release =>
    rw [kind] at asks
    obtain ⟨n2, is, rfl⟩ := Option.map_eq_some_iff.1 asks
    simp only [release, Order.needN2]
    rw [is, exec_bind_of_ok (exec_need_some n2 _ n), exec_context_bind, idle]
    simp only [needed kind, Bool.false_eq_true, if_false]
  | reject | other =>
    rw [kind] at asks
    cases asks

/-- **A transfer that is accepted for later is parked for a UE that has no leg.** -/
theorem exec_of_accepts (session : n.context.sessions.get? o.session = some s)
    (accepts : Accepts o n) :
    n.context.connection s.ue = .idle ∧ n.context.ues.contains s.ue = true ∧
      ∃ clients pdu p, p.session = o.session ∧ o.payload? s = some p.payload ∧
        ((run o).exec n).2 = n.park clients s.ue pdu p := by
  have known : n.context.ues.contains s.ue = true := by
    obtain ⟨outcome, done, -⟩ := accepts
    unfold run at done
    rw [exec_context_bind, session, exec_bind_of_ok (exec_need_some s _ n), exec_context_bind] at done
    obtain ⟨x, there, -⟩ := (reads_need _ _).exec_bind_eq_ok.1 done
    exact Table.contains_iff.2 ⟨x, exec_need_eq_ok.1 there⟩
  obtain ⟨payload, asks⟩ := exists_payload_of_accepts session known accepts
  have idle : n.context.connection s.ue = .idle := by
    cases link : n.context.connection s.ue with
    | idle => rfl
    | connected =>
      obtain ⟨outcome, done, accepted⟩ := accepts
      rw [exec_of_connected (p := ⟨o.session, s.psi, "", none, payload⟩) session known link rfl asks]
        at done
      exact absurd accepted (ne_accepted_of_initiated done)
  obtain ⟨outcome, done, accepted⟩ := accepts
  have needed : o.kind = .release → o.skip = false := by
    intro kind
    rw [Bool.eq_false_iff]
    intro skip
    rw [exec_of_skip session known idle kind skip done] at done
    cases done
    cases accepted
  have parks := exec_of_idle session known idle asks needed done
  rw [parks] at done ⊢
  obtain ⟨clients, pdu, p, ofSession, -, is, -, -, after⟩ := exec_park session done
  exact ⟨idle, known, clients, pdu, p, ofSession, is ▸ asks, congrArg Prod.snd after⟩

/-! ## Deferred and direct -/

/-- The UE that connects where a transfer was parked for it is the same for the delivery. -/
theorem alike_withLeg_park {clients : Clients} {u : Nat} {pdu : Octets} {p : Parked}
    (gnb ran : UInt64) (rat : RatType) : (n.context.withLeg u gnb ran rat).Alike
      ((n.park clients u pdu p).context.withLeg u gnb ran rat) :=
  ⟨rfl, Table.modify_modify, rfl, rfl⟩

/-- A transfer that comes after its UE has connected is delivered at once. -/
theorem exec_after_connected {p : Parked} (session : n.context.sessions.get? o.session = some s)
    (known : n.context.ues.contains s.ue = true)
    (legless : (n.context.ues.get? s.ue).bind (·.leg) = none)
    (unparked : n.context.parked.get? s.ue = none) (room : n.context.legs.size < n.context.maxLegs)
    (same : p.session = o.session) (asks : o.payload? s = some p.payload) (gnb ran : UInt64)
    (rat : RatType) :
    ∃ m : Node, m.context = n.context.withLeg s.ue gnb ran rat ∧ m.links = n.links ∧
      (run o).exec ((Event.connected s.ue gnb ran rat).handle n).2 =
        (do Paging.deliver s.ue p; return Outcome.initiated : Procedure Outcome).exec m := by
  obtain ⟨m, context, links, connects⟩ :=
    Event.handle_connected_of_idle gnb ran rat known legless room
  rw [unparked] at connects
  refine ⟨m, context, links, ?_⟩
  rw [connects]
  refine exec_of_connected ?_ ?_ ?_ same asks
  · rw [context]
    exact session
  · rw [context]
    exact Table.contains_modify.trans known
  · rw [context]
    unfold Context.connection
    rw [Context.legOf?_withLeg _ _ _ known]
    rfl

/-- A UE that connects while a transfer is parked for it gets it delivered. -/
theorem connected_after_park {u : Nat} {p : Parked} (clients : Clients) (pdu : Octets)
    (session : n.context.sessions.contains p.session = true)
    (known : n.context.ues.contains u = true)
    (legless : (n.context.ues.get? u).bind (·.leg) = none)
    (room : n.context.legs.size < n.context.maxLegs) (gnb ran : UInt64) (rat : RatType) :
    ∃ m : Node, m.context = (n.park clients u pdu p).context.withLeg u gnb ran rat ∧
      m.links = (n.offer (.radio (.paging u pdu))).links ∧
      ((Event.connected u gnb ran rat).handle (n.park clients u pdu p)).2 =
        ((Paging.deliver u p).exec m).2 := by
  have legless' : ((n.context.ues.modify u fun x => { x with pagingMessage := some pdu }).get? u).bind
      (·.leg) = none := by
    rw [Table.get?_modify_self, Option.bind_map]
    exact legless
  obtain ⟨m, context, links, connects⟩ := Event.handle_connected_of_idle
    (n := n.park clients u pdu p) gnb ran rat (Table.contains_modify.trans known) legless' room
  rw [show (n.park clients u pdu p).context.parked.get? u = some p from
    Table.get?_insert_self _ _ _] at connects
  exact ⟨m, context, links, connects.trans (if_pos session)⟩

/-- A transfer that was deferred leads from a state to the same as one that was carried out directly,
after a paging message. -/
structure AsDirect (u : Nat) (n deferred : Node) (direct : Except Fault Outcome × Node) : Prop where
  initiated : direct.1 = .ok .initiated
  /-- The radio network takes the same messages on the same leg, after the paging message if the
  transfer was deferred. -/
  sent : ∃ pdu gnb ids ms, (∀ m ∈ ms, ∃ pdu, m = .radio (.toLeg gnb ids pdu)) ∧
    deferred.links.sent = n.links.sent ++ .radio (.paging u pdu) :: ms ∧
    direct.2.links.sent = n.links.sent ++ ms
  ues : deferred.context.ues = direct.2.context.ues
  legs : deferred.context.legs = direct.2.context.legs
  sessions : deferred.context.sessions = direct.2.context.sessions
  /-- The paging of the UE is over in both. -/
  ended : deferred.context.Over u ∧ direct.2.context.Over u

/-- **Parking a transfer and delivering it later comes to the same as delivering it directly.** A
transfer that is accepted for later, and so is one to set up, modify or release a session of an idle
UE, is deferred until the UE connects; or the UE connects first. -/
theorem run_deferred (session : n.context.sessions.get? o.session = some s) (accepts : Accepts o n)
    (paired : n.context.Paired) (unparked : n.context.parked.get? s.ue = none)
    (room : n.context.legs.size < n.context.maxLegs) (hears : n.Hears) (gnb ran : UInt64)
    (rat : RatType) :
    AsDirect s.ue n ((Event.connected s.ue gnb ran rat).handle ((run o).exec n).2).2
      ((run o).exec ((Event.connected s.ue gnb ran rat).handle n).2) := by
  obtain ⟨idle, known, clients, pdu, p, ofSession, asks, parks⟩ := exec_of_accepts session accepts
  have legless := paired.leg_of_idle idle
  obtain ⟨m, context, links, direct⟩ :=
    exec_after_connected session known legless unparked room ofSession asks gnb ran rat
  obtain ⟨m₁, context₁, links₁, deferred⟩ := connected_after_park clients pdu
    (ofSession ▸ Table.contains_iff.2 ⟨s, session⟩) known legless room gnb ran rat
  have alike : m.context.Alike m₁.context := by
    rw [context, context₁]
    exact alike_withLeg_park gnb ran rat
  have hears' : m.Hears := fun i => by rw [links]; exact hears i
  have hears₁ : m₁.Hears := fun i => by rw [links₁]; exact hears i
  -- Both deliveries change legs and sessions alike and leave the same messages.
  obtain ⟨x, ue⟩ : ∃ x, m.context.ues.get? s.ue = some x := by
    rw [← Table.contains_iff, context]
    exact Table.contains_modify.trans known
  have leg := Context.legOf?_withLeg gnb ran rat known
  rw [← context] at leg
  have session' : m.context.sessions.get? p.session = some s := by
    rw [context, ofSession]
    exact session
  obtain ⟨f, g, ms, onLeg, delivers⟩ := Paging.uniform_deliver session' ue leg
  rw [parks, deferred, delivers m₁ alike hears₁, direct,
    exec_bind_of_ok (delivers m ⟨rfl, rfl, rfl, rfl⟩ hears')]
  have radio : ∀ b ∈ ms, ∃ r, b = .radio r := fun b mem => ⟨_, (onLeg b mem).choose_spec⟩
  have ended := Context.over_withLeg n.context s.ue gnb ran rat
  have ended₁ := Context.over_withLeg (n.park clients s.ue pdu p).context s.ue gnb ran rat
  rw [← context] at ended
  rw [← context₁] at ended₁
  refine ⟨rfl, ⟨pdu, _, _, ms, onLeg, ?_, ?_⟩, ?_, ?_, ?_, ?_⟩
  · refine (Node.sent_offerAll_of_hears (n := m₁.change (·.delivered f g)) hears₁ radio).trans ?_
    rw [Node.links_change, links₁, Node.sent_offer_of_hears hears, List.append_assoc]
    rfl
  · refine (Node.sent_offerAll_of_hears (n := m.change (·.delivered f g)) hears' radio).trans ?_
    rw [Node.links_change, links]
  all_goals rw [Node.context_offerAll, exec_pure, Node.context_offerAll]
  · exact alike.ues
  · exact congrArg f alike.legs
  · exact congrArg g alike.sessions
  · exact ⟨⟨ended₁.parked, ended₁.stopped, ended₁.unpaged⟩,
      ⟨ended.parked, ended.stopped, ended.unpaged⟩⟩

/-- A transfer to set session 1 up, with a target to tell when the UE cannot be reached. -/
def Order.setUp : Order :=
  { session := 1
    kind := .setup
    n1 := some [1]
    n2 := some [1, 2]
    skip := false
    failureUri := some "http://10.0.0.7/failures" }

set_option maxRecDepth 4000 in
/-- The hypotheses are satisfiable: a session that is confirmed, so that its setup request leaves. -/
theorem run_deferred_setUp :
    let n : Node := { context := Context.oneSession.confirm 1 "" "sm" }
    Accepts .setUp n ∧ AsDirect 1 n ((Event.connected 1 3 7 .nr).handle ((run .setUp).exec n).2).2
      ((run .setUp).exec ((Event.connected 1 3 7 .nr).handle n).2) := by
  have accepts : Accepts .setUp { context := Context.oneSession.confirm 1 "" "sm" } := ⟨_, rfl, rfl⟩
  have session : (Context.oneSession.confirm 1 "" "sm").sessions.get? 1 =
      some { psi := 5, ue := 1, smUri := some "", smRef := some "sm" } := rfl
  exact ⟨accepts, run_deferred session accepts provisioned_oneSession.fresh.paired rfl (by decide)
    (fun _ => rfl) 3 7 .nr⟩

end Transfer
end Amf
