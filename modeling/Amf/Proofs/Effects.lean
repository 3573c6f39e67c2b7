import Amf.Proofs.Expiries
import Amf.Proofs.Isolation
import Amf.Proofs.Retried
import Amf.Proofs.Unambiguous

/-!
# The effect of a transfer

A transfer that succeeds has exactly one of five effects (`Transfer.run_effect`), which its kind and the
state of its UE decide (`Order.effect?`). Each effect fixes the context, the metrics and what has been
sent after the transfer (`Transfer.Happened`), so that it touches nothing else.

| effect | for | leaves | changes |
| --- | --- | --- | --- |
| `sent` | a leg, session or UE ready | one message on the leg | the mark of the leg |
| `held` | a leg, session or UE not ready | nothing | what the session holds back, the mark |
| `parked` | no leg | one paging message | what is parked, T3513, the paging message, clients |
| `skipped` | no leg, a release that may be skipped | nothing | nothing |
| `removed` | a reject | a message to the UE, if it has a leg | the session and what is parked for it |

The effects are told apart by what they leave: whether the session is still there, whether the UE has a
leg, and whether anything has been sent (`Happened.unique`).
-/

namespace Amf

open Context Procedure

namespace Transfer

/-- What a transfer that succeeds comes to. -/
inductive Effect where
  /-- Its message has left on the leg of the UE. -/
  | sent
  /-- Its session holds it back. -/
  | held
  /-- It is parked for the UE, which is paged. -/
  | parked
  /-- It need not reach the UE. -/
  | skipped
  /-- Its session is removed. -/
  | removed
  deriving DecidableEq

/-- The effect of a transfer that succeeds, by its kind and the state of its session and UE. -/
def Order.effect? (o : Order) (s : Session) (c : Context) : Option Effect :=
  match o.kind, c.connection s.ue with
  | .setup, .connected => some (if s.confirmed then .sent else .held)
  | .modification, .connected | .release, .connected =>
    some (if c.established s.ue then .sent else .held)
  | .setup, .idle | .modification, .idle => some .parked
  | .release, .idle => some (if o.skip then .skipped else .parked)
  | .reject, _ => some .removed
  | .other _, _ => none

/-- The command of a transfer. -/
def Order.command? (o : Order) : Option HeldCommand :=
  match o.kind with
  | .modification => o.n2.map (⟨.modification, o.n1, ·⟩)
  | .release => o.n2.map (⟨.release, o.n1, ·⟩)
  | _ => none

/-- A message has the parts of a transfer: the message to the UE, in a transport of the session, and the
information to the radio network. -/
def Order.Fills (o : Order) (s : Session) (r : Ngap.Request) : Prop :=
  ∃ n2, o.n2 = some n2 ∧ r.session? = some (s.psi, o.n1.map (Nas.wrapSession s.psi), n2)

/-- What rejects a session leaves on the leg of the UE, if it has one. -/
def Order.rejection (o : Order) (s : Session) (c : Context) : List Outbound :=
  match c.legOf? s.ue, o.n1 with
  | some (_, l), some n1 => [l.message (.downlinkNas (Nas.wrapSession s.psi n1))]
  | _, _ => []

variable {o : Order} {s : Session} {n n' : Node} {outcome : Outcome} {e e' : Effect} {k : Nat}
  {l : Leg} {m : Outbound}

/-- An effect of a transfer for a session has happened, from one state to another. -/
def Happened (o : Order) (s : Session) (n n' : Node) (outcome : Outcome) : Effect → Prop
  | .sent => outcome = .initiated ∧ ∃ k l r, n.context.legOf? s.ue = some (k, l) ∧ o.Fills s r ∧
      n'.context = o.mark k n.context ∧ n'.metrics = n.metrics ∧
      n'.links.sent = n.links.sent ++ [l.message r]
  | .held => outcome = .initiated ∧ ∃ k l, n.context.legOf? s.ue = some (k, l) ∧
      n'.metrics = n.metrics ∧ n'.links = n.links ∧
      ((∃ r, o.kind = .setup ∧ o.Fills s r ∧
          n'.context = (n.context.markSetup k).holdSetup o.session (some (r.octets l.ids)) ∧
          (n'.context.sessions.get? o.session).bind (·.heldSetup) = some (r.octets l.ids)) ∨
        ∃ command, o.command? = some command ∧
          n'.context = n.context.holdCommand o.session (some command) ∧
          (n'.context.sessions.get? o.session).bind (·.heldCommand) = some command)
  | .parked => n.context.legOf? s.ue = none ∧ ∃ clients pdu p, outcome = .paging p.location ∧
      p.session = o.session ∧ p.psi = s.psi ∧ o.payload? s = some p.payload ∧
      Paging.Resolves n.context o.failureUri clients p.target ∧
      n'.context = (n.context.withClients clients).park s.ue pdu p ∧
      n'.context.parked.get? s.ue = some p ∧ Timing.RunsAfter n'.context.timers .t3513 s.ue 0 ∧
      n'.metrics = n.metrics.inc .pagingRequests ∧
      n'.links.sent = n.links.sent ++ [.radio (.paging s.ue pdu)]
  | .skipped => n.context.legOf? s.ue = none ∧ o.kind = .release ∧ o.skip = true ∧
      outcome = .skipped ∧ n' = n
  | .removed => outcome = .initiated ∧ o.n1.isSome = true ∧
      n'.context = n.context.removeSession o.session ∧
      n'.context.sessions.get? o.session = none ∧
      (∀ u p, n'.context.parked.get? u = some p → p.session ≠ o.session) ∧
      n'.metrics = n.metrics.dec .sessions ∧
      n'.links.sent = n.links.sent ++ o.rejection s n.context

/-! ## The effect that happens -/

/-- A delivery that succeeds is said to be on its way. -/
theorem exec_of_initiated {d : Procedure Unit}
    (done : (do d; return Outcome.initiated : Procedure Outcome).exec n = (.ok outcome, n')) :
    outcome = .initiated ∧ d.exec n = (.ok (), n') := by
  rw [exec_bind] at done
  generalize d.exec n = result at done ⊢
  obtain ⟨_ | ⟨⟩, m⟩ := result
  · cases done
  · cases done
    exact ⟨rfl, rfl⟩

/-- A message that is handed over with success has left. -/
theorem sent_of_emit (done : (emit m).exec n = (.ok (), n')) :
    n' = n.offer m ∧ n'.links.sent = n.links.sent ++ [m] := by
  rw [exec_emit] at done
  obtain ⟨yes, rfl⟩ := Prod.mk.inj done
  refine ⟨rfl, Links.sent_offer_of_accepted ?_⟩
  unfold verdict at yes
  split at yes
  · assumption
  · cases yes

section
variable (session : n.context.sessions.get? o.session = some s)
  (leg : n.context.legOf? s.ue = some (k, l))
include session leg

/-- A setup leaves if the session is confirmed, and is held back if not. -/
theorem happened_setup {n2 : Octets} (kind : o.kind = .setup) (part : o.n2 = some n2)
    (done : (Delivery.setup o.session (o.n1.map (Nas.wrapSession s.psi)) n2).exec n =
      (.ok (), n')) :
    Happened o s n n' .initiated (if s.confirmed then .sent else .held) := by
  obtain ⟨x, ue⟩ := Table.contains_iff.1 (contains_of_leg leg)
  have fills : o.Fills s
      (Delivery.setupRequest n.context x l s (o.n1.map (Nas.wrapSession s.psi)) n2) :=
    ⟨n2, part, Ngap.session?_setupRequest _ x l s _⟩
  have marks : o.mark k n.context = n.context.markSetup k := if_pos kind
  rw [Delivery.exec_setup _ n2 session ue leg] at done
  by_cases confirmed : s.confirmed = true
  · simp only [if_pos confirmed] at done ⊢
    obtain ⟨rfl, sent⟩ := sent_of_emit done
    exact ⟨rfl, k, l, _, leg, fills, marks.symm, rfl, sent⟩
  · simp only [if_neg confirmed, exec_change] at done ⊢
    obtain ⟨-, rfl⟩ := Prod.mk.inj done
    refine ⟨rfl, k, l, leg, rfl, rfl, .inl ⟨_, kind, fills, rfl, ?_⟩⟩
    show ((n.context.sessions.modify o.session _).get? o.session).bind _ = _
    rw [Table.get?_modify_of_some session]
    rfl

/-- A command leaves if the UE is established, and is held back if not. -/
theorem happened_command {command : HeldCommand} (kind : o.kind ≠ .setup)
    (asks : o.command? = some command) (has : command.kind = .modification → command.n1.isSome)
    (done : (Delivery.commandOrHold s.ue o.session command).exec n = (.ok (), n')) :
    Happened o s n n' .initiated (if n.context.established s.ue then .sent else .held) := by
  have parts : command.n1 = o.n1 ∧ o.n2 = some command.n2 := by
    unfold Order.command? at asks
    split at asks
    · obtain ⟨n2, part, rfl⟩ := Option.map_eq_some_iff.1 asks
      exact ⟨rfl, part⟩
    · obtain ⟨n2, part, rfl⟩ := Option.map_eq_some_iff.1 asks
      exact ⟨rfl, part⟩
    · cases asks
  have fills : o.Fills s (Delivery.commandRequest s.psi command) :=
    ⟨command.n2, parts.2, parts.1 ▸ Ngap.session?_commandRequest has⟩
  have unmarked : o.mark k n.context = n.context := if_neg kind
  unfold Delivery.commandOrHold at done
  rw [exec_context_bind] at done
  by_cases established : n.context.established s.ue = true
  · rw [if_pos established, Delivery.exec_command command session leg] at done
    rw [if_pos established]
    obtain ⟨rfl, sent⟩ := sent_of_emit done
    exact ⟨rfl, k, l, _, leg, fills, unmarked.symm, rfl, sent⟩
  · rw [if_neg established, exec_change] at done
    rw [if_neg established]
    obtain ⟨-, rfl⟩ := Prod.mk.inj done
    refine ⟨rfl, k, l, leg, rfl, rfl, .inr ⟨command, asks, rfl, ?_⟩⟩
    show ((n.context.sessions.modify o.session _).get? o.session).bind _ = _
    rw [Table.get?_modify_of_some session]
    rfl

/-- **What happens to a transfer that succeeds for a UE with a leg**, unless it rejects its session. -/
theorem happened_connected (kind : o.kind ≠ .reject) (done : (run o).exec n = (.ok outcome, n')) :
    ∃ e, o.effect? s n.context = some e ∧ Happened o s n n' outcome e := by
  have known := contains_of_leg leg
  have connected := connection_of_leg leg
  obtain ⟨payload, asks⟩ | is := exists_payload_of_ok session known (congrArg Prod.fst done)
  · rw [exec_of_connected (p := ⟨o.session, s.psi, "", none, payload⟩) session known connected rfl asks]
      at done
    obtain ⟨rfl, delivered⟩ := exec_of_initiated done
    unfold Order.payload? at asks
    unfold Paging.deliver at delivered
    cases is : o.kind with
    | setup =>
      rw [is] at asks
      obtain ⟨n2, part, rfl⟩ := Option.map_eq_some_iff.1 asks
      refine ⟨if s.confirmed then .sent else .held, ?_, happened_setup session leg is part delivered⟩
      simp only [Order.effect?, is, connected]
    | modification =>
      rw [is] at asks
      obtain ⟨n1, part₁, asks⟩ := Option.bind_eq_some_iff.1 asks
      obtain ⟨n2, part₂, rfl⟩ := Option.map_eq_some_iff.1 asks
      refine ⟨if n.context.established s.ue then .sent else .held, ?_,
        happened_command session leg (by simp [is]) ?_ (fun _ => rfl) delivered⟩
      · simp only [Order.effect?, is, connected]
      · simp only [Order.command?, is, part₁, part₂, Option.map_some]
    | release =>
      rw [is] at asks
      obtain ⟨n2, part, rfl⟩ := Option.map_eq_some_iff.1 asks
      refine ⟨if n.context.established s.ue then .sent else .held, ?_,
        happened_command session leg (by simp [is]) ?_ ?_ delivered⟩
      · simp only [Order.effect?, is, connected]
      · simp only [Order.command?, is, part, Option.map_some]
      · nofun
    | reject | other =>
      rw [is] at asks
      cases asks
  · exact absurd is kind

end

/-- A transfer that is parked has its payload where the UE finds it, and the UE is paged. -/
theorem happened_park {payload : Payload} (session : n.context.sessions.get? o.session = some s)
    (enabled : n.context.timers.configs.t3513.enabled = true)
    (idle : n.context.legOf? s.ue = none) (asks : o.payload? s = some payload)
    (done : (park o payload).exec n = (.ok outcome, n')) : Happened o s n n' outcome .parked := by
  obtain ⟨clients, pdu, p, ofSession, ofPsi, rfl, resolved, accepted, parks⟩ :=
    exec_park session (congrArg Prod.fst done)
  rw [parks] at done
  obtain ⟨same, rfl⟩ := Prod.mk.inj done
  cases same
  refine ⟨idle, clients, pdu, p, rfl, ofSession, ofPsi, asks, resolved, rfl, ?_, ?_, rfl, ?_⟩
  · exact Table.get?_insert_self _ _ _
  · refine ⟨⟨.t3513, s.ue, 0, n.context.timers.nextGeneration⟩, ?_, rfl, rfl, rfl⟩
    show _ ∈ (n.context.timers.start .t3513 s.ue).running
    unfold Timers.start
    rw [if_pos (show (n.context.timers.configs.of .t3513).enabled = true from enabled)]
    exact List.mem_append_right _ (List.mem_singleton.2 rfl)
  · exact Links.sent_offer_of_accepted (l := n.links) accepted

/-- The UE whose session is rejected is told, if it has a leg. -/
theorem sent_of_reject {n1 : Octets} {b : Bool}
    (session : n.context.sessions.get? o.session = some s) (part : o.n1 = some n1)
    (done : (Delivery.reject o.session n1).exec n = (.ok b, n')) :
    n'.context = n.context ∧ n'.metrics = n.metrics ∧
      n'.links.sent = n.links.sent ++ o.rejection s n.context := by
  unfold Order.rejection
  rw [part]
  cases leg : n.context.legOf? s.ue with
  | none =>
    unfold Delivery.reject at done
    rw [exec_bind_of_ok (exec_session_of_some session), exec_context_bind, leg] at done
    cases done
    exact ⟨rfl, rfl, (List.append_nil _).symm⟩
  | some has =>
    obtain ⟨k, l⟩ := has
    rw [exec_reject n1 session leg, exec_bind] at done
    generalize result : (emit (l.message (.downlinkNas (Nas.wrapSession s.psi n1)))).exec n = r at done
    obtain ⟨_ | ⟨⟩, m⟩ := r
    · cases done
    · cases done
      obtain ⟨rfl, sent⟩ := sent_of_emit result
      exact ⟨rfl, rfl, sent⟩

section
variable (session : n.context.sessions.get? o.session = some s)
  (known : n.context.ues.contains s.ue = true)
include session known

/-- **What happens to a transfer that succeeds for a UE without a leg**, unless it rejects its
session. -/
theorem happened_idle (enabled : n.context.timers.configs.t3513.enabled = true)
    (idle : n.context.connection s.ue = .idle) (kind : o.kind ≠ .reject)
    (done : (run o).exec n = (.ok outcome, n')) :
    ∃ e, o.effect? s n.context = some e ∧ Happened o s n n' outcome e := by
  have legless := legOf?_of_idle idle
  obtain ⟨payload, asks⟩ | is := exists_payload_of_ok session known (congrArg Prod.fst done)
  · by_cases skips : o.kind = .release ∧ o.skip = true
    · obtain ⟨is, skip⟩ := skips
      rw [exec_of_skip session known idle is skip (congrArg Prod.fst done)] at done
      cases done
      refine ⟨.skipped, ?_, legless, is, skip, rfl, rfl⟩
      simp only [Order.effect?, is, idle, skip, if_true]
    · have needed : o.kind = .release → o.skip = false := fun is =>
        Bool.eq_false_iff.2 fun skip => skips ⟨is, skip⟩
      rw [exec_of_idle session known idle asks needed (congrArg Prod.fst done)] at done
      refine ⟨.parked, ?_, happened_park session enabled legless asks done⟩
      unfold Order.payload? at asks
      cases is : o.kind with
      | setup | modification => simp only [Order.effect?, is, idle]
      | release => simp only [Order.effect?, is, idle, needed is, Bool.false_eq_true, if_false]
      | reject | other =>
        rw [is] at asks
        cases asks
  · exact absurd is kind

/-- **What happens to a session that is rejected.** -/
theorem happened_reject (intact : n.context.Intact) (kind : o.kind = .reject)
    (done : (run o).exec n = (.ok outcome, n')) : Happened o s n n' outcome .removed := by
  rw [exec_run session known, kind] at done
  simp only [reject, Order.needN1] at done
  obtain ⟨n1, part, -⟩ := (reads_need _ _).exec_bind_eq_ok.1 (congrArg Prod.fst done)
  rw [exec_need_eq_ok] at part
  rw [part, exec_bind_of_ok (exec_need_some n1 _ n), exec_bind] at done
  generalize rejects : (Delivery.reject o.session n1).exec n = r at done
  obtain ⟨_ | told, m⟩ := r
  · cases done
  · obtain ⟨same, rfl⟩ := Prod.mk.inj done
    cases same
    obtain ⟨context, metrics, sent⟩ := sent_of_reject session part rejects
    have after : ((m.change (·.removeSession o.session)).uncount .sessions).context =
        n.context.removeSession o.session := congrArg (·.removeSession o.session) context
    have gone : (n.context.removeSession o.session).sessions.get? o.session = none := by
      rw [sessions_removeSession, Table.get?_erase_self]
    refine ⟨rfl, by rw [part]; rfl, after, after ▸ gone, fun u p waits => ?_,
      congrArg (·.dec .sessions) metrics, sent⟩
    have waits : (n.context.removeSession o.session).parked.get? u = some p := after ▸ waits
    rw [removeSession_of_some session] at waits
    have before := get?_of_unpark waits
    have key := sessionKey_of_some session
    rw [show (Context.unpark _ _ _).get? u = _ from
      (Owned.of_intact intact).get?_unpark key before] at waits
    intro is
    rw [if_pos is] at waits
    cases waits

end

/-! ## One effect at most -/

/-- **What tells the effects apart**: the session, the leg, and what has been sent. -/
theorem Happened.signs (session : n.context.sessions.get? o.session = some s)
    (h : Happened o s n n' outcome e) :
    (n'.context.sessions.get? o.session = none ↔ e = .removed) ∧
    (e ≠ .removed → (n.context.legOf? s.ue = none ↔ e = .parked ∨ e = .skipped)) ∧
    (e ≠ .removed → (n'.links.sent = n.links.sent ↔ e = .held ∨ e = .skipped)) := by
  have there : ∀ f : Session → Session, (n.context.sessions.modify o.session f).get? o.session ≠ none := by
    intro f gone
    rw [Table.get?_modify_of_some session] at gone
    cases gone
  cases e with
  | sent =>
    obtain ⟨-, k, l, r, leg, -, context, -, sent⟩ := h
    have sessions : n'.context.sessions = n.context.sessions := by
      rw [context]
      unfold Order.mark
      split <;> rfl
    rw [sessions, session, leg, sent]
    simp
  | held =>
    obtain ⟨-, k, l, leg, -, links, ⟨r, -, -, context, -⟩ | ⟨command, -, context, -⟩⟩ := h
    · have present : ((n.context.markSetup k).holdSetup o.session
          (some (r.octets l.ids))).sessions.get? o.session ≠ none := there _
      rw [links, leg, context]
      simp [present]
    · have present : (n.context.holdCommand o.session (some command)).sessions.get? o.session ≠
          none := there _
      rw [links, leg, context]
      simp [present]
  | parked =>
    obtain ⟨idle, clients, pdu, p, -, -, -, -, -, context, -, -, -, sent⟩ := h
    rw [context, sent, idle, show (((n.context.withClients clients).park s.ue pdu p).sessions.get?
      o.session) = some s from session]
    simp
  | skipped =>
    obtain ⟨idle, -, -, -, rfl⟩ := h
    rw [idle, session]
    simp
  | removed =>
    obtain ⟨-, -, -, gone, -⟩ := h
    simp [gone]

/-- **A transfer has one effect at most.** -/
theorem Happened.unique (session : n.context.sessions.get? o.session = some s)
    (h : Happened o s n n' outcome e) (h' : Happened o s n n' outcome e') : e = e' := by
  obtain ⟨gone, idle, sent⟩ := h.signs session
  obtain ⟨gone', idle', sent'⟩ := h'.signs session
  cases e <;> cases e' <;> simp_all

/-- **A transfer that succeeds has exactly one effect, and touches nothing else.** -/
theorem run_effect (intact : n.context.Intact)
    (enabled : n.context.timers.configs.t3513.enabled = true)
    (done : (run o).exec n = (.ok outcome, n')) :
    ∃ s e, n.context.sessions.get? o.session = some s ∧ o.effect? s n.context = some e ∧
      ∀ e', Happened o s n n' outcome e' ↔ e' = e := by
  have there := done
  unfold run at there
  rw [exec_context_bind] at there
  obtain ⟨s, session, there⟩ := (reads_need _ _).exec_bind_eq_ok.1 (congrArg Prod.fst there)
  rw [exec_context_bind] at there
  obtain ⟨x, ue, -⟩ := (reads_need _ _).exec_bind_eq_ok.1 there
  rw [exec_need_eq_ok] at session ue
  have known := Table.contains_iff.2 ⟨x, ue⟩
  have happens : ∃ e, o.effect? s n.context = some e ∧ Happened o s n n' outcome e := by
    by_cases kind : o.kind = .reject
    · refine ⟨.removed, ?_, happened_reject session known intact kind done⟩
      simp only [Order.effect?, kind]
    · cases link : n.context.connection s.ue with
      | idle => exact happened_idle session known enabled link kind done
      | connected =>
        obtain ⟨⟨k, l⟩, leg⟩ := Option.isSome_iff_exists.1 (connection_eq_connected.1 link)
        exact happened_connected session leg kind done
  obtain ⟨e, decided, happened⟩ := happens
  refine ⟨s, e, session, decided, fun e' => ⟨fun other => other.unique session happened, ?_⟩⟩
  rintro rfl
  exact happened

/-- The hypotheses are satisfiable: a release for an idle UE is parked, and only that happens. -/
theorem run_effect_release :
    let n : Node := { context := .oneSession }
    let o : Order := ⟨1, .release, none, some [3], false, none⟩
    let n' := ((run o).exec n).2
    let outcome := Outcome.paging (Api.transferLocation n.context.origin "imsi-1" none)
    (n.context.Intact ∧ n.context.timers.configs.t3513.enabled = true ∧
      (run o).exec n = (.ok outcome, n')) ∧
    ∃ s, n.context.sessions.get? o.session = some s ∧
      ∀ e, Happened o s n n' outcome e ↔ e = .parked := by
  intro n o n' outcome
  obtain ⟨intact, -, enabled⟩ : n.context.Intact ∧ n.context.Joined ∧
      n.context.timers.configs.t3513.enabled = true := Event.run_ready provisioned_oneSession {} {} []
  have done : (run o).exec n = (.ok outcome, n') := by rfl
  obtain ⟨s, e, session, decided, only⟩ := run_effect intact enabled done
  have idle : n.context.connection s.ue = .idle := by
    cases session
    rfl
  simp only [Order.effect?, o, idle, Bool.false_eq_true, if_false, Option.some.injEq] at decided
  exact ⟨⟨intact, enabled, done⟩, s, session, decided ▸ only⟩

end Transfer
end Amf
