import Amf.Proofs.Atomic
import Amf.Proofs.Store

/-!
# Clients of parked transfers

The target of a parked transfer always has its client (`Context.Backed`). Clients are shared: the
targets of several UEs may be on one server, and a paging that is refused takes a client away again.
It takes only the one that it has added itself, so a paging that fails leaves the clients as they were
(`Paging.start_of_error`).

| act | clients | parked transfers |
| --- | --- | --- |
| `park` | one more at most | the one for the UE is put |
| `refusePaging` | as before | as before |
| any other | as before | some of those before |
-/

namespace Amf

open Context Procedure

/-! ## Targets with clients -/

namespace Context

variable {c c' : Context} {u k id : Nat}

/-- The target of every parked transfer is on the server that its URI names, and there is a client
towards that server. -/
def Backed (c : Context) : Prop :=
  ∀ u p t, c.parked.get? u = some p → p.target = some t →
    Origin.ofUri? t.uri = .ok t.client ∧ ∃ client, c.clients.find? t.client = some client

/-- What is parked is parked before, and no client is lost. -/
theorem Backed.of_append {rest : List Client} (h : c.Backed)
    (parked : ∀ u p, c'.parked.get? u = some p → c.parked.get? u = some p)
    (clients : c'.clients.entries = c.clients.entries ++ rest) : c'.Backed := by
  intro u p t waits target
  obtain ⟨origin, client, found⟩ := h u p t (parked u p waits) target
  exact ⟨origin, client, Clients.find?_of_append clients found⟩

theorem Backed.of_entries (h : c.Backed)
    (parked : ∀ u p, c'.parked.get? u = some p → c.parked.get? u = some p)
    (clients : c'.clients.entries = c.clients.entries) : c'.Backed :=
  h.of_append parked (clients.trans (List.append_nil _).symm)

theorem Fresh.backed (h : c.Fresh) : c.Backed := by
  intro u p t waits
  rw [h.parked] at waits
  cases waits

theorem clients_removeLeg : (c.removeLeg k).clients = c.clients := by
  unfold removeLeg
  split <;> rfl

theorem clients_deassociate : (c.deassociate u).clients = c.clients := by
  unfold deassociate
  split <;> rfl

theorem clients_freeLeg : (c.freeLeg u).clients = c.clients := by
  unfold freeLeg
  split
  · exact clients_removeLeg
  · rfl

theorem clients_associate : (c.associate u k).clients = c.clients := by
  unfold associate
  split <;> rfl

theorem clients_serve {rat : RatType} : (c.serve u k rat).clients = c.clients := clients_associate

theorem clients_clearConnection : (c.clearConnection u).clients = c.clients := by
  unfold clearConnection
  split
  · rfl
  · exact clients_removeLeg.trans clients_deassociate

theorem clients_detach : (Relocation.detach c u).clients = c.clients := by
  rw [detach_eq]
  show (c.withoutLeg u).clients = c.clients
  unfold withoutLeg
  split
  · exact clients_clearConnection
  · rfl

theorem clients_removeSession : (c.removeSession id).clients = c.clients := by
  unfold removeSession
  split <;> rfl

theorem parked_of_removeSession {p : Parked} (waits : (c.removeSession id).parked.get? u = some p) :
    c.parked.get? u = some p := by
  unfold removeSession at waits
  split at waits
  · exact waits
  · exact get?_of_unpark waits

theorem Backed.removeSession (h : c.Backed) : (c.removeSession id).Backed :=
  h.of_entries (fun _ _ => parked_of_removeSession) (congrArg Clients.entries clients_removeSession)

end Context

/-! ## Paging -/

variable {a : Act} {n n' : Node}

namespace Paging

/-- The clients that a target comes to are those in use, with one towards the target among them. -/
theorem entries_of_resolves {c : Context} {uri : Option String} {clients : Clients}
    {target : Option FailureTarget} (resolved : Resolves c uri clients target) :
    (∃ rest, clients.entries = c.clients.entries ++ rest) ∧
      ∀ t, target = some t → Origin.ofUri? t.uri = .ok t.client ∧
        ∃ client, clients.find? t.client = some client := by
  cases resolved with
  | none => exact ⟨⟨[], (List.append_nil _).symm⟩, nofun⟩
  | some origin ensured =>
    obtain ⟨more, there⟩ := Clients.append_of_ensure ensured
    refine ⟨more, fun t is => ?_⟩
    cases is
    exact ⟨origin, there⟩

/-- A transfer that is parked for a target that was resolved is backed, and every other one stays
so. -/
theorem backed_park {u : Nat} {pdu : Octets} {p : Parked} {uri : Option String} {clients : Clients}
    (resolved : Resolves n.context uri clients p.target) (h : n.context.Backed) :
    (n.park clients u pdu p).context.Backed := by
  obtain ⟨⟨rest, more⟩, served⟩ := entries_of_resolves resolved
  intro v q t waits target
  change (n.context.parked.insert u p).get? v = some q at waits
  rw [Table.get?_insert] at waits
  split at waits
  · cases waits
    exact served t target
  · obtain ⟨origin, client, found⟩ := h v q t waits target
    exact ⟨origin, client, Clients.find?_of_append more found⟩

/-- **A paging that fails leaves the parked transfers and the clients as they were.** -/
theorem start_of_error {id : Nat} {payload : Payload} {uri : Option String} {fault : Fault}
    (failed : ((start id payload uri).exec n).1 = .error fault) :
    let n' := ((start id payload uri).exec n).2
    n'.context.parked = n.context.parked ∧
      n'.context.clients.entries = n.context.clients.entries := by
  obtain ⟨nextId, same⟩ := (start_fails failed).exists_context_eq
  intro n'
  rw [show n'.context = _ from same]
  exact ⟨rfl, rfl⟩

/-- **Paging keeps the targets backed**, whether it parks a transfer or fails. -/
theorem preserves_start (id : Nat) (payload : Payload) (uri : Option String) :
    Preserves (fun n => n.context.Backed) (start id payload uri) fun _ => True := by
  refine fun n h => ⟨?_, fun _ _ => trivial⟩
  cases outcome : ((start id payload uri).exec n).1 with
  | error fault =>
    obtain ⟨parked, clients⟩ := start_of_error outcome
    exact h.of_entries (fun _ _ waits => parked ▸ waits) clients
  | ok location =>
    obtain ⟨s, session, -⟩ := (reads_session id).exec_bind_eq_ok.1 outcome
    rw [exec_session_eq_ok] at session
    rcases start_outcome payload uri session with
      ⟨u, guti, clients, target, -, -, resolved, -, done⟩ | ⟨⟨fault, failed⟩, -⟩
    · rw [done]
      exact backed_park resolved h
    · rw [failed] at outcome
      cases outcome

end Paging

/-! ## Steps -/

/-- The act is a paging that is refused. -/
def Act.isRefused : Act → Bool
  | .refusePaging _ => true
  | _ => false

namespace Step

theorem clients (step : Step a n n') (asked : a.isRefused = false) (other : ∀ u p, a ≠ .park u p) :
    n'.context.clients = n.context.clients := by
  cases step with
  | park => exact absurd rfl (other _ _)
  | refusePaging => cases asked
  | repeatNothing _ lost => rcases lost with ⟨-, rfl⟩ | ⟨-, rfl⟩ <;> rfl
  | giveUp =>
    rw [Node.context_offerAll]
    rfl
  | connect _ room =>
    obtain ⟨-, rfl, rfl⟩ := addLeg_eq_some_iff.1 room
    rw [Node.context_connect]
    exact clients_serve.trans clients_freeLeg
  | disconnect => exact clients_removeLeg.trans clients_deassociate
  | remove session =>
    rw [Node.context_uncount, Node.context_change, removeSession_of_some session]
  | detach =>
    rw [Node.context_change, Node.context_uncountLeg]
    exact clients_detach
  | _ => rfl

/-- Only what was parked before is parked after an act that parks nothing. -/
theorem parked_of_ne (step : Step a n n') (other : ∀ u p, a ≠ .park u p) {u : Nat} {p : Parked}
    (parked : n'.context.parked.get? u = some p) : n.context.parked.get? u = some p := by
  have alters := step.alters
  cases a with
  | park v q => exact absurd rfl (other v q)
  | giveUp v | connect v | detach v =>
    obtain ⟨is, -⟩ := alters
    rw [is] at parked
    exact Table.get?_of_erase parked
  | remove id =>
    obtain ⟨v, psi, -, is, -⟩ := alters
    rw [is] at parked
    exact get?_of_unpark parked
  | _ =>
    have same : n.context.SameStore n'.context := alters
    rwa [same.parked] at parked

/-- **Every step but a paging that is refused keeps the targets backed.** What a refused one comes to
depends on whether its client is new, which the step does not tell; see `Paging.preserves_start`. -/
theorem backed (step : Step a n n') (asked : a.isRefused = false) (h : n.context.Backed) :
    n'.context.Backed := by
  by_cases parks : ∃ u p, a = .park u p
  · obtain ⟨u, p, rfl⟩ := parks
    cases step with
    | park session ue known idle resolved => exact Paging.backed_park resolved h
  · have other : ∀ u p, a ≠ .park u p := fun u p is => parks ⟨u, p, is⟩
    exact h.of_entries (fun _ _ => step.parked_of_ne other)
      (congrArg Clients.entries (step.clients asked other))

end Step

theorem Chain.backed (chain : Chain (·.isRefused = false) n n') (h : n.context.Backed) :
    n'.context.Backed :=
  chain.keeps (P := fun m => m.context.Backed) (fun _ _ _ asked step h => step.backed asked h) h

/-- A procedure without a paging keeps the targets backed. -/
theorem preserves_backed {α : Type} {p : Procedure α}
    (chain : ∀ n, Chain (·.isRefused = false) n (p.exec n).2) :
    Preserves (fun n => n.context.Backed) p fun _ => True :=
  fun n h => ⟨(chain n).backed h, fun _ _ => trivial⟩

/-! ## Transfers -/

namespace Transfer

variable {o : Order} {s : Session}

theorem preserves_park (payload : Payload) :
    Preserves (fun n => n.context.Backed) (park o payload) fun _ => True :=
  (Paging.preserves_start o.session payload o.failureUri).bind fun _ _ => .pure trivial

theorem preserves_commandOrHold {command : HeldCommand} :
    Preserves (fun n => n.context.Backed) (Delivery.commandOrHold s.ue o.session command)
      fun _ => True :=
  preserves_backed fun _ => Delivery.commandOrHold_chain (fun _ _ _ _ => rfl) fun _ => rfl

theorem preserves_setup : Preserves (fun n => n.context.Backed) (setup o s) fun _ => True := by
  unfold setup
  refine .read_bind (reads_need _ _) fun n2 => ?_
  refine .read_bind reads_context fun _ => ?_
  split
  · exact (preserves_backed fun _ => Delivery.setup_chain rfl rfl).bind fun _ _ => .pure trivial
  · exact .read_bind (reads_need _ _) fun _ => preserves_park _

theorem preserves_modification :
    Preserves (fun n => n.context.Backed) (modification o s) fun _ => True := by
  unfold modification
  refine .read_bind (reads_need _ _) fun n1 => ?_
  refine .read_bind (reads_need _ _) fun n2 => ?_
  refine .read_bind reads_context fun _ => ?_
  split
  · exact preserves_commandOrHold.bind fun _ _ => .pure trivial
  · exact preserves_park _

theorem preserves_release : Preserves (fun n => n.context.Backed) (release o s) fun _ => True := by
  unfold release
  refine .read_bind (reads_need _ _) fun n2 => ?_
  refine .read_bind reads_context fun _ => ?_
  split
  · exact preserves_commandOrHold.bind fun _ _ => .pure trivial
  · split
    · exact .pure trivial
    · exact preserves_park _

theorem preserves_reject : Preserves (fun n => n.context.Backed) (reject o) fun _ => True := by
  unfold reject
  refine .read_bind (reads_need _ _) fun n1 => ?_
  refine (preserves_backed fun _ => Delivery.reject_chain fun _ _ _ _ => rfl).bind fun _ _ => ?_
  refine (Preserves.change fun _ h => h.removeSession).bind fun _ _ => ?_
  exact (Preserves.uncount fun _ h => h).bind fun _ _ => .pure trivial

/-- **A transfer keeps the targets backed.** -/
theorem preserves_run (o : Order) : Preserves (fun n => n.context.Backed) (run o) fun _ => True := by
  unfold run
  refine .read_bind reads_context fun _ => ?_
  refine .read_bind (reads_need _ _) fun s => ?_
  refine .read_bind reads_context fun _ => ?_
  refine .read_bind (reads_need _ _) fun _ => ?_
  split
  · exact preserves_setup
  · exact preserves_modification
  · exact preserves_release
  · exact preserves_reject
  · exact .throw

end Transfer

/-! ## Events -/

namespace Event

/-- A transfer that is asked for keeps the targets backed. -/
theorem preserves_transfer (r : Request) :
    Preserves (fun n => n.context.Backed) (Routing.transfer r) fun _ => True :=
  .read_bind (Routing.reads_transferOrder r) fun o =>
    (Transfer.preserves_run o).bind fun _ _ => .pure trivial

/-- What a request ends with keeps the targets backed, if no paging is refused. -/
theorem backed_of_ends {r : Request} {result : Except Fault Response × Node}
    (ends : Routing.Ends (·.isRefused = false) r n result) (h : n.context.Backed) :
    result.2.context.Backed := by
  rcases ends with ⟨o, s, p, response, -, -, -, -, -, -, step⟩ | ⟨-, course⟩
  · exact step.backed rfl h
  · exact course.chain.backed h

theorem request_backed (r : Request) (h : n.context.Backed) :
    ((Event.request r).handle n).2.context.Backed := by
  have state : ((Event.request r).handle n).2 = ((Routing.route r).exec n).2 := Routing.handle_snd r n
  rw [state]
  rcases Routing.route_cases r n with
    ⟨fault, failed⟩ | ⟨-, same⟩ | ⟨reaches, same⟩ | ⟨-, handler, notifies, same⟩
  · rw [failed]
    exact h
  · rw [same]
    exact (preserves_transfer r n h).1
  · rw [same]
    exact backed_of_ends (Routing.relocationUpdate_ends reaches (fun _ => rfl) fun _ _ _ _ _ _ => rfl) h
  · rw [same]
    refine backed_of_ends (Routing.notification_ends notifies (fun _ => rfl) ?_ ?_ ?_) h
    · exact fun _ _ _ _ _ _ _ _ => ⟨rfl, rfl⟩
    · exact fun _ _ _ _ => ⟨fun _ => rfl, rfl, rfl⟩
    · exact fun _ _ _ => ⟨fun _ => rfl, rfl, rfl, rfl⟩

/-- **Every event keeps the targets backed.** -/
theorem handle_backed (e : Event) (h : n.context.Backed) : (e.handle n).2.context.Backed := by
  by_cases request : e.IsRequest
  · obtain ⟨r, rfl⟩ := request
    exact request_backed r h
  · refine ((e.handle_course n).chain.mono fun a may => ?_).backed h
    cases a with
    | refusePaging => exact absurd may request
    | _ => rfl

theorem run_backed (es : List Event) (h : n.context.Backed) : (run es n).context.Backed := by
  induction es generalizing n with
  | nil => exact h
  | cons e es ih => exact ih (handle_backed e h)

/-- **A pending failure target always has its client.** After any events, from any context that was
set up, with any number of clients allowed and whatever the transports refuse: the target of every
parked transfer is on the server that its URI names, and there is a client towards that server. And
a paging that fails then, refused or not, leaves the parked transfers and the clients as they were,
so the target of every transfer that is parked, for the same UE or another, keeps its client. -/
theorem target_backed {config : Config} {c : Context} (provisioned : Provisioned config c)
    (metrics : Metrics) (links : Links) (es : List Event) :
    let n := run es { context := c, metrics, links }
    (∀ u p t, n.context.parked.get? u = some p → p.target = some t →
      Origin.ofUri? t.uri = .ok t.client ∧
        ∃ client, n.context.clients.find? t.client = some client ∧ client.origin = t.client) ∧
    ∀ id payload uri fault, ((Paging.start id payload uri).exec n).1 = .error fault →
      let n' := ((Paging.start id payload uri).exec n).2
      n'.context.parked = n.context.parked ∧
        n'.context.clients.entries = n.context.clients.entries ∧
        ∀ u p t, n.context.parked.get? u = some p → p.target = some t →
          ∃ client, n.context.clients.find? t.client = some client ∧
            n'.context.clients.find? t.client = some client := by
  intro n
  have h : n.context.Backed := run_backed es provisioned.fresh.backed
  refine ⟨fun u p t waits target => ?_, fun id payload uri fault failed => ?_⟩
  · obtain ⟨origin, client, found⟩ := h u p t waits target
    exact ⟨origin, client, found, Clients.origin_of_find? found⟩
  · obtain ⟨parked, clients⟩ := Paging.start_of_error failed
    refine ⟨parked, clients, fun u p t waits target => ?_⟩
    obtain ⟨-, client, found⟩ := h u p t waits target
    have more := clients.trans (List.append_nil _).symm
    exact ⟨client, found, Clients.find?_of_append more found⟩

set_option maxRecDepth 8000 in
/-- The hypothesis is satisfiable: a setup for an idle UE is parked with a target, the next paging is
refused although its target is on the same server, and the client of the first target stays. -/
theorem target_backed_setUp :
    let n := run [.request .setUp]
      { context := .oneSession, links := { radioAccepts := fun k => decide (k = 0) } }
    let refused :=
      (Paging.start 1 (.release none [3]) (some "http://10.0.0.7/releases")).exec n
    ∃ p t fault, n.context.parked.get? 1 = some p ∧ p.target = some t ∧
      Origin.ofUri? t.uri = .ok t.client ∧ refused.1 = .error fault ∧
      ∃ client, refused.2.context.clients.find? t.client = some client := by
  intro n refused
  have backed := target_backed provisioned_oneSession {}
    { radioAccepts := fun k => decide (k = 0) } [.request .setUp]
  have parked : (n.context.parked.get? 1).isSome = true := by decide
  obtain ⟨p, waits⟩ := Option.isSome_iff_exists.1 parked
  have targets : ((n.context.parked.get? 1).bind (·.target)).isSome = true := by decide
  rw [waits] at targets
  obtain ⟨t, target⟩ := Option.isSome_iff_exists.1 targets
  have failed : refused.1 = .error (.send (.transportClosed "NGAP")) := by rfl
  obtain ⟨-, -, kept⟩ := backed.2 1 _ _ _ failed
  obtain ⟨client, -, found⟩ := kept 1 p t waits target
  exact ⟨p, t, _, waits, target, (backed.1 1 p t waits target).1, failed, client, found⟩

end Event
end Amf
