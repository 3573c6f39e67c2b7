import Amf.Proofs.Step
import Amf.Proofs.Timers

/-!
# Procedures as chains of steps

Each procedure that an event sets off, as a chain of the acts that it may do; the acts are given by
a predicate that has to allow them. A procedure that only reads is no step at all (`Chain.read`).

| procedure | acts |
| --- | --- |
| `Delivery.setup`, `releaseSetup` | `setUp`, `holdSetup`; the rest of `confirm` |
| `Delivery.commandOrHold`, `releaseCommand` | `tell`, `holdCommand`; `tell`, `dropCommand` |
| `Paging.start` | `park`, or `refusePaging` |
| `Paging.deliver`, `expired` | those of delivery; `repeatPaging`, `giveUp` |
| `Release.input` | `record`, `remove` |
| `Deregistration.notify`, `expired` | `tell`, `deregister`, `mark`, `ask`; `tell`, `expireRequest` |
| `Subscription.notify` | `setPolicy`, `tell`, `deregister`, `mark`, `ask` |
| `Relocation.update` | `ask`, `detach` |
-/

namespace Amf

open Procedure

variable {A : Act → Prop} {n : Node} {α β : Type}

/-- What goes before is read only, so the rest sees the same state. -/
theorem Chain.read {p : Procedure α} {f : α → Procedure β} (reads : Reads p)
    (rest : ∀ a, (p.exec n).1 = .ok a → Chain A n ((f a).exec n).2) :
    Chain A n ((p >>= f).exec n).2 := by
  rw [reads.exec_bind]
  generalize (p.exec n).1 = outcome at rest
  obtain _ | a := outcome
  · exact .refl
  · exact rest a rfl

/-- A procedure whose fault is an outcome is a chain if it is one. -/
theorem Chain.observe {p : Procedure α} (chain : Chain A n (p.exec n).2) :
    Chain A n ((Procedure.observe p).exec n).2 := chain

/-- A procedure with a handler is a chain if both are. -/
theorem Chain.tryCatch {p : Procedure α} {handler : Fault → Procedure α}
    (first : Chain A n (p.exec n).2)
    (handled : ∀ fault, Chain A (p.exec n).2 ((handler fault).exec (p.exec n).2).2) :
    Chain A n ((MonadExcept.tryCatch p handler).exec n).2 := by
  rw [exec_tryCatch]
  generalize p.exec n = outcome at first handled
  obtain ⟨fault | _, m⟩ := outcome
  · exact first.trans (handled fault)
  · exact first

/-- A message that is made for the leg of a UE leaves on it. -/
theorem Chain.tell {u k : Nat} {l : Leg} {r : Ngap.Request} (may : A (.tell u r))
    (leg : n.context.legOf? u = some (k, l)) (plain : r.isSetup = false) :
    Chain A n ((emitOn l (r.octets l.ids)).exec n).2 := by
  rw [exec_emitOn]
  exact .of_step may (.tell leg plain)

namespace Delivery

/-- A setup request is made, and leaves or is held back. -/
theorem setup_chain {id : Nat} {nas : Option Octets} {n2 : Octets} (leaves : A (.setUp id))
    (waits : A (.holdSetup id)) : Chain A n ((Delivery.setup id nas n2).exec n).2 := by
  unfold Delivery.setup
  refine .read (reads_session id) fun s hs => ?_
  refine .read (reads_ue s.ue) fun u hu => ?_
  refine .read (reads_legOf s.ue) fun ⟨k, l⟩ hl => ?_
  rw [exec_session_eq_ok] at hs
  rw [exec_ue_eq_ok] at hu
  rw [exec_legOf_eq_ok] at hl
  simp only [exec_context_bind, exec_change_bind]
  split
  · rename_i confirmed
    rw [exec_emitOn]
    exact .of_step leaves (.setUp hs hu hl confirmed)
  · rename_i unconfirmed
    exact .of_step waits (.holdSetup hs hu hl (Bool.eq_false_iff.2 unconfirmed))

section
variable {id : Nat} (tell : ∀ s, n.context.sessions.get? id = some s →
  ∀ r : Ngap.Request, r.isDeregistration = false → A (.tell s.ue r))
include tell

/-- A command leaves on the leg of its session's UE. -/
theorem command_chain {c : HeldCommand} : Chain A n ((Delivery.command id c).exec n).2 := by
  unfold Delivery.command
  refine .read (reads_session id) fun s hs => ?_
  refine .read (reads_legOf s.ue) fun ⟨k, l⟩ hl => ?_
  rw [exec_session_eq_ok] at hs
  rw [exec_legOf_eq_ok] at hl
  have plain : (commandRequest s.psi c).isDeregistration = false ∧
      (commandRequest s.psi c).isSetup = false := by
    unfold commandRequest
    split <;> exact ⟨rfl, rfl⟩
  exact .tell (r := commandRequest s.psi c) (tell s hs _ plain.1) hl plain.2

theorem commandOrHold_chain {u : Nat} {c : HeldCommand}
    (waits : n.context.established u = false → A (.holdCommand id)) :
    Chain A n ((Delivery.commandOrHold u id c).exec n).2 := by
  unfold Delivery.commandOrHold
  rw [exec_context_bind]
  split
  · exact command_chain tell
  · rename_i unready
    rw [Bool.not_eq_true] at unready
    exact .of_step (waits unready) (.holdCommand unready)

/-- The command that a session holds back is let go, and leaves. -/
theorem releaseCommand_chain (drop : A (.dropCommand id)) :
    Chain A n ((Delivery.releaseCommand id).exec n).2 := by
  unfold Delivery.releaseCommand
  rw [exec_context_bind]
  split
  · exact .refl
  · rw [exec_change_bind]
    refine (Chain.of_step drop .dropCommand).trans
      (Chain.bind (command_chain fun s hs => ?_) fun _ _ => .refl)
    change (n.context.sessions.modify id _).get? id = some s at hs
    rw [Table.get?_modify, if_pos rfl] at hs
    obtain ⟨s₀, h₀, rfl⟩ := Option.map_eq_some_iff.1 hs
    exact tell s₀ h₀

/-- A rejection leaves on the leg of the session's UE, if there is one. -/
theorem reject_chain {n1 : Octets} : Chain A n ((Delivery.reject id n1).exec n).2 := by
  unfold Delivery.reject
  refine .read (reads_session id) fun s hs => ?_
  rw [exec_session_eq_ok] at hs
  rw [exec_context_bind]
  split
  · exact .refl
  · rename_i k l hl
    exact .bind (.tell (r := .downlinkNas (Nas.wrapSession s.psi n1)) (tell s hs _ rfl) hl rfl)
      fun _ _ => .refl

end

/-- To tell a UE that its session is rejected leaves the context alone. -/
theorem context_reject {id : Nat} (n1 : Octets) :
    ((Delivery.reject id n1).exec n).2.context = n.context :=
  Chain.keeps (A := fun a => ∃ u r, a = .tell u r) (P := fun m => m.context = n.context)
    (fun _ m m' ⟨u, r, is⟩ step h => by
      subst is
      cases step
      exact h)
    (reject_chain fun s _ r _ => ⟨s.ue, r, rfl⟩) rfl

/-- A deregistration request leaves, and is kept with its timer started unless it was refused. -/
theorem deregister_chain {u : Nat} {reregister : Bool} {cause : Option Nas.Cause}
    (tell : ∀ r, A (.tell u r)) (keep : A (.deregister u)) :
    Chain A n ((Delivery.deregister u reregister cause).exec n).2 := by
  unfold Delivery.deregister
  refine .read (reads_ue u) fun x hx => ?_
  refine .read (reads_legOf u) fun ⟨k, l⟩ hl => ?_
  rw [exec_ue_eq_ok] at hx
  rw [exec_legOf_eq_ok] at hl
  refine .bind (.tell (r := .downlinkNas _) (tell _) hl rfl) fun _ _ =>
    .of_step keep (.deregister ?_)
  unfold emitNas
  rw [exec_emitOn]
  exact Option.isSome_iff_exists.2 ⟨x, hx⟩

theorem repeatDeregistration_chain {u : Nat} (tell : ∀ r, A (.tell u r)) :
    Chain A n ((Delivery.repeatDeregistration u).exec n).2 := by
  unfold Delivery.repeatDeregistration
  refine .read (reads_ue u) fun x hx => ?_
  refine .read (reads_need _ _) fun nas hnas => ?_
  refine .read (reads_legOf u) fun ⟨k, l⟩ hl => ?_
  rw [exec_legOf_eq_ok] at hl
  exact .tell (r := .downlinkNas nas) (tell _) hl rfl

end Delivery

namespace Paging

/-- The target of a transfer is resolved with at most its client added; if it cannot be, nothing
changes. -/
theorem resolve_cases (uri : Option String) (n : Node) :
    (∃ fault, (resolve uri).exec n = (.error fault, n)) ∨
      ∃ clients target added,
        (resolve uri).exec n = (.ok (target, added), n.change (·.withClients clients)) ∧
          Resolves n.context uri clients target := by
  cases uri with
  | none => exact .inr ⟨n.context.clients, none, false, rfl, .none⟩
  | some uri =>
    simp only [resolve]
    cases origin : Origin.ofUri? uri with
    | error e => exact .inl ⟨.target e, rfl⟩
    | ok client =>
      simp only [exec_context_bind]
      cases ensured : n.context.clients.ensure client with
      | error e => exact .inl ⟨.target e, rfl⟩
      | ok r => exact .inr ⟨r.1, some ⟨uri, client⟩, r.2, rfl, .some origin ensured⟩

/-- A paging that starts parks the transfer whose location it yields, also for a UE that has a leg,
and one that fails parks nothing. -/
theorem start_outcome {id : Nat} {s : Session} (payload : Payload) (uri : Option String)
    (session : n.context.sessions.get? id = some s) :
    (∃ u guti clients target, n.context.ues.get? s.ue = some u ∧ u.guti = some guti ∧
      Resolves n.context uri clients target ∧
      n.links.accepts (.radio (.paging s.ue (Ngap.Paging.octets { guti, tai := u.tai }))) = true ∧
      let location := Api.transferLocation n.context.origin u.name s.smRef
      (Paging.start id payload uri).exec n = (.ok location,
        n.park clients s.ue (Ngap.Paging.octets { guti, tai := u.tai })
          ⟨id, s.psi, location, target, payload⟩)) ∨
    (∃ fault, ((Paging.start id payload uri).exec n).1 = .error fault) ∧
      Chain (fun a => a = .refusePaging s.ue) n ((Paging.start id payload uri).exec n).2 := by
  unfold Paging.start
  rw [(reads_session id).exec_bind, exec_session_eq_ok.2 session]
  simp only
  rw [(reads_ue s.ue).exec_bind]
  cases hu : ((ue s.ue).exec n).1 with
  | error fault => exact .inr ⟨⟨fault, rfl⟩, .refl⟩
  | ok u =>
    rw [exec_ue_eq_ok] at hu
    simp only
    cases hg : u.guti with
    | none => exact .inr ⟨⟨_, rfl⟩, .refl⟩
    | some guti =>
      rw [exec_bind_of_ok (exec_need_some guti _ n)]
      obtain ⟨fault, failed⟩ | ⟨clients, target, added, done, resolved⟩ := resolve_cases uri n
      · rw [exec_bind_of_error failed]
        exact .inr ⟨⟨fault, rfl⟩, .refl⟩
      · rw [exec_bind_of_ok done, exec_context_bind, exec_bind, exec_tryCatch, exec_emit]
        unfold verdict
        by_cases accepted : (n.change (·.withClients clients)).links.accepts
            (.radio (.paging s.ue (Ngap.Paging.octets { guti, tai := u.tai })))
        · rw [if_pos accepted]
          exact .inl ⟨u, guti, clients, target, hu, hg, resolved, accepted, rfl⟩
        · rw [if_neg accepted]
          simp only [exec_change_bind, exec_throw, forget_eq]
          exact .inr ⟨⟨_, rfl⟩, .of_step rfl (.refusePaging resolved (Bool.eq_false_iff.2 accepted))⟩

/-- **A paging that starts parks the transfer whose location it yields, and one that fails parks
nothing.** -/
theorem start_cases {id : Nat} {s : Session} (payload : Payload) (uri : Option String)
    (session : n.context.sessions.get? id = some s) (idle : n.context.legOf? s.ue = none) :
    (∃ p, p.session = id ∧ p.payload = payload ∧
      ((Paging.start id payload uri).exec n).1 = .ok p.location ∧
      Step (.park s.ue p) n ((Paging.start id payload uri).exec n).2) ∨
    (∃ fault, ((Paging.start id payload uri).exec n).1 = .error fault) ∧
      Chain (fun a => a = .refusePaging s.ue) n ((Paging.start id payload uri).exec n).2 := by
  obtain ⟨u, guti, clients, target, hu, hg, resolved, accepted, done⟩ | failed :=
    start_outcome payload uri session
  · rw [done]
    exact .inl ⟨_, rfl, rfl, rfl, .park session hu hg idle resolved accepted⟩
  · exact .inr failed

/-- What was parked is delivered as it would have been on the leg. -/
theorem deliver_chain {u : Nat} {p : Parked}
    (tell : ∀ s, n.context.sessions.get? p.session = some s →
      ∀ r : Ngap.Request, r.isDeregistration = false → A (.tell s.ue r))
    (setUp : ∀ nas n2, p.payload = .setup nas n2 → A (.setUp p.session) ∧ A (.holdSetup p.session))
    (waits : n.context.established u = false → A (.holdCommand p.session)) :
    Chain A n ((Paging.deliver u p).exec n).2 := by
  unfold Paging.deliver
  split
  · rename_i nas n2 h
    exact Delivery.setup_chain (setUp nas n2 h).1 (setUp nas n2 h).2
  · exact Delivery.commandOrHold_chain tell waits
  · exact Delivery.commandOrHold_chain tell waits

/-- A paging message is sent again as it was kept. -/
theorem repeatPaging_step {u g i : Nat} {timers : Timers}
    (expiry : n.context.timers.expire .t3513 u g = (some (.retry i), timers)) :
    Step (.repeatPaging u) n ((Paging.repeatPaging u).exec (n.change (·.withTimers timers))).2 := by
  unfold Paging.repeatPaging
  cases hx : n.context.ues.get? u with
  | none =>
    rw [exec_bind_of_error (exec_ue_of_none (n := n.change (·.withTimers timers)) hx)]
    exact .repeatNothing (f := id) expiry (.inl ⟨hx, rfl⟩)
  | some x =>
    rw [exec_bind_of_ok (exec_ue_of_some (n := n.change (·.withTimers timers)) hx)]
    cases kept : x.pagingMessage with
    | none =>
      simp only
      exact .repeatNothing expiry (.inr ⟨by rw [hx, Option.map_some, kept], rfl⟩)
    | some pdu =>
      simp only
      rw [exec_bind, exec_emit]
      unfold verdict
      rw [Node.links_change]
      cases accepted : n.links.accepts (.radio (.paging u pdu)) with
      | true => exact .repeatPaging expiry hx kept accepted
      | false => exact .repeatRefused expiry hx kept accepted

/-- Where nothing is parked, nothing is taken. -/
theorem quitPaging_of_none {c : Context} {u : Nat} (parked : c.parked.get? u = none) (timers : Timers) :
    c.quitPaging u timers =
      (c.withTimers timers).modifyUe u fun x => { x with pagingMessage := none } := by
  unfold Context.quitPaging
  rw [Table.erase_eq_self parked]
  rfl

/-- What is parked is dropped with a report to its target. -/
theorem giveUp_step {u g : Nat} {timers : Timers}
    (expiry : n.context.timers.expire .t3513 u g = (some .exhausted, timers)) :
    Step (.giveUp u) n ((Paging.giveUp u).exec (n.change (·.withTimers timers))).2 := by
  have step := Step.giveUp expiry
  unfold Paging.giveUp
  rw [exec_change_bind, exec_context_bind]
  split
  · rename_i empty
    have parked : n.context.parked.get? u = none := empty
    rw [Context.reports_of_none parked] at step
    simp only [Node.change, quitPaging_of_none parked] at step
    exact step
  · rename_i p waits
    have parked : n.context.parked.get? u = some p := waits
    rw [Context.reports_of_some parked] at step
    simp only [exec_change_bind]
    unfold Parked.reports at step
    cases target : p.target with
    | none =>
      rw [target] at step
      exact step
    | some t =>
      rw [target] at step
      simp only [exec_emit]
      exact step

/-- **An expiry of T3513 is stale, or repeats the paging, or gives it up.** -/
theorem expired_cases (u g : Nat) (n : Node) :
    (n.context.timers.expire .t3513 u g = (none, n.context.timers) ∧
      ((Paging.expired u g).exec n).2 = n) ∨
    (∃ i timers, n.context.timers.expire .t3513 u g = (some (.retry i), timers) ∧
      Step (.repeatPaging u) n ((Paging.expired u g).exec n).2) ∨
    ∃ timers, n.context.timers.expire .t3513 u g = (some .exhausted, timers) ∧
      Step (.giveUp u) n ((Paging.expired u g).exec n).2 := by
  unfold Paging.expired
  rw [exec_context_bind]
  cases expiry : n.context.timers.expire .t3513 u g with
  | mk e timers =>
    rw [exec_change_bind]
    match e, expiry with
    | none, expiry =>
      rw [Timers.eq_of_expire_none expiry]
      exact .inl ⟨rfl, rfl⟩
    | some (.retry i), expiry => exact .inr (.inl ⟨i, timers, rfl, repeatPaging_step expiry⟩)
    | some .exhausted, expiry => exact .inr (.inr ⟨timers, rfl, giveUp_step expiry⟩)

/-- An expiry that counts repeats the paging or gives it up. -/
theorem expired_course {u g : Nat} (again : A (.repeatPaging u)) (last : A (.giveUp u)) :
    Course A n ((Paging.expired u g).exec n).2 := by
  obtain ⟨-, same⟩ | ⟨_, _, -, step⟩ | ⟨_, -, step⟩ := expired_cases u g n
  · rw [same]
    exact .refl
  · exact .of_step again step
  · exact .of_step last step

end Paging

namespace Release

/-- A confirmation of a release is recorded, or completes the release. -/
theorem input_course {id : Nat} {i : ReleaseInput} (record : A (.record id)) (remove : A (.remove id)) :
    Course A n ((Release.input id i).exec n).2 := by
  unfold Release.input
  rw [exec_context_bind]
  split
  · exact .refl
  · rename_i s session
    split
    · exact .of_step remove (.remove session)
    · rename_i incomplete
      exact .of_step record (.record session (Bool.eq_false_iff.2 incomplete))

end Release

namespace Deregistration

theorem unsubscribe_chain {u : Ue} {state : Option DeregistrationState} (ask : ∀ q, A (.ask q)) :
    Chain A n ((unsubscribe u state).exec n).2 := by
  unfold unsubscribe
  cases h : endRequest? u state with
  | none => exact .refl
  | some q =>
    refine Chain.bind ?_ fun _ _ => .refl
    rw [exec_emit]
    refine .of_step (ask q) (.ask ?_)
    unfold endRequest? at h
    split at h <;> cases h <;> rfl

/-- A UE is marked, and its subscription or policy association is ended. -/
theorem mark_chain {u : Nat} {state : DeregistrationState} (mark : A (.mark u))
    (ask : ∀ q, A (.ask q)) : Chain A n ((Deregistration.mark u state).exec n).2 := by
  unfold Deregistration.mark
  have marked : Step (.mark u) n
      (n.change (·.modifyUe u fun x => { x with deregistration := some state })) := .mark
  rw [exec_change_bind]
  refine (Chain.of_step mark marked).trans ?_
  rw [exec_context_bind]
  exact Chain.read (reads_need _ _) fun x _ => Chain.bind (unsubscribe_chain ask) fun _ _ => .refl

/-- A connected UE is asked to deregister, and every UE is marked. -/
theorem notify_chain {u : Nat} {d : Document.Deregistration} (tell : ∀ r, A (.tell u r))
    (keep : A (.deregister u)) (mark : A (.mark u)) (ask : ∀ q, A (.ask q)) :
    Chain A n ((Deregistration.notify u d).exec n).2 := by
  unfold Deregistration.notify
  rw [exec_context_bind]
  refine .read (reads_need _ _) fun _ _ => ?_
  refine .read (reads_need _ _) fun reason _ => ?_
  split
  · exact .refl
  · simp only [exec_context_bind]
    split
    · refine .bind (Delivery.deregister_chain tell keep) fun _ _ => ?_
      exact .bind (mark_chain mark ask) fun _ _ => .refl
    · exact .bind (mark_chain mark ask) fun _ _ => .refl

/-- An expiry that counts repeats the request to deregister, or ends it. -/
theorem expired_chain {u g : Nat} (tell : ∀ r, A (.tell u r)) (expire : A (.expireRequest u)) :
    Chain A n ((Deregistration.expired u g).exec n).2 := by
  unfold Deregistration.expired
  rw [exec_context_bind]
  cases expiry : n.context.timers.expire .t3522 u g with
  | mk e timers =>
    rw [exec_change_bind]
    match e, expiry with
    | none, expiry =>
      rw [Timers.eq_of_expire_none expiry]
      exact .refl
    | some (.retry i), expiry =>
      refine (Chain.of_step expire (.expireRequest expiry)).trans ?_
      refine Chain.tryCatch (Delivery.repeatDeregistration_chain tell) fun fault => ?_
      split
      · exact .of_step expire .stopRequest
      · exact .refl
    | some .exhausted, expiry =>
      refine (Chain.of_step expire (.expireRequest expiry)).trans ?_
      refine Chain.of_step expire (.forgetRequest ?_)
      show timers.isRunning .t3522 u = false
      rw [Timers.eq_of_expire_exhausted expiry, Bool.eq_false_iff, ne_eq, Timers.isRunning_stop]
      exact fun running => running.1 ⟨rfl, rfl⟩

end Deregistration

namespace Subscription

/-- The policies that a notification asks for are committed. -/
theorem commit_chain (policy : ∀ u, A (.setPolicy u)) :
    ∀ (w : Working) (n : Node), Chain A n (n.change (commit · w))
  | [], _ => .refl
  | e :: w, n => by
    have first : Chain A n (n.change (·.modifyUe e.1 fun u =>
        { u with restrictions := e.2.restrictions, ambr := e.2.ambr })) :=
      .of_step (policy e.1) .setPolicy
    exact first.trans (commit_chain policy w _)

/-- What is done for a UE whose policy has changed. -/
theorem follow_chain {u : Nat} {changed : Bool} (tell : ∀ r, A (.tell u r))
    (keep : A (.deregister u)) (mark : A (.mark u)) (ask : ∀ q, A (.ask q)) :
    Chain A n ((follow u changed).exec n).2 := by
  unfold follow
  rw [exec_context_bind]
  refine .read (reads_need _ _) fun x _ => ?_
  split
  · exact .of_step mark .mark
  · rename_i k l hl
    split
    · refine .bind (Delivery.deregister_chain tell keep) fun _ _ => ?_
      exact .bind (Deregistration.mark_chain mark ask) fun _ _ => .refl
    · split
      · exact .bind (.tell (r := .contextModification _ _) (tell _) hl rfl) fun _ _ => .refl
      · exact .refl

theorem followAll_chain (tell : ∀ u r, A (.tell u r)) (keep : ∀ u, A (.deregister u))
    (mark : ∀ u, A (.mark u)) (ask : ∀ q, A (.ask q)) :
    ∀ (w : Working) (n : Node), Chain A n ((followAll w).exec n).2
  | [], _ => .refl
  | (u, _) :: w, _ => by
    unfold followAll
    refine .bind (Chain.observe (follow_chain (tell u) (keep u) (mark u) ask)) fun _ _ => ?_
    exact .bind (followAll_chain tell keep mark ask w _) fun _ _ => .refl

/-- A notification of changes commits the policies and acts for every UE that it names. -/
theorem notify_chain {m : Document.Modification} (policy : ∀ u, A (.setPolicy u))
    (tell : ∀ u r, A (.tell u r)) (keep : ∀ u, A (.deregister u)) (mark : ∀ u, A (.mark u))
    (ask : ∀ q, A (.ask q)) : Chain A n ((Subscription.notify m).exec n).2 := by
  unfold Subscription.notify
  rw [exec_context_bind]
  split
  · exact .refl
  · rename_i w _
    rw [exec_change_bind]
    refine (commit_chain policy w n).trans ?_
    refine Chain.bind (followAll_chain tell keep mark ask w _) fun _ _ => ?_
    split <;> exact .refl

end Subscription

namespace Relocation

theorem reads_findUe (id : Option String) : Reads (findUe id) :=
  (reads_need _ _).bind fun _ => reads_context.bind fun _ => reads_need _ _

theorem reads_request (id : Option String) (b : Document.RelocationBody) : Reads (request id b) :=
  (reads_findUe id).bind fun _ => reads_context.bind fun _ => (reads_need _ _).bind fun _ =>
    reads_pure _

theorem exec_findUe {name : String} {u : Nat} (found : n.context.findUe? name = some u) :
    (findUe (some name)).exec n = (.ok u, n) := by
  show (need (n.context.findUe? name) _).exec n = _
  rw [found, exec_need_some]

/-- A UE that is found is known, and its context is the answer. -/
theorem exec_request {name : String} {u : Nat} {x : Ue} (found : n.context.findUe? name = some u)
    (known : n.context.ues.get? u = some x) (b : Document.RelocationBody) :
    (request (some name) b).exec n =
      (.ok { ueContext := ueContext n.context u x b.reason }, n) := by
  rw [request, exec_bind_of_ok (exec_findUe found), exec_context_bind, known]
  rfl

/-- The session management function is asked to release each session that it has confirmed. -/
theorem releaseAll_chain {u : Nat} (ask : ∀ q, A (.ask q)) :
    ∀ (psis : List UInt8) (n : Node), Chain A n ((releaseAll u psis).exec n).2
  | [], _ => .refl
  | psi :: rest, n => by
    unfold releaseAll
    rw [exec_context_bind]
    split
    · refine .bind ?_ fun _ _ => Chain.bind (releaseAll_chain ask rest _) fun _ _ => .refl
      unfold releaseInSmf
      split
      · exact .refl
      · refine .bind ?_ fun _ _ => .refl
        rw [exec_emit]
        exact .of_step (ask _) (.ask rfl)
    · exact .bind .refl fun _ _ => Chain.bind (releaseAll_chain ask rest n) fun _ _ => .refl

/-- Once the sessions are released, the UE is detached. -/
theorem detach_step (u : Nat) (complete : Bool) (n : Node) :
    Step (.detach u) n ((do
      if ((← context).legOf? u).isSome then uncount .ranUes
      change (detach · u)
      return ({ complete } : Document.StatusUpdateAnswer) : Procedure _).exec n).2 := by
  have step : Step (.detach u) n _ := .detach
  rw [exec_context_bind]
  split
  · rename_i h
    rw [if_pos h] at step
    exact step
  · rename_i h
    rw [if_neg h] at step
    exact step

/-- A report that a UE was taken over releases sessions and detaches it; every other one does
nothing. -/
theorem update_course {id : Option String} {r : Document.StatusUpdate} (ask : ∀ q, A (.ask q))
    (detach : ∀ u answer, ((findUe id).exec n).1 = .ok u → r.status = some .transferred →
      ((update id r).exec n).1 = .ok answer → A (.detach u)) :
    Course A n ((update id r).exec n).2 := by
  revert detach
  unfold update
  rw [(reads_findUe id).exec_bind]
  cases found : ((findUe id).exec n).1 with
  | error fault => exact fun _ => .refl
  | ok u =>
    cases status : r.status with
    | none => exact fun _ => .refl
    | some reported =>
      cases reported with
      | notTransferred => exact fun _ => .refl
      | transferred =>
        have quiet : Chain (fun a => A a ∧ a.quiet) n ((releaseAll u r.release).exec n).2 :=
          releaseAll_chain (fun q => ⟨ask q, rfl⟩) _ n
        simp only
        rw [exec_bind]
        generalize (releaseAll u r.release).exec n = outcome at quiet
        obtain ⟨_ | complete, m⟩ := outcome
        · exact fun _ => .inl quiet
        · intro detach
          refine .before quiet
            (.of_step (detach u { complete } rfl trivial ?_) (detach_step u complete m))
          simp only [exec_context_bind]
          split <;> rfl

end Relocation

namespace Transfer

/-- The transfer that is parked is for the session that was asked for, and sets it up only if that
was. -/
def Order.Asks (o : Order) (p : Parked) : Prop :=
  o.session = p.session ∧ ∀ nas n2, p.payload = .setup nas n2 → o.kind = .setup

/-- How a transfer ends: it is parked, with its location in the outcome, or it comes to acts of a
kind and to no paging. -/
def Ends (A : Act → Prop) (o : Order) (n : Node) (result : Except Fault Outcome × Node) : Prop :=
  (∃ s p, n.context.sessions.get? o.session = some s ∧ o.Asks p ∧
    result.1 = .ok (.paging p.location) ∧ Step (.park s.ue p) n result.2) ∨
  (∀ outcome, result.1 = .ok outcome → outcome.status = .ok) ∧ Course A n result.2

variable {o : Order} {s : Session}

theorem Ends.of_error {fault : Fault} {n' : Node} (course : Course A n n') :
    Ends A o n (.error fault, n') := by
  refine .inr ⟨fun outcome h => ?_, course⟩
  cases h

/-- What a transfer says when it does not page is that it is done. -/
theorem Ends.of_done {p : Procedure Unit} {outcome : Outcome} (done : outcome.status = .ok)
    (course : Course A n (p.exec n).2) : Ends A o n ((do p; return outcome).exec n) := by
  rw [exec_bind]
  generalize p.exec n = result at course
  obtain ⟨fault | _, m⟩ := result
  · exact .of_error course
  · refine .inr ⟨fun x h => ?_, course⟩
    cases h
    exact done

theorem park_ends {payload : Payload} (session : n.context.sessions.get? o.session = some s)
    (idle : n.context.connection s.ue = .idle) (refuse : A (.refusePaging s.ue))
    (asks : ∀ nas n2, payload = .setup nas n2 → o.kind = .setup) :
    Ends A o n ((Transfer.park o payload).exec n) := by
  have idle : n.context.legOf? s.ue = none := by
    unfold Context.connection at idle
    split at idle
    · cases idle
    · rename_i h
      exact Option.not_isSome_iff_eq_none.1 h
  unfold Transfer.park
  rw [exec_bind]
  have cases' := Paging.start_cases payload o.failureUri session idle
  generalize (Paging.start o.session payload o.failureUri).exec n = result at cases'
  obtain ⟨outcome, m⟩ := result
  obtain ⟨p, ofSession, rfl, rfl, step⟩ | ⟨⟨fault, rfl⟩, chain⟩ := cases'
  · exact .inl ⟨s, p, session, ⟨ofSession.symm, asks⟩, rfl, step⟩
  · exact .of_error (.inl (chain.mono fun a h => by
      subst h
      exact ⟨refuse, rfl⟩))

section
variable (session : n.context.sessions.get? o.session = some s)
  (tell : ∀ r : Ngap.Request, r.isDeregistration = false → A (.tell s.ue r))
  (waits : n.context.established s.ue = false → A (.holdCommand o.session))
  (refuse : A (.refusePaging s.ue))

include session refuse in
theorem setup_ends (kind : o.kind = .setup) (setUp : A (.setUp o.session) ∧ A (.holdSetup o.session)) :
    Ends A o n ((Transfer.setup o s).exec n) := by
  unfold Transfer.setup Order.needN2
  rw [(reads_need _ _).exec_bind]
  split
  · rw [exec_context_bind]
    split
    · exact .of_done rfl (.inl (Delivery.setup_chain ⟨setUp.1, rfl⟩ ⟨setUp.2, rfl⟩))
    · rename_i idle
      rw [(reads_need _ _).exec_bind]
      split
      · exact park_ends session idle refuse fun _ _ _ => kind
      · exact .of_error .refl
  · exact .of_error .refl

include session tell waits in
theorem commandOrHold_course {c : HeldCommand} :
    Course A n ((Delivery.commandOrHold s.ue o.session c).exec n).2 := by
  refine .inl (Delivery.commandOrHold_chain (fun t there r plain => ?_)
    fun unready => ⟨waits unready, rfl⟩)
  rw [session] at there
  cases there
  exact ⟨tell r plain, rfl⟩

include session tell waits refuse in
theorem modification_ends : Ends A o n ((Transfer.modification o s).exec n) := by
  unfold Transfer.modification Order.needN1 Order.needN2
  rw [(reads_need _ _).exec_bind]
  split
  · rw [(reads_need _ _).exec_bind]
    split
    · rw [exec_context_bind]
      split
      · exact .of_done rfl (commandOrHold_course session tell waits)
      · rename_i idle
        exact park_ends session idle refuse nofun
    · exact .of_error .refl
  · exact .of_error .refl

include session tell waits refuse in
theorem release_ends : Ends A o n ((Transfer.release o s).exec n) := by
  unfold Transfer.release Order.needN2
  rw [(reads_need _ _).exec_bind]
  split
  · rw [exec_context_bind]
    split
    · exact .of_done rfl (commandOrHold_course session tell waits)
    · rename_i idle
      split
      · refine .inr ⟨fun x h => ?_, .refl⟩
        cases h
        rfl
      · exact park_ends session idle refuse nofun
  · exact .of_error .refl

end

/-- The UE is told if it has a leg, and the session goes unless the message is refused. -/
theorem reject_ends (session : n.context.sessions.get? o.session = some s)
    (tell : ∀ r : Ngap.Request, r.isDeregistration = false → A (.tell s.ue r))
    (remove : A (.remove o.session)) :
    Ends A o n ((Transfer.reject o).exec n) := by
  unfold Transfer.reject Order.needN1
  rw [(reads_need _ _).exec_bind]
  split
  · rename_i n1 _
    have quiet : Chain (fun a => A a ∧ a.quiet) n ((Delivery.reject o.session n1).exec n).2 := by
      refine Delivery.reject_chain fun t there r plain => ?_
      rw [session] at there
      cases there
      exact ⟨tell r plain, rfl⟩
    have kept : ((Delivery.reject o.session n1).exec n).2.context = n.context :=
      Delivery.context_reject n1
    rw [exec_bind]
    generalize (Delivery.reject o.session n1).exec n = result at quiet kept
    obtain ⟨fault | _, m⟩ := result
    · exact .of_error (.inl quiet)
    · refine .inr ⟨fun x h => ?_, .before quiet (.of_step remove (.remove (kept ▸ session)))⟩
      cases h
      rfl
  · exact .of_error .refl

/-- **A transfer is parked, and nothing else happens, or it comes to what its procedure may do.** -/
theorem run_ends (o : Order) (n : Node)
    (tell : ∀ s, n.context.sessions.get? o.session = some s →
      ∀ r : Ngap.Request, r.isDeregistration = false → A (.tell s.ue r))
    (setUp : o.kind = .setup → A (.setUp o.session) ∧ A (.holdSetup o.session))
    (waits : ∀ s, n.context.sessions.get? o.session = some s →
      n.context.established s.ue = false → A (.holdCommand o.session))
    (remove : o.kind = .reject → A (.remove o.session))
    (refuse : ∀ s, n.context.sessions.get? o.session = some s → A (.refusePaging s.ue)) :
    Ends A o n ((Transfer.run o).exec n) := by
  unfold Transfer.run
  rw [exec_context_bind]
  cases session : n.context.sessions.get? o.session with
  | none => exact .of_error .refl
  | some s =>
    rw [exec_bind_of_ok (exec_need_some s _ n), exec_context_bind, (reads_need _ _).exec_bind]
    split
    · cases kind : o.kind with
      | setup => exact setup_ends session (refuse s session) kind (setUp kind)
      | modification =>
        exact modification_ends session (tell s session) (waits s session) (refuse s session)
      | release => exact release_ends session (tell s session) (waits s session) (refuse s session)
      | reject => exact reject_ends session (tell s session) (remove kind)
      | other ie => exact .of_error .refl
    · exact .of_error .refl

end Transfer
end Amf
