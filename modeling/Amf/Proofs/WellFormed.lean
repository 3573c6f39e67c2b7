import Amf.Proofs.Awaited
import Amf.Proofs.Committed
import Amf.Proofs.Composition
import Amf.Proofs.Retried
import Amf.Proofs.Timely

/-!
# Well-formed messages

What a run hands to the radio network is made of what its transfers bring and of the lists of the UEs
in its states, so every message is framed while these are within the limits of the wire
(`Event.run_framed`). Nothing checks the limits: a rejection hands over its message to the UE however
long that is (`Event.offered_rejection`), and one that is too long leaves with a wrong count
(`Leg.message_framed_iff`).
-/

namespace Amf

open Procedure

variable {L : Limits} {n : Node}

/-! ## Notifications of changes -/

namespace Subscription

variable {c : Context} {u : Nat} {m : Document.Modification}

/-- What a commitment leaves alone about UEs. -/
theorem map_ues_commit {β : Type} {g : Ue → β}
    (free : ∀ x restrictions ambr, g { x with restrictions, ambr } = g x) :
    ∀ (w : Working) (c : Context), ((commit c w).ues.get? u).map g = (c.ues.get? u).map g
  | [], _ => rfl
  | _ :: w, _ => (map_ues_commit free w _).trans (Table.map_get?_modify fun x => free x _ _)

/-- A commitment changes UEs only. -/
theorem commit_eq : ∀ (w : Working) (c : Context), commit c w = { c with ues := (commit c w).ues }
  | [], _ => rfl
  | _ :: w, _ => commit_eq w _

/-- What is committed is within limits if the restrictions are. -/
theorem composed_commit {w : Working} (h : c.Composed L)
    (lists : ∀ u x, (commit c w).ues.get? u = some x → L.restrictions x.restrictions) :
    (commit c w).Composed L := by
  have ues : (commit c w).ues.All (·.Composed L) := by
    intro u y there
    have stems := map_ues_commit (u := u)
      (g := fun x => (x.allowed, x.pagingMessage, x.deregistrationMessage)) (fun _ _ _ => rfl) w c
    rw [there] at stems
    obtain ⟨x, before, same⟩ := Option.map_eq_some_iff.1 stems.symm
    obtain ⟨within, paging, request⟩ := h.ues u x before
    rw [Prod.mk.injEq, Prod.mk.injEq] at same
    exact ⟨⟨same.1 ▸ within.1, lists u y there⟩, same.2.1 ▸ paging, same.2.2 ▸ request⟩
  rw [commit_eq]
  exact ⟨ues, h.sessions, h.parked⟩

/-- **What a notification commits is within limits if the restrictions of UEs are afterwards.** -/
theorem notify_composed (h : n.Composed L)
    (lists : ∀ u x, ((notify m).exec n).2.context.ues.get? u = some x → x.Within L) :
    ((notify m).exec n).2.Composed L := by
  cases applied : working? n.context m with
  | error why =>
    rw [exec_notify_of_error applied]
    exact h
  | ok w =>
    rw [snd_notify applied] at lists ⊢
    have follows : Chain (·.follows) (n.change (commit · w)) ((followAll w).exec _).2 :=
      followAll_chain (fun _ _ => rfl) (fun _ => rfl) (fun _ => rfl) (fun _ => rfl) w _
    refine (keeps_followAll w _ (.change h (composed_commit h.context fun u y there => ?_))).1
    -- The restrictions that are committed are those in the end.
    have stays : cached ((followAll w).exec (n.change (commit · w))).2.context u =
        cached (commit n.context w) u := cached_of_chain follows
    unfold cached at stays
    rw [there] at stays
    obtain ⟨z, after, same⟩ := Option.map_eq_some_iff.1 stays
    rw [show y.restrictions = z.restrictions from congrArg Prod.fst same.symm]
    exact (lists u z after).2

end Subscription

/-! ## Requests -/

namespace Routing

variable {r : Request}

theorem keeps_relocation : Keeps L (relocation r) := by
  unfold relocation
  refine .read_bind (constant_parse _ r _).reads fun b => ?_
  exact .read_bind (Relocation.reads_request _ b) fun _ => .pure trivial

theorem keeps_relocationUpdate : Keeps L (relocationUpdate r) := by
  unfold relocationUpdate
  refine .read_bind (constant_parse _ r _).reads fun b => ?_
  refine .bind (keeps_of_course fun n => ?_) fun _ _ => .pure trivial
  exact Relocation.update_course (fun _ => rfl) fun _ _ _ _ _ => rfl

theorem keeps_sessionStatus : Keeps L (sessionStatus r) := by
  unfold sessionStatus
  refine .read_bind (reads_need _ _) fun psi => ?_
  refine .read_bind (constant_parse _ r _).reads fun b => ?_
  refine .read_bind (reads_need _ _) fun info => ?_
  refine .read_bind (reads_findSupi _) fun u => ?_
  refine keeps_context_bind fun _ _ => ?_
  refine .read_bind (reads_need _ _) fun id => ?_
  refine .bind (keeps_of_course fun n => ?_) fun _ _ => .pure trivial
  exact Release.input_course rfl rfl

theorem keeps_deregistration : Keeps L (deregistration r) := by
  unfold deregistration
  refine .read_bind (constant_parse _ r _).reads fun b => ?_
  refine .read_bind (reads_findSupi _) fun u => ?_
  exact .bind Deregistration.keeps_notify fun _ _ => .pure trivial

theorem transfer_composed (h : n.Composed L)
    (orders : ∀ o, ((transferOrder r).exec n).1 = .ok o → o.Within L) :
    ((transfer r).exec n).2.Composed L := by
  unfold transfer
  rw [(reads_transferOrder r).exec_bind]
  cases order : ((transferOrder r).exec n).1 with
  | error fault => exact h
  | ok o =>
    simp only
    rw [exec_bind_pure_snd]
    exact (Transfer.keeps_run (orders o order) n h).1

theorem subscriberData_composed (h : n.Composed L)
    (lists : ∀ u x, ((subscriberData r).exec n).2.context.ues.get? u = some x → x.Within L) :
    ((subscriberData r).exec n).2.Composed L := by
  unfold subscriberData at lists ⊢
  rw [(constant_parse _ r _).reads.exec_bind] at lists ⊢
  split at lists
  · rw [exec_bind_pure_snd] at lists ⊢
    exact Subscription.notify_composed h lists
  · exact h

/-- **A request keeps what is composed within limits so**, if what it brings is within them, and the
lists of the UEs are afterwards. -/
theorem handle_composed (h : n.Composed L) (orders : ∀ o, Orders n r o → o.Within L)
    (lists : ∀ u x, (handle r n).2.context.ues.get? u = some x → x.Within L) :
    (handle r n).2.Composed L := by
  rw [handle_snd] at lists ⊢
  obtain ⟨fault, failed⟩ | ⟨reaches, same⟩ | ⟨-, same⟩ | ⟨-, handler, notifies, same⟩ :=
    route_cases r n
  · rw [failed]
    exact h
  · rw [same]
    exact transfer_composed h fun o order => orders o ⟨reaches, order⟩
  · rw [same]
    exact (keeps_relocationUpdate n h).1
  · rw [same] at lists ⊢
    cases notifies with
    | relocation => exact (keeps_relocation n h).1
    | sessionStatus => exact (keeps_sessionStatus n h).1
    | deregistration => exact (keeps_deregistration n h).1
    | subscriberData => exact subscriberData_composed h lists

end Routing

/-! ## Events -/

namespace Event

theorem keeps_releaseCommands : ∀ ids : List Nat, Keeps L (releaseCommands ids)
  | [] => .pure trivial
  | _ :: ids => .bind (.attempt Delivery.keeps_releaseCommand) fun _ _ => keeps_releaseCommands ids

theorem keeps_establish {u : Nat} : Keeps L (establish u) := by
  unfold establish
  refine keeps_context_bind fun _ _ => ?_
  split
  · exact .pure trivial
  · refine .bind (keeps_change fun _ h => h.modifyLeg) fun _ _ => ?_
    refine keeps_context_bind fun _ _ => ?_
    split
    · split
      · exact .pure trivial
      · exact keeps_releaseCommands _
    · exact .pure trivial

/-- A UE that gets a leg is delivered what was parked for it. -/
theorem connected_composed {u : Nat} {gnb ran : UInt64} {rat : RatType} (h : n.Composed L) :
    ((connected u gnb ran rat).handle n).2.Composed L := by
  cases known : n.context.ues.contains u with
  | false => rwa [handle_connected_of_none (.inl known)]
  | true =>
    cases room : n.context.addLeg gnb ran with
    | none => rwa [handle_connected_of_none (.inr room)]
    | some added =>
      have connects : (n.connect added.2 u added.1 rat).Composed L := h.connect room
      rw [handle_connected known room]
      cases parked : n.context.parked.get? u with
      | none => exact connects
      | some p =>
        simp only
        split
        · exact (Paging.keeps_deliver (h.context.parked u p parked) _ connects).1
        · exact connects

/-- **An event keeps what is composed within limits so**, if what it brings is within them, and the
lists of the UEs are afterwards. -/
theorem handle_composed {e : Event} (h : n.Composed L)
    (orders : ∀ r o, e = request r → Routing.Orders n r o → o.Within L)
    (lists : ∀ u x, (e.handle n).2.context.ues.get? u = some x → x.Within L) :
    (e.handle n).2.Composed L := by
  cases e with
  | request r => exact Routing.handle_composed h (fun o => orders r o rfl) lists
  | timer kind u g =>
    cases kind with
    | t3513 => exact (keeps_of_course (fun n => Paging.expired_course rfl rfl) n h).1
    | t3522 => exact (Deregistration.keeps_expired n h).1
  | connected => exact connected_composed h
  | released u =>
    obtain same | step := handle_released u n
    · rwa [same]
    · exact step.composed rfl h
  | setupAnswered => exact (keeps_establish n h).1
  | sessionConfirmed u psi uri smRef =>
    cases found : n.context.findSession? u psi with
    | none => rwa [handle_sessionConfirmed_of_none uri smRef found]
    | some id => exact (handle_sessionConfirmed uri smRef found).composed rfl h
  | n1Released | n2Released =>
    exact (keeps_of_course (fun n => recordRelease_course n fun _ _ => ⟨rfl, rfl⟩) n h).1
  | shutdown => exact h

/-- **What a run composes is within limits if what its transfers bring and the lists of its UEs
are.** -/
theorem run_composed (es : List Event) (h : n.Composed L)
    (orders : ∀ k r o, es[k]? = some (request r) → Routing.Orders (stateAt es n k) r o → o.Within L)
    (lists : ∀ k u x, (stateAt es n k).context.ues.get? u = some x → x.Within L) :
    (run es n).Composed L := by
  induction es generalizing n with
  | nil => exact h
  | cons e es ih =>
    have first : (e.handle n).2.Composed L :=
      handle_composed h (fun r o is => orders 0 r o (congrArg some is)) (lists 1)
    exact ih first (fun k => orders (k + 1)) fun k => lists (k + 1)

/-- A context that was set up, and keeps no deregistration request, is composed within every limits
that hold of the lists of its UEs. -/
theorem composed_of_provisioned {config : Config} {c : Context} (provisioned : Provisioned config c)
    (silent : ∀ u x, c.ues.get? u = some x → x.deregistrationMessage = none)
    (lists : ∀ u x, c.ues.get? u = some x → x.Within L) : c.Composed L := by
  refine ⟨fun u x known => ⟨lists u x known, ?_, ?_⟩, fun id s there => ⟨?_, ?_⟩, fun u p waits => ?_⟩
  · rw [(provisioned.fresh.ues u x known).2.2]
    exact nofun
  · rw [silent u x known]
    exact nofun
  · rw [(provisioned.vacant id s there).1]
    exact nofun
  · rw [(provisioned.vacant id s there).2]
    exact nofun
  · rw [provisioned.fresh.parked] at waits
    cases waits

end Event

/-! ## Framed messages -/

/-- A message to the radio network is well formed: every count in it, and in the NAS message that it
carries, is the number of what follows. A paging message has no counts. -/
def Outbound.Framed : Outbound → Prop
  | .radio (.toLeg _ _ pdu) => ∃ (r : Ngap.Request) (ids : Ngap.UeIds), pdu = r.octets ids ∧ r.Framed
  | .radio (.paging _ pdu) => ∃ p : Ngap.Paging, pdu = p.octets
  | .peer _ => True

theorem Outbound.Composed.framed {m : Outbound} (h : m.Composed .wire) : m.Framed := by
  match m, h with
  | .radio (.toLeg _ _ _), ⟨r, ids, is, made⟩ => exact ⟨r, ids, is, made.framed_iff.2 made⟩
  | .radio (.paging _ _), h => exact h
  | .peer _, _ => trivial

theorem Ngap.eq_of_octets_eq {nas : Octets} {r : Request} {ids ids' : UeIds}
    (same : r.octets ids' = (Request.downlinkNas nas).octets ids) : r = .downlinkNas nas := by
  have procedures : Octets.word 2 r.procedure = Octets.word 2 4 := congrArg (List.take 2) same
  cases r with
  | downlinkNas nas' =>
    have contents : nas' = nas := congrArg (List.drop 21) same
    rw [contents]
  | _ => simp [Request.procedure, Octets.word] at procedures

/-- **A payload in a downlink transport is framed exactly if it is within the limit of the wire.** -/
theorem Leg.message_framed_iff {l : Leg} {psi : UInt8} {n1 : Octets} :
    (l.message (.downlinkNas (Nas.wrapSession psi n1))).Framed ↔ n1.length ≤ 65525 := by
  constructor
  · rintro ⟨r, ids, same, framed⟩
    have exact := framed.exact
    rw [Ngap.eq_of_octets_eq same.symm] at exact
    have fits := Format.exact_counted_two.1 exact
    change (Nas.wrapSession psi n1).length ≤ 65535 at fits
    rw [Nas.length_wrapSession] at fits
    omega
  · intro fits
    have made : (Ngap.Request.downlinkNas (Nas.wrapSession psi n1)).Made .wire := .session psi fits
    exact ⟨_, l.ids, rfl, made.framed_iff.2 made⟩

/-! ## A rejection -/

namespace Transfer

variable {o : Order} {s : Session} {k : Nat} {l : Leg} {n1 : Octets}

/-- The rejection of a session of a connected UE hands its message over as it is. -/
theorem offered_reject (kind : o.kind = .reject) (given : o.n1 = some n1)
    (session : n.context.sessions.get? o.session = some s)
    (leg : n.context.legOf? s.ue = some (k, l)) : ((run o).exec n).2.links.offered =
      n.links.offered ++ [l.message (.downlinkNas (Nas.wrapSession s.psi n1))] := by
  rw [exec_run session (Context.contains_of_leg leg), kind]
  unfold reject Order.needN1
  rw [given, exec_bind_of_ok (exec_need_some n1 _ n), exec_bind, exec_reject n1 session leg, exec_bind,
    exec_emit]
  -- The session goes if the message is taken, which hands nothing over.
  cases verdict n _ <;> exact Links.offered_offer _ _

end Transfer

/-- The body of a request to reject session 5. -/
def Document.TransferBody.reject : Document.TransferBody :=
  { n1 := some { messageClass := .sm, content := some { contentId := "n1" } }
    psi := some 5 }

/-- A request to reject session 5 of the UE, with a message to it. -/
def Request.rejectWith (n1 : Octets) : Request := { Request.reject with parts := [("n1", n1)] }

namespace Routing

theorem transferOrder_reject (n1 : Octets) (found : n.context.findUe? "imsi-1" = some 1)
    (session : n.context.findSession? 1 5 = some 1) : (transferOrder (.rejectWith n1)).exec n =
      (.ok ⟨1, .reject, some n1, none, false, none⟩, n) := by
  have body : Document.ofJson? (Document.toJson Document.TransferBody.reject) =
      some Document.TransferBody.reject := by decide
  have parsed : (parse (.rejectWith n1) "N1N2MessageTransferReqData").exec n =
      (.ok Document.TransferBody.reject, n) := by
    unfold parse
    show (need (some (Document.toJson Document.TransferBody.reject)) _ >>= _ :
      Procedure Document.TransferBody).exec n = _
    rw [exec_bind_of_ok (exec_need_some _ _ n), body]
    rfl
  unfold transferOrder
  rw [exec_bind_of_ok parsed, exec_context_bind]
  show (need (n.context.findUe? "imsi-1") _ >>= _ : Procedure _).exec n = _
  rw [found, exec_bind_of_ok (exec_need_some _ _ n)]
  show ((pure none : Procedure (Option Document.SessionInfo)) >>= _ : Procedure _).exec n = _
  rw [exec_pure_bind]
  show (need (some 5) _ >>= _ : Procedure _).exec n = _
  rw [exec_bind_of_ok (exec_need_some _ _ n), exec_context_bind, session,
    exec_bind_of_ok (exec_need_some _ _ n)]
  rfl

end Routing

namespace Event

/-- The run in which the UE connects, and then its session is rejected with a message to it. -/
def rejection (n1 : Octets) : List Event := [connected 1 0 101 .nr, request (.rejectWith n1)]

/-- Whatever the message to the UE is, it is handed over. -/
theorem offered_rejection (n1 : Octets) :
    (run (rejection n1) { context := .oneSession }).links.offered =
      [Leg.message { ids := ⟨1, 101⟩, gnb := 0 } (.downlinkNas (Nas.wrapSession 5 n1))] := by
  let n : Node := ((connected 1 0 101 .nr).handle { context := .oneSession }).2
  have quiet : n.links.offered = [] := rfl
  have session : n.context.sessions.get? 1 = some { psi := 5, ue := 1 } := rfl
  have leg : n.context.legOf? 1 = some (1, { ids := ⟨1, 101⟩, gnb := 0, ue := some 1 }) := rfl
  have order := Routing.transferOrder_reject (n := n) n1 (by decide) (by decide)
  have routed : Routing.route (.rejectWith n1) = Routing.transfer (.rejectWith n1) := rfl
  show (Routing.handle (.rejectWith n1) n).2.links.offered = _
  clear_value n
  rw [Routing.handle_snd, routed]
  unfold Routing.transfer
  rw [exec_bind_of_ok order, exec_bind_pure_snd, Transfer.offered_reject rfl rfl session leg, quiet]
  rfl

set_option maxRecDepth 4000 in
/-- In no state of the run has the UE slices, restrictions or a deregistration request. -/
theorem lists_rejection (k u : Nat) (x : Ue)
    (known : (stateAt (rejection [1]) { context := .oneSession } k).context.ues.get? u = some x) :
    x.Within .wire ∧ x.deregistrationMessage = none := by
  have unchanged : ∀ e ∈ (stateAt (rejection [1]) { context := .oneSession } k).context.ues.entries,
      e.2.allowed = [] ∧ e.2.restrictions = [] ∧ e.2.deregistrationMessage = none := by
    match k with
    | 0 => decide
    | 1 => decide
    | k + 2 =>
      have last : stateAt (rejection [1]) { context := .oneSession } (k + 2) =
          run (rejection [1]) { context := .oneSession } :=
        congrArg (run · _) (List.take_of_length_le (Nat.le_add_left 2 k))
      rw [last]
      decide
  obtain ⟨slices, restrictions, request⟩ := unchanged _ (mem_of_valueOf known)
  unfold Ue.Within
  rw [slices, restrictions]
  exact ⟨⟨Nat.zero_le _, Nat.zero_le _⟩, request⟩

/-! ## All messages -/

/-- **Every message is well formed while its parts fit.** In a run from a context that was set up, with
no deregistration request kept, every message on a leg is a request that is framed exactly if its parts
are within the limits of the wire. So all messages are framed if no transfer of the run brings more than
the wire holds, and no UE has more slices or restrictions than it holds in any state. -/
theorem run_framed {config : Config} {c : Context} (provisioned : Provisioned config c)
    (silent : ∀ u x, c.ues.get? u = some x → x.deregistrationMessage = none)
    (metrics : Metrics) (links : Links) (nothing : links.offered = []) (es : List Event) :
    let n : Node := { context := c, metrics, links }
    (∀ gnb ids pdu, .radio (.toLeg gnb ids pdu) ∈ (run es n).links.offered →
      ∃ (r : Ngap.Request) (ids' : Ngap.UeIds), pdu = r.octets ids' ∧ r.Made .none ∧
        (r.Framed ↔ r.Made .wire)) ∧
    ((∀ k r o, es[k]? = some (request r) → Routing.Orders (stateAt es n k) r o → o.Within .wire) →
      (∀ k u x, (stateAt es n k).context.ues.get? u = some x → x.Within .wire) →
      ∀ m ∈ (run es n).links.offered, m.Framed) := by
  intro n
  have start : ∀ L, (∀ u x, c.ues.get? u = some x → x.Within L) → n.Composed L := by
    intro L lists
    refine ⟨composed_of_provisioned provisioned silent lists, fun m mem => ?_⟩
    rw [show n.links.offered = [] from nothing] at mem
    cases mem
  constructor
  · intro gnb ids pdu mem
    have any : (run es n).Composed .none :=
      run_composed es (start .none fun _ _ _ => ⟨trivial, trivial⟩)
        (fun _ _ _ _ _ => ⟨fun _ _ => trivial, fun _ _ => trivial⟩) fun _ _ _ _ => ⟨trivial, trivial⟩
    obtain ⟨r, ids', is, made⟩ := any.offered _ mem
    exact ⟨r, ids', is, made, made.framed_iff⟩
  · intro orders lists m mem
    exact ((run_composed es (start .wire (lists 0)) orders lists).offered m mem).framed

/-- The hypotheses are satisfiable: a message of one octet to a UE is handed over in a message that is
well formed. -/
theorem run_framed_rejection :
    (run (rejection [1]) { context := .oneSession }).links.offered ≠ [] ∧
      ∀ m ∈ (run (rejection [1]) { context := .oneSession }).links.offered, m.Framed := by
  refine ⟨by rw [offered_rejection]; exact List.cons_ne_nil _ _, ?_⟩
  refine (run_framed provisioned_oneSession (fun u x known => ?_) {} {} rfl _).2
    (fun k r o at_ ordered => ?_) fun k u x known => (lists_rejection k u x known).1
  · exact (lists_rejection 0 u x known).2
  · match k, at_ with
    | 1, at_ =>
      cases at_
      have order := ordered.2
      rw [Routing.transferOrder_reject [1] (by decide) (by decide)] at order
      cases order
      exact ⟨fun xs is => Option.some.inj is ▸ show 1 ≤ 65525 by decide, nofun⟩

/-- **A message of 65526 octets to a UE is handed over in a message that is not well formed.** -/
theorem not_framed_rejection :
    ¬∀ m ∈ (run (rejection (List.replicate 65526 0)) { context := .oneSession }).links.offered,
      m.Framed := by
  intro law
  rw [offered_rejection] at law
  have fits := Leg.message_framed_iff.1 (law _ List.mem_cons_self)
  rw [List.length_replicate] at fits
  omega

end Event
end Amf
