import Amf.Proofs.Course
import Amf.Proofs.Provisioned
import Amf.Proofs.Register

/-!
# Rejected requests

A request that is malformed, or asks for what is not there or not served, has no effect at all: if it
is answered with a status of its own fault or broken off, then the context, the metrics and the
transports are as before (`Routing.handle_of_rejected`). What fails later, when something was done
already, fails because signalling could not be sent (`Procedure.Signals`), and that is not reported as
a fault of the request.

| procedure | rejects | after that, fails |
| --- | --- | --- |
| transfer | before the UE is told, paged or held back | for signalling |
| relocation | while it reads | |
| outcome of a relocation | before sessions are released | for signalling |
| status of a session | before it is recorded | |
| deregistration | before the UE is asked or marked | for signalling |
| subscriber data | before a policy is committed | for signalling |
-/

namespace Amf

/-- The fault is one of the request, and not one of signalling that could not be sent. -/
def Fault.Rejects : Fault → Prop
  | .send _ => False
  | _ => True

namespace Procedure

variable {α β : Type} {p : Procedure α} {f : α → Procedure β} {n : Node}

/-- The procedure fails for signalling only. -/
def Signals (p : Procedure α) (n : Node) : Prop :=
  ∀ fault, (p.exec n).1 = .error fault → ¬fault.Rejects

/-- The procedure does not reject any more once it has changed the state. -/
def Cautious (p : Procedure α) (n : Node) : Prop :=
  ∀ fault, (p.exec n).1 = .error fault → fault.Rejects → (p.exec n).2 = n

theorem Signals.cautious (h : Signals p n) : Cautious p n :=
  fun fault failed rejects => absurd rejects (h fault failed)

theorem signals_of_ok {a : α} (done : (p.exec n).1 = .ok a) : Signals p n := by
  intro fault failed
  rw [done] at failed
  cases failed

theorem signals_need {a : Option α} {why : SendError} : Signals (need a (.send why)) n := by
  cases a with
  | some a => exact signals_of_ok rfl
  | none =>
    intro fault failed
    cases failed
    exact id

theorem Signals.bind (first : Signals p n)
    (rest : ∀ a, (p.exec n).1 = .ok a → Signals (f a) (p.exec n).2) : Signals (p >>= f) n := by
  intro fault failed
  rw [exec_bind] at failed
  unfold Signals at first
  generalize p.exec n = outcome at first rest failed
  obtain ⟨_ | a, m⟩ := outcome
  · cases failed
    exact first fault rfl
  · exact rest a rfl fault failed

/-- What is read before does not matter. -/
theorem Cautious.read (reads : Reads p) (rest : ∀ a, (p.exec n).1 = .ok a → Cautious (f a) n) :
    Cautious (p >>= f) n := by
  intro fault failed rejects
  rw [reads.exec_bind] at failed ⊢
  cases outcome : (p.exec n).1 with
  | error => rfl
  | ok a =>
    rw [outcome] at failed
    exact rest a outcome fault failed rejects

/-- Once it is clear that a request is not rejected, only signalling fails. -/
theorem Cautious.bind (first : Cautious p n)
    (rest : ∀ a, (p.exec n).1 = .ok a → Signals (f a) (p.exec n).2) : Cautious (p >>= f) n := by
  intro fault failed rejects
  rw [exec_bind] at failed ⊢
  unfold Cautious at first
  generalize p.exec n = outcome at first rest failed ⊢
  obtain ⟨_ | a, m⟩ := outcome
  · cases failed
    exact first fault rfl rejects
  · exact absurd rejects (rest a rfl fault failed)

theorem signals_session {id : Nat} : Signals (session id) n := signals_need

theorem signals_ue {id : Nat} : Signals (ue id) n := signals_need

theorem signals_legOf {id : Nat} : Signals (legOf id) n := signals_need

theorem signals_emit {m : Outbound} : Signals (emit m) n := by
  intro fault failed
  rw [exec_emit] at failed
  unfold verdict at failed
  split at failed
  · cases failed
  · cases failed
    exact id

end Procedure

open Procedure

variable {n : Node}

namespace Delivery

theorem signals_setup {id : Nat} {nas : Option Octets} {n2 : Octets} :
    Signals (Delivery.setup id nas n2) n := by
  refine .bind signals_session fun s _ => .bind signals_ue fun u _ => .bind signals_legOf fun l _ => ?_
  refine .bind (signals_of_ok rfl) fun c _ => .bind (signals_of_ok rfl) fun _ _ => ?_
  split
  · exact signals_emit
  · exact signals_of_ok rfl

theorem signals_commandOrHold {u id : Nat} {c : HeldCommand} :
    Signals (Delivery.commandOrHold u id c) n := by
  refine .bind (signals_of_ok rfl) fun _ _ => ?_
  split
  · exact .bind signals_session fun s _ => .bind signals_legOf fun l _ => signals_emit
  · exact signals_of_ok rfl

theorem signals_reject {id : Nat} {n1 : Octets} : Signals (Delivery.reject id n1) n := by
  refine .bind signals_session fun s _ => .bind (signals_of_ok rfl) fun c _ => ?_
  split
  · exact signals_of_ok rfl
  · exact .bind signals_emit fun _ _ => signals_of_ok rfl

theorem signals_deregister {u : Nat} {reregister : Bool} {cause : Option Nas.Cause} :
    Signals (Delivery.deregister u reregister cause) n :=
  .bind signals_ue fun _ _ => .bind signals_legOf fun _ _ => .bind signals_emit fun _ _ =>
    signals_of_ok rfl

end Delivery

/-! ## Transfers -/

namespace Paging

theorem cautious_resolve {uri : Option String} : Cautious (resolve uri) n := by
  obtain ⟨fault, failed⟩ | ⟨clients, target, added, done, -⟩ := resolve_cases uri n
  · intro _ _ _
    rw [failed]
  · exact Signals.cautious (signals_of_ok (congrArg Prod.fst done))

/-- Once its target is resolved, a paging fails only if its message is refused. -/
theorem cautious_start {id : Nat} {payload : Payload} {uri : Option String} :
    Cautious (start id payload uri) n := by
  refine .read (reads_session _) fun s _ => .read (reads_ue _) fun u _ => ?_
  refine .read (reads_need _ _) fun guti _ => cautious_resolve.bind fun resolved _ => ?_
  refine .bind (signals_of_ok rfl) fun c _ => .bind ?_ fun _ _ => ?_
  · intro fault failed
    rw [exec_tryCatch, exec_emit] at failed
    unfold verdict at failed
    split at failed
    · cases failed
    · rename_i refused
      split at refused
      · cases refused
      · cases refused
        cases failed
        exact fun rejects => rejects
  · exact .bind (signals_of_ok rfl) fun _ _ => signals_of_ok rfl

end Paging

namespace Transfer

variable {o : Order} {s : Session}

theorem cautious_park {payload : Payload} : Cautious (park o payload) n :=
  Paging.cautious_start.bind fun _ _ => signals_of_ok rfl

/-- **A transfer is rejected before anything is done for it.** -/
theorem cautious_run : Cautious (run o) n := by
  refine .read reads_context fun c _ => .read (reads_need _ _) fun s _ => ?_
  refine .read reads_context fun c _ => .read (reads_need _ _) fun _ _ => ?_
  split
  · refine .read (reads_need _ _) fun n2 _ => .read reads_context fun c _ => ?_
    split
    · exact (Signals.bind Delivery.signals_setup fun _ _ => signals_of_ok rfl).cautious
    · exact .read (reads_need _ _) fun _ _ => cautious_park
  · refine .read (reads_need _ _) fun n1 _ => .read (reads_need _ _) fun n2 _ => ?_
    refine .read reads_context fun c _ => ?_
    split
    · exact (Signals.bind Delivery.signals_commandOrHold fun _ _ => signals_of_ok rfl).cautious
    · exact cautious_park
  · refine .read (reads_need _ _) fun n2 _ => .read reads_context fun c _ => ?_
    split
    · exact (Signals.bind Delivery.signals_commandOrHold fun _ _ => signals_of_ok rfl).cautious
    · split
      · exact (signals_of_ok rfl).cautious
      · exact cautious_park
  · refine .read (reads_need _ _) fun n1 _ => Signals.cautious ?_
    exact .bind Delivery.signals_reject fun _ _ => .bind (signals_of_ok rfl) fun _ _ =>
      .bind (signals_of_ok rfl) fun _ _ => signals_of_ok rfl
  · exact fun _ _ _ => rfl

/-- **A transfer that succeeds is on its way, is skipped, or its UE is paged.** -/
theorem yields_run : Yields (run o) fun x =>
    x = .initiated ∨ x = .skipped ∨ ∃ location, x = .paging location := by
  have park : ∀ payload, Yields (park o payload) fun x =>
      x = .initiated ∨ x = .skipped ∨ ∃ location, x = .paging location :=
    fun _ => yields_bind fun location => yields_pure (.inr (.inr ⟨location, rfl⟩))
  refine yields_bind fun _ => yields_bind fun s => yields_bind fun _ => yields_bind fun _ => ?_
  split
  · refine yields_bind fun _ => yields_bind fun _ => ?_
    split
    · exact yields_bind fun _ => yields_pure (.inl rfl)
    · exact yields_bind fun _ => park _
  · refine yields_bind fun _ => yields_bind fun _ => yields_bind fun _ => ?_
    split
    · exact yields_bind fun _ => yields_pure (.inl rfl)
    · exact park _
  · refine yields_bind fun _ => yields_bind fun _ => ?_
    split
    · exact yields_bind fun _ => yields_pure (.inl rfl)
    · split
      · exact yields_pure (.inr (.inl rfl))
      · exact park _
  · exact yields_bind fun _ => yields_bind fun _ => yields_bind fun _ => yields_bind fun _ =>
      yields_pure (.inl rfl)
  · exact yields_throw

end Transfer

/-! ## Notifications -/

namespace Deregistration

variable {u : Nat}

theorem signals_unsubscribe {x : Ue} {state : Option DeregistrationState} :
    Signals (unsubscribe x state) n := by
  unfold unsubscribe
  split
  · exact signals_of_ok rfl
  · exact .bind signals_emit fun _ _ => signals_of_ok rfl

/-- A UE that is known is marked and its subscription ended, unless that cannot be signalled. -/
theorem signals_mark {state : DeregistrationState} (known : n.context.ues.contains u = true) :
    Signals (mark u state) n := by
  obtain ⟨x, there⟩ := Table.contains_iff.1 known
  refine .bind (signals_of_ok rfl) fun _ _ => .bind (signals_of_ok rfl) fun c is => ?_
  cases is
  refine .bind (signals_of_ok (a := { x with deregistration := some state }) ?_) fun x _ =>
    .bind signals_unsubscribe fun _ _ => signals_of_ok rfl
  rw [exec_need_eq_ok]
  exact Table.get?_modify_of_some there

/-- A UE that is known stays known when it is asked to deregister, and is marked then. -/
theorem signals_deregister_mark {reregister : Bool} {cause : Option Nas.Cause}
    {state : DeregistrationState} {β : Type} {b : β} (known : n.context.ues.contains u = true) :
    Signals (do Delivery.deregister u reregister cause; mark u state; return b) n := by
  refine .bind Delivery.signals_deregister fun _ _ => .bind (signals_mark ?_) fun _ _ =>
    signals_of_ok rfl
  have chain : Chain (fun _ => True) n ((Delivery.deregister u reregister cause).exec n).2 :=
    Delivery.deregister_chain (fun _ => trivial) trivial
  rwa [chain.sameRegister.contains_ues]

/-- **A deregistration is rejected before the UE is asked or marked.** -/
theorem cautious_notify {d : Document.Deregistration} : Cautious (notify u d) n := by
  refine .read reads_context fun c is => .read (reads_need _ _) fun x there => ?_
  cases is
  rw [exec_need_eq_ok] at there
  have known : n.context.ues.contains u = true := Table.contains_iff.2 ⟨x, there⟩
  refine .read (reads_need _ _) fun reason _ => ?_
  split
  · exact fun _ _ _ => rfl
  · refine .read reads_context fun c _ => ?_
    split
    · exact (signals_deregister_mark known).cautious
    · exact (Signals.bind (signals_mark known) fun _ _ => signals_of_ok rfl).cautious

end Deregistration

namespace Subscription

variable {c : Context} {w w' : Working} {u : Nat}

theorem mem_put {p : Policy} {e : Nat × Policy} : ∀ {w : Working}, e ∈ put u p w → e.1 = u ∨ e ∈ w
  | [], mem => .inl (congrArg Prod.fst (List.mem_singleton.1 mem))
  | d :: r, mem => by
    unfold put at mem
    split at mem
    · obtain rfl | old := List.mem_cons.1 mem
      · exact .inl rfl
      · exact .inr (List.mem_cons_of_mem _ old)
    · obtain rfl | later := List.mem_cons.1 mem
      · exact .inr List.mem_cons_self
      · exact (mem_put later).imp_right (List.mem_cons_of_mem _)

/-- An item adds a policy only for a UE that is known. -/
theorem known_of_applyItem {item : Document.NotifyItem} (known : ∀ e ∈ w, c.ues.contains e.1 = true)
    (applied : applyItem? c w item = .ok w') : ∀ e ∈ w', c.ues.contains e.1 = true := by
  unfold applyItem? at applied
  simp only [bind, Except.bind] at applied
  split at applied
  · cases applied
  · rename_i named _
    obtain ⟨supi, u⟩ := named
    split at applied
    · cases applied
    · rename_i p has
      split at applied
      · cases applied
      · cases applied
        intro e mem
        obtain rfl | old := mem_put mem
        · unfold current? at has
          simp only at has
          split at has
          · rename_i q working
            exact known (e.1, q) (mem_of_valueOf working)
          · split at has
            · rename_i x there
              exact Table.contains_iff.2 ⟨x, there⟩
            · cases has
        · exact known e old

theorem known_of_foldlM : ∀ {items : List Document.NotifyItem} {w w' : Working},
    (∀ e ∈ w, c.ues.contains e.1 = true) → items.foldlM (applyItem? c) w = .ok w' →
      ∀ e ∈ w', c.ues.contains e.1 = true
  | [], _, _, known, applied => by
    cases applied
    exact known
  | item :: items, w, w', known, applied => by
    rw [List.foldlM_cons] at applied
    cases first : applyItem? c w item with
    | error why =>
      rw [first] at applied
      cases applied
    | ok w₁ =>
      rw [first] at applied
      exact known_of_foldlM (known_of_applyItem known first) applied

/-- **The UEs that a notification names are known**, if its changes apply. -/
theorem known_of_working {m : Document.Modification} (applied : working? c m = .ok w) :
    ∀ e ∈ w, c.ues.contains e.1 = true :=
  known_of_foldlM (w := []) (fun _ mem => nomatch mem) applied

theorem contains_ues_commit : ∀ {w : Working} {n : Node},
    (n.change (commit · w)).context.ues.contains u = n.context.ues.contains u := by
  intro w n
  have chain : Chain (fun _ => True) n (n.change (commit · w)) := commit_chain (fun _ => trivial) w n
  exact chain.sameRegister.contains_ues u

theorem signals_follow {changed : Bool} (known : n.context.ues.contains u = true) :
    Signals (follow u changed) n := by
  obtain ⟨x, there⟩ := Table.contains_iff.1 known
  refine .bind (signals_of_ok rfl) fun c is => ?_
  cases is
  refine .bind (signals_of_ok (exec_need_eq_ok.2 there)) fun x _ => ?_
  rw [there]
  split
  · exact .bind (signals_of_ok rfl) fun _ _ => signals_of_ok rfl
  · split
    · exact Deregistration.signals_deregister_mark known
    · split
      · exact .bind signals_emit fun _ _ => signals_of_ok rfl
      · exact signals_of_ok rfl

/-- Of what was done for UEs that are known, only signalling may have failed. -/
theorem signals_followAll : ∀ {w : Working} {n : Node}, (∀ e ∈ w, n.context.ues.contains e.1 = true) →
    ∃ outcomes, ((followAll w).exec n).1 = .ok outcomes ∧
      ∀ x ∈ outcomes, ∀ fault, x.2 = .error fault → ¬fault.Rejects
  | [], _, _ => ⟨[], rfl, fun _ mem => nomatch mem⟩
  | (u, p) :: w, n, known => by
    have chain : Chain (fun _ => True) n ((follow u p.ambrChanged).exec n).2 :=
      follow_chain (fun _ => trivial) trivial trivial fun _ => trivial
    obtain ⟨outcomes, done, harmless⟩ := signals_followAll (w := w)
      (n := ((follow u p.ambrChanged).exec n).2) fun e mem => by
        rw [chain.sameRegister.contains_ues]
        exact known e (List.mem_cons_of_mem _ mem)
    refine ⟨(u, ((follow u p.ambrChanged).exec n).1) :: outcomes, ?_, fun x mem fault failed => ?_⟩
    · unfold followAll
      rw [exec_bind_of_ok (exec_observe _ n), exec_bind]
      generalize (followAll w).exec _ = result at done
      obtain ⟨outcome, m⟩ := result
      subst done
      rfl
    · obtain rfl | later := List.mem_cons.1 mem
      · exact signals_follow (known _ List.mem_cons_self) fault failed
      · exact harmless x later fault failed

/-- A notification fails with the fault of one of its UEs. -/
theorem exists_of_actions {fault : Fault} : ∀ {outcomes : List (Nat × Except Fault Action)},
    actions? outcomes = .error fault → ∃ x ∈ outcomes, x.2 = .error fault
  | [], failed => nomatch failed
  | (u, .error why) :: _, failed => by
    cases failed
    exact ⟨_, List.mem_cons_self, rfl⟩
  | (u, .ok a) :: outcomes, failed => by
    unfold actions? at failed
    rw [List.mapM_cons] at failed
    cases later : actions? outcomes with
    | error why =>
      unfold actions? at later
      rw [later] at failed
      cases failed
      obtain ⟨x, mem, is⟩ := exists_of_actions later
      exact ⟨x, List.mem_cons_of_mem _ mem, is⟩
    | ok actions =>
      unfold actions? at later
      rw [later] at failed
      cases failed

/-- **A notification of changes is rejected before a policy is committed.** -/
theorem cautious_notify {m : Document.Modification} : Cautious (notify m) n := by
  refine .read reads_context fun c is => ?_
  cases is
  split
  · exact fun _ _ _ => rfl
  · rename_i w applied
    refine Signals.cautious (.bind (signals_of_ok rfl) fun _ _ => ?_)
    obtain ⟨outcomes, done, harmless⟩ := signals_followAll (w := w) (n := n.change (commit · w))
      fun e mem => by
        rw [contains_ues_commit]
        exact known_of_working applied e mem
    refine .bind (signals_of_ok done) fun x is => ?_
    rw [exec_change] at is
    cases done.symm.trans is
    split
    · exact signals_of_ok rfl
    · rename_i fault failed
      obtain ⟨x, mem, is⟩ := exists_of_actions failed
      intro _ same
      cases same
      exact harmless x mem fault is

end Subscription

namespace Relocation

theorem signals_releaseAll {u : Nat} : ∀ {psis : List UInt8} {n : Node}, Signals (releaseAll u psis) n
  | [], _ => signals_of_ok rfl
  | psi :: psis, n => by
    have others : ∀ (released : Bool) (m : Node),
        Signals (do let others ← releaseAll u psis; return released && others) m :=
      fun _ _ => .bind signals_releaseAll fun _ _ => signals_of_ok rfl
    refine .bind (signals_of_ok rfl) fun c _ => ?_
    simp only
    split
    · refine .bind ?_ fun _ _ => others _ _
      unfold releaseInSmf
      split
      · exact signals_of_ok rfl
      · exact .bind signals_emit fun _ _ => signals_of_ok rfl
    · exact .bind (signals_of_ok rfl) fun _ _ => others _ _

/-- **The report of an outcome is rejected before a session is released.** -/
theorem cautious_update {id : Option String} {r : Document.StatusUpdate} : Cautious (update id r) n := by
  refine .read (reads_findUe _) fun u _ => ?_
  split
  · exact fun _ _ _ => rfl
  · exact fun _ _ _ => rfl
  · refine Signals.cautious (.bind signals_releaseAll fun complete _ =>
      .bind (signals_of_ok rfl) fun c _ => ?_)
    split
    · exact .bind (signals_of_ok rfl) fun _ _ => .bind (signals_of_ok rfl) fun _ _ => signals_of_ok rfl
    · exact .bind (signals_of_ok rfl) fun _ _ => signals_of_ok rfl

end Relocation

/-! ## Requests -/

namespace Routing

/-- The request is answered with a fault of its own, or broken off. -/
def Reply.Rejected : Reply → Prop
  | .answered r => 400 ≤ r.status.code ∧ r.status.code < 500
  | .brokenOff _ => True

variable {r : Request}

theorem cautious_sessionStatus : Cautious (sessionStatus r) n := by
  refine .read (reads_need _ _) fun psi _ => .read (constant_parse _ r _).reads fun b _ => ?_
  refine .read (reads_need _ _) fun info _ => .read (reads_findSupi _) fun u _ => ?_
  refine .read reads_context fun c _ => .read (reads_need _ _) fun id _ => Signals.cautious ?_
  refine .bind ?_ fun _ _ => signals_of_ok rfl
  refine .bind (signals_of_ok rfl) fun c _ => ?_
  split
  · exact signals_of_ok rfl
  · split
    · exact signals_of_ok rfl
    · exact signals_of_ok rfl

/-- **A request is not rejected any more once it has changed the state.** -/
theorem cautious_route : Cautious (route r) n := by
  intro fault failed rejects
  obtain ⟨other, is⟩ | ⟨-, is⟩ | ⟨-, is⟩ | ⟨-, handler, notifies, is⟩ := route_cases r n
  · rw [is]
  · rw [is] at failed ⊢
    exact Cautious.read (reads_transferOrder r) (fun o _ =>
      Transfer.cautious_run.bind fun _ _ => signals_of_ok rfl) fault failed rejects
  · rw [is] at failed ⊢
    exact Cautious.read (constant_parse _ r _).reads (fun b _ =>
      Relocation.cautious_update.bind fun _ _ => signals_of_ok rfl) fault failed rejects
  · rw [is] at failed ⊢
    cases notifies
    · exact Reads.bind (constant_parse _ r _).reads (fun b => (Relocation.reads_request _ b).bind
        fun _ => reads_pure _) n
    · exact cautious_sessionStatus fault failed rejects
    · exact Cautious.read (constant_parse _ r _).reads (fun b _ => .read (reads_findSupi _) fun u _ =>
        Deregistration.cautious_notify.bind fun _ _ => signals_of_ok rfl) fault failed rejects
    · exact Cautious.read (constant_parse _ r _).reads (fun b _ =>
        Subscription.cautious_notify.bind fun _ _ => signals_of_ok rfl) fault failed rejects

/-- The response to a transfer whose UE is paged. -/
def pagingResponse (location : String) : Response where
  status := .accepted
  location := some location
  body := some (Document.toJson ({ cause := .attemptingToReachUe } : Document.TransferAnswer))

/-- **A request that succeeds pages a UE and is answered so**, or is answered as dealt with, without
a location. -/
theorem response_of_route {response : Response} (done : ((route r).exec n).1 = .ok response) :
    (∃ location, response = pagingResponse location) ∨
    response.location = none ∧ (response.status = .ok ∨ response.status = .noContent) := by
  let Plain : Response → Prop := fun x =>
    x.location = none ∧ (x.status = .ok ∨ x.status = .noContent)
  obtain ⟨fault, is⟩ | ⟨-, is⟩ | ⟨-, is⟩ | ⟨-, handler, notifies, is⟩ := route_cases r n
  · rw [is] at done
    cases done
  · have answer : Yields (transfer r) fun x => (∃ location, x = pagingResponse location) ∨ Plain x := by
      refine yields_bind fun o => Transfer.yields_run.bind fun outcome became => yields_pure ?_
      obtain rfl | rfl | ⟨location, rfl⟩ := became
      · exact .inr ⟨rfl, .inl rfl⟩
      · exact .inr ⟨rfl, .inl rfl⟩
      · exact .inl ⟨location, rfl⟩
    exact answer n response (is ▸ done)
  · have plain : Yields (relocationUpdate r) Plain :=
      yields_bind fun _ => yields_bind fun _ => yields_pure ⟨rfl, .inl rfl⟩
    exact .inr (plain n response (is ▸ done))
  · have plain : Yields (handler r) Plain := by
      cases notifies
      · exact yields_bind fun _ => yields_bind fun _ => yields_pure ⟨rfl, .inl rfl⟩
      · exact yields_bind fun _ => yields_bind fun _ => yields_bind fun _ => yields_bind fun _ =>
          yields_bind fun _ => yields_bind fun _ => yields_bind fun _ =>
            yields_pure ⟨rfl, .inr rfl⟩
      · exact yields_bind fun _ => yields_bind fun _ => yields_bind fun _ =>
          yields_pure ⟨rfl, .inr rfl⟩
      · exact yields_bind fun _ => yields_bind fun _ => yields_pure ⟨rfl, .inr rfl⟩
    exact .inr (plain n response (is ▸ done))

/-- A request that succeeds is not answered as if it had failed. -/
theorem code_lt_of_route {response : Response} (done : ((route r).exec n).1 = .ok response) :
    response.status.code < 400 := by
  obtain ⟨location, rfl⟩ | ⟨-, is | is⟩ := response_of_route done
  · show Status.accepted.code < 400
    decide
  · rw [is]
    decide
  · rw [is]
    decide

theorem rejects_of_rejected {fault : Fault} (failed : ((route r).exec n).1 = .error fault)
    (rejected : (handle r n).1.Rejected) : fault.Rejects := by
  unfold handle at rejected
  generalize (route r).exec n = result at failed rejected
  obtain ⟨outcome, m⟩ := result
  subst failed
  cases fault with
  | send why => exact absurd rejected.2 (show ¬Status.internalError.code < 500 by decide)
  | _ => trivial

/-- **A rejected request has no effect.** If it is answered with a fault of its own, or broken off at
an information element that no procedure handles, then the context, the metrics and the transports are
exactly as before. -/
theorem handle_of_rejected (r : Request) (n : Node) (rejected : (handle r n).1.Rejected) :
    (handle r n).2 = n := by
  rw [handle_snd]
  cases outcome : ((route r).exec n).1 with
  | error fault => exact cautious_route fault outcome (rejects_of_rejected outcome rejected)
  | ok response =>
    rw [handle_of_ok outcome] at rejected
    exact absurd rejected.1 (UInt16.not_le.2 (code_lt_of_route outcome))

end Routing

/-- A notification that restricts the access of a UE, and then that of one that is not known. -/
def Request.restrict : Request :=
  let change : Document.ChangeItem :=
    { op := .add, path := some "/ratRestrictions", newValue := some (.arr [.str "NR"]) }
  { method := "POST"
    service := Api.callback
    components := ["imsi-1", Api.subscriberData]
    body := some (Document.toJson ({
      items := [⟨"imsi-1/am-data", [change]⟩, ⟨"imsi-2/am-data", [change]⟩] } :
        Document.Modification)) }

namespace Routing

/-- The hypothesis is satisfiable: the second UE is not found, and the first keeps its policy. -/
theorem handle_of_rejected_restrict :
    let n : Node := { context := .oneSession }
    (handle .restrict n).1.Rejected ∧ (handle .restrict n).2 = n := by
  have rejected : (handle .restrict { context := .oneSession }).1.Rejected := by
    show 400 ≤ _ ∧ _ < 500
    decide
  exact ⟨rejected, handle_of_rejected .restrict _ rejected⟩

end Routing
end Amf
