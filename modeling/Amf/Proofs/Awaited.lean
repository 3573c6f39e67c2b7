import Amf.Proofs.Attended
import Amf.Proofs.Store

/-!
# What a UE is paged for

T3513 runs for a UE only while a transfer is parked for it, as long as no event takes the session of
a parked transfer: the transfer goes with its session then, and the timer runs on. So the pagings of
a run are all for a transfer exactly if no event of the run does that (`Event.awaited_iff`).

| act | timer of the UE | transfer parked for the UE |
| --- | --- | --- |
| `park` | started | put |
| `giveUp`, `connect`, `detach` | stopped | taken |
| `remove` | as before | taken, if it is for the session |
| any other | as before | as before |
-/

namespace Amf

open Context

namespace Context

variable {c₁ c₂ c₃ : Context}

/-- Every UE that is paged has a transfer parked for it. -/
def Awaits (c : Context) : Prop := ∀ u, c.isPaged u = true → c.parked.contains u = true

theorem LeavesPaging.refl (c : Context) : LeavesPaging c c :=
  ⟨fun _ _ hp => hp, fun _ => rfl, fun _ => rfl, rfl⟩

theorem LeavesPaging.trans (first : LeavesPaging c₁ c₂) (second : LeavesPaging c₂ c₃) :
    LeavesPaging c₁ c₃ :=
  ⟨fun u p hp => first.parked u p (second.parked u p hp),
    fun u => (second.paged u).trans (first.paged u),
    fun u => (second.pagingOf u).trans (first.pagingOf u), second.configs.trans first.configs⟩

/-- Before the first event no UE is paged. -/
theorem Fresh.awaits {c : Context} (h : c.Fresh) : c.Awaits := by
  intro u paged
  unfold isPaged at paged
  rw [h.isRunning] at paged
  cases paged

end Context

variable {a : Act} {A : Act → Prop} {n n' : Node}

/-! ## Steps -/

/-- **Every step keeps what is paged awaited**, but one that takes the session of a parked
transfer. -/
theorem Step.awaits (step : Step a n n') (attended : n.context.Attended) (owned : n.context.Owned)
    (spares : ∀ u p, n.context.parked.get? u = some p → a ≠ .remove p.session)
    (awaits : n.context.Awaits) : n'.context.Awaits := by
  intro v paged
  cases a with
  | park u p =>
    obtain ⟨parked, -, -⟩ := step.alters
    rw [parked, Table.contains_insert]
    exact ((step.isPaged_park attended).1 paged).imp_right (awaits v)
  | giveUp u | connect u | detach u =>
    have ends : EndsPaging u n.context n'.context := step.endsPaging (by simp)
    rw [ends.parked, Table.contains_erase]
    exact ((ends.paged v).1 paged).imp_right (awaits v)
  | remove id =>
    rw [(step.leavesPaging rfl attended).paged] at paged
    obtain ⟨p, waits⟩ := Table.contains_iff.1 (awaits v paged)
    obtain ⟨u, psi, key, parked, -⟩ := step.alters
    have other : p.session ≠ id := fun is => spares v p waits (is ▸ rfl)
    unfold Table.contains
    rw [parked, owned.get?_unpark key waits, if_neg other]
    rfl
  | _ =>
    rw [(step.leavesPaging rfl attended).paged] at paged
    rw [(step.alters.of_quiet rfl).parked]
    exact awaits v paged

/-- Acts that leave the parked transfers and the sessions alone keep what is paged awaited. -/
theorem Chain.awaits (chain : Chain (fun a => A a ∧ a.quiet) n n') (attended : n.context.Attended)
    (owned : n.context.Owned) (awaits : n.context.Awaits) :
    n'.context.Attended ∧ n'.context.Owned ∧ n'.context.Awaits := by
  refine chain.keeps (P := fun m => m.context.Attended ∧ m.context.Owned ∧ m.context.Awaits)
    (fun a m m' may step h => ?_) ⟨attended, owned, awaits⟩
  refine ⟨step.attended h.1, step.alters.owned h.2.1, step.awaits h.1 h.2.1 ?_ h.2.2⟩
  rintro u p - rfl
  cases may.2

/-- **An event that changes which sessions there are leaves pagings alone**, as it does nothing else
that touches a parked transfer. -/
theorem Course.leavesPaging (course : Course A n n') (attended : n.context.Attended)
    (altered : ¬n.context.SameSessions n'.context) : LeavesPaging n.context n'.context := by
  have chain : Chain (fun a => a.turnsPaging = false) n n' := by
    have quiet : ∀ a : Act, A a ∧ a.quiet → a.turnsPaging = false := by
      rintro a ⟨-, quiet⟩
      cases a <;> first | rfl | cases quiet
    obtain chain | ⟨a, m, m', -, loud, before, step, after⟩ := course
    · exact chain.mono quiet
    · refine (before.mono quiet).trans ((Chain.of_step ?_ step).trans (after.mono quiet))
      rw [Bool.eq_false_iff]
      intro turns
      refine altered (before.sameStore.sessions.trans (.trans (step.sameSessions ?_)
        after.sameStore.sessions))
      rintro id rfl
      cases turns
  refine (chain.keeps (P := fun m => m.context.Attended ∧ LeavesPaging n.context m.context) ?_
    ⟨attended, .refl _⟩).2
  rintro a m m' leaves step ⟨attended, before⟩
  exact ⟨step.attended attended, before.trans (step.leavesPaging leaves attended)⟩

namespace Event

/-! ## Events -/

variable {e : Event} {u : Nat}

/-- The event takes the session of the transfer that is parked for a UE. -/
def Orphans (e : Event) (n : Node) (u : Nat) : Prop :=
  ∃ p, n.context.parked.get? u = some p ∧ n.context.sessions.contains p.session = true ∧
    (e.handle n).2.context.sessions.contains p.session = false

/-- What an event hands to the transports. -/
def handed (e : Event) (n : Node) : List Outbound :=
  (e.handle n).2.links.offered.drop n.links.offered.length

theorem handed_eq {ms : List Outbound} (h : (e.handle n).2.links.offered = n.links.offered ++ ms) :
    e.handed n = ms := by
  unfold handed
  rw [h, List.drop_left]

/-- **An event that takes the session of no parked transfer keeps what is paged awaited.** -/
theorem handle_awaits (attended : n.context.Attended) (owned : n.context.Owned)
    (awaits : n.context.Awaits) (spares : ∀ u, ¬e.Orphans n u) : (e.handle n).2.context.Awaits := by
  obtain chain | ⟨a, m, m', -, -, before, step, after⟩ := e.handle_course n
  · exact (chain.awaits attended owned awaits).2.2
  · obtain ⟨attended', owned', awaits'⟩ := before.awaits attended owned awaits
    refine (after.awaits (step.attended attended') (step.alters.owned owned')
      (step.awaits attended' owned' ?_ awaits')).2.2
    rintro u p parked rfl
    rw [before.sameStore.parked] at parked
    refine spares u ⟨p, parked, ?_, ?_⟩
    · rw [contains_sessions, owned u p parked]
      rfl
    · obtain ⟨-, -, -, -, left⟩ := step.alters
      rw [contains_sessions, after.sameStore.sessions.key, left, if_pos rfl]
      rfl

/-- **An event that takes the session of a parked transfer leaves its UE paged for nothing.** -/
theorem not_awaits_of_orphans (attended : n.context.Attended) (owned : n.context.Owned)
    (orphans : e.Orphans n u) : ¬(e.handle n).2.context.Awaits := by
  obtain ⟨p, parked, there, gone⟩ := orphans
  have course := e.handle_course n
  have owned' : (e.handle n).2.context.Owned :=
    course.chain.keeps (P := fun m => m.context.Owned) (fun _ _ _ _ step => step.alters.owned) owned
  have leaves : LeavesPaging n.context (e.handle n).2.context := by
    refine course.leavesPaging attended fun same => ?_
    rw [contains_sessions, same.key, ← contains_sessions, there] at gone
    cases gone
  intro awaits
  have paged : (e.handle n).2.context.isPaged u = true := by
    rw [leaves.paged]
    exact (attended.parked u p parked).2
  obtain ⟨q, waits⟩ := Table.contains_iff.1 (awaits u paged)
  have same := leaves.parked u q waits
  rw [parked] at same
  cases same
  rw [contains_sessions, owned' u p waits] at gone
  cases gone

/-- **Only an expiry of its T3513 hands over a paging message for a UE**, requests apart. -/
theorem exists_timer_of_paging {pdu : Octets} (other : ¬e.IsRequest)
    (mem : .radio (.paging u pdu) ∈ e.handed n) : ∃ g, e = timer .t3513 u g := by
  have hands : ∃ ms, (e.handle n).2.links.offered = n.links.offered ++ ms ∧
      ∀ v pdu, .radio (.paging v pdu) ∈ ms → ∃ g, e = timer .t3513 v g := by
    refine (e.handle_course n).chain.keeps (P := fun m => ∃ ms,
      m.links.offered = n.links.offered ++ ms ∧
        ∀ v pdu, .radio (.paging v pdu) ∈ ms → ∃ g, e = timer .t3513 v g) ?_
      ⟨[], (List.append_nil _).symm, fun _ _ h => absurd h List.not_mem_nil⟩
    rintro a m m' may step ⟨ms, offered, all⟩
    obtain ⟨ms', offered', may'⟩ := step.offers
    refine ⟨ms ++ ms', by rw [offered', offered, List.append_assoc], fun v pdu mem => ?_⟩
    obtain mem | mem := List.mem_append.1 mem
    · exact all v pdu mem
    · obtain ⟨p, rfl⟩ | rfl | rfl := may' _ mem
      · obtain ⟨r, -, ⟨is, -⟩, -⟩ := may
        exact absurd ⟨r, is⟩ other
      · exact absurd may other
      · exact may
  obtain ⟨ms, offered, all⟩ := hands
  rw [handed_eq offered] at mem
  exact all u pdu mem

/-- A UE whose paging message is repeated is paged. -/
theorem isPaged_of_paging {pdu : Octets} (other : ¬e.IsRequest)
    (mem : .radio (.paging u pdu) ∈ e.handed n) : n.context.isPaged u = true := by
  obtain ⟨g, rfl⟩ := exists_timer_of_paging other mem
  obtain ⟨-, same⟩ | ⟨_, _, expiry, -⟩ | ⟨_, expiry, -⟩ := Paging.expired_cases u g n
  · have stale : ((timer .t3513 u g).handle n).2 = n := same
    unfold handed at mem
    rw [stale, List.drop_length] at mem
    cases mem
  · exact Timers.isRunning_of_expire expiry
  · exact Timers.isRunning_of_expire expiry

/-! ## Runs -/

/-- **No UE is paged for nothing** in a run. -/
structure Awaited (es : List Event) (n : Node) : Prop where
  /-- As long as T3513 runs for a UE, a transfer is parked for it. -/
  paged : ∀ k u, (stateAt es n k).context.timers.isRunning .t3513 u = true →
    (stateAt es n k).context.parked.contains u = true
  /-- A paging message is repeated only for a UE that a transfer is parked for. -/
  repeated : ∀ k e u pdu, es[k]? = some e → ¬e.IsRequest →
    .radio (.paging u pdu) ∈ e.handed (stateAt es n k) →
      (stateAt es n k).context.parked.contains u = true

/-- **No UE is paged for nothing unless the session of a parked transfer is taken, and only then.**
In a run from a context that was set up, whatever the transports refuse, a transfer is parked for
every UE for which T3513 runs, and so for every UE whose paging message is repeated, exactly if no
event of the run takes the session of a transfer that is parked. -/
theorem awaited_iff {config : Config} {c : Context} (provisioned : Provisioned config c)
    (metrics : Metrics) (links : Links) (es : List Event) :
    let n : Node := { context := c, metrics, links }
    Awaited es n ↔
      ∀ (k : Nat) (e : Event), es[k]? = some e → ∀ u, ¬e.Orphans (stateAt es n k) u := by
  intro n
  have attended : ∀ k, (stateAt es n k).context.Attended := fun k =>
    run_keeps (P := fun n => n.context.Attended) (fun _ _ _ step => step.attended) _
      provisioned.fresh.attended
  have owned : ∀ k, (stateAt es n k).context.Owned := fun k =>
    run_keeps (P := fun n => n.context.Owned) (fun _ _ _ step => step.alters.owned) _
      provisioned.fresh.owned
  constructor
  · intro awaited k e at_ u orphans
    refine not_awaits_of_orphans (attended k) (owned k) orphans ?_
    rw [← stateAt_succ at_]
    exact awaited.paged (k + 1)
  · intro spares
    have awaits : ∀ k, (stateAt es n k).context.Awaits := by
      intro k
      induction k with
      | zero => exact provisioned.fresh.awaits
      | succ k ih =>
        cases at_ : es[k]? with
        | none =>
          rw [stateAt_succ_of_none at_]
          exact ih
        | some e =>
          rw [stateAt_succ at_]
          exact handle_awaits (attended k) (owned k) ih (spares k e at_)
    exact ⟨awaits, fun k e u pdu _ other mem => awaits k u (isPaged_of_paging other mem)⟩

end Event

/-- A request to reject session 5 of the UE. -/
def Request.reject : Request :=
  { method := "POST"
    service := Api.communication
    components := [Api.ueContexts, "imsi-1", Api.messages]
    body := some (Document.toJson ({
      psi := some 5
      n1 := some { messageClass := .sm, content := some { contentId := "n1" } } } :
        Document.TransferBody))
    parts := [("n1", [1])] }

namespace Event

/-- The hypothesis is satisfiable. -/
theorem awaited_iff_oneSession :
    let n : Node := { context := .oneSession }
    let es := [request .setUp, request .reject, timer .t3513 1 1]
    Awaited es n ↔ ∀ (k : Nat) (e : Event), es[k]? = some e → ∀ u, ¬e.Orphans (stateAt es n k) u :=
  awaited_iff provisioned_oneSession {} {} [request .setUp, request .reject, timer .t3513 1 1]

set_option maxRecDepth 4000 in
/-- The session of a parked transfer is rejected, and the paging message is repeated for nothing. -/
theorem not_awaited_rejected :
    ¬Awaited [request .setUp, request .reject, timer .t3513 1 1] { context := .oneSession } := by
  intro awaited
  have parked := awaited.repeated 2 (timer .t3513 1 1) 1
    (((run [request .setUp] { context := .oneSession }).context.pagingOf 1).join.getD [])
    rfl nofun (by decide)
  exact absurd parked (by decide)

end Event
end Amf
