import Amf.Proofs.Accounts
import Amf.Proofs.Isolation
import Amf.Proofs.Lossless
import Amf.Proofs.Rejected

/-!
# Responses

A response says what became of its request: it has a location exactly if it is answered as accepted,
which it is exactly if it parked a transfer, and the location is that of the transfer; and a fault is
reported in a body that says its status (`Routing.handle_consistent`). A procedure ends in a way that
fixes the response (`Routing.answered_cases`), and a request that does not park pages nobody
(`Event.pagingRequests_of_refused`).

| the request | status | location | body |
| --- | --- | --- | --- |
| is dealt with | 200, 204 | none | the answer, or none |
| parks a transfer | 202 | of the transfer | `ATTEMPTING_TO_REACH_UE` |
| fails | 400, 404, 405, 500 | none | problem details |
-/

namespace Amf

/-! ## What is parked -/

/-- A transfer is parked for a UE, which is paged, from one state to another. -/
def Node.Parks (n n' : Node) (u : Nat) (p : Parked) : Prop :=
  ∃ clients pdu, n' = n.park clients u pdu p

namespace Node

variable {n n' : Node} {u : Nat} {p : Parked}

theorem parks_of_step (step : Step (.park u p) n n') : n.Parks n' u p := by
  cases step with
  | park => exact ⟨_, _, rfl⟩

theorem Parks.get?_parked (h : n.Parks n' u p) : n'.context.parked.get? u = some p := by
  obtain ⟨clients, pdu, rfl⟩ := h
  exact Table.get?_insert_self _ u p

/-- Where a transfer is parked, a paging is counted. -/
theorem Parks.pagingRequests (h : n.Parks n' u p) :
    n'.metrics.pagingRequests ≠ n.metrics.pagingRequests := by
  obtain ⟨clients, pdu, rfl⟩ := h
  show n.metrics.pagingRequests + 1 ≠ n.metrics.pagingRequests
  simp

end Node

theorem Chain.pagingRequests {A : Act → Prop} {n n' : Node} (chain : Chain A n n')
    (none : ∀ a k, A a → a.Pages k → k = 0) :
    n'.metrics.pagingRequests = n.metrics.pagingRequests := by
  refine chain.keeps (P := fun m => m.metrics.pagingRequests = n.metrics.pagingRequests) ?_ rfl
  intro a m m' may step same
  obtain ⟨k, ⟨-, counted⟩, pages⟩ := step.pages
  rw [counted, none a k may pages, same]
  exact UInt64.add_zero _

namespace Event

variable {r : Request} {n : Node}

/-- **A request that is not accepted pages nobody.** -/
theorem pagingRequests_of_refused
    (refused : ∀ location, ¬(Routing.handle r n).1.Answers .accepted location) :
    (Routing.handle r n).2.metrics.pagingRequests = n.metrics.pagingRequests := by
  refine ((Event.request r).handle_course n).chain.pagingRequests fun a k may pages => ?_
  cases a with
  | park u p =>
    obtain ⟨r', o, ⟨same, answers⟩, -⟩ := may
    cases same
    exact absurd answers (refused _)
  | repeatPaging u =>
    obtain ⟨g, is⟩ := may
    cases is
  | _ => exact pages

end Event

namespace Context

/-- Operations lead to the context from one that was set up. -/
def Reached (c : Context) : Prop :=
  ∃ config start metrics links os, Provisioned config start ∧
    (Operation.run os { context := start, metrics, links }).context = c

theorem reached_of_provisioned {config : Config} {c : Context} (setUp : Provisioned config c) :
    c.Reached :=
  ⟨config, c, {}, {}, [], setUp, rfl⟩

theorem Reached.coherent {c : Context} (h : c.Reached) : c.Coherent := by
  obtain ⟨config, start, metrics, links, os, setUp, rfl⟩ := h
  exact Operation.run_keeps (P := fun n => n.context.Coherent) (fun o _ => o.coherent) os
    setUp.coherent

end Context

/-! ## Consistency -/

open Document in
/-- The response to a request in a state is consistent with the state that the request leads to. -/
structure Response.Consistent (x : Response) (r : Request) (n : Node) : Prop where
  code : x.status.code ∈ ([200, 202, 204, 400, 404, 405, 500] : List UInt16)
  located : x.location.isSome = true ↔ x.status = .accepted
  /-- A transfer was parked. -/
  stored : x.status = .accepted ↔ ∃ u p, n.Parks (Routing.handle r n).2 u p
  /-- The UE is the one that the request is for, and the location is that of what is parked for it
  now. -/
  accepted : x.status = .accepted →
    x.body.bind ofJson? = some ({ cause := .attemptingToReachUe } : TransferAnswer) ∧
    ∃ u p, r.addressee? n.context = some u ∧ n.Parks (Routing.handle r n).2 u p ∧
      (Routing.handle r n).2.context.parked.get? u = some p ∧ x.location = some p.location
  /-- Otherwise what is parked was parked before. -/
  kept : x.status ≠ .accepted → ∀ u p, (Routing.handle r n).2.context.parked.get? u = some p →
    n.context.parked.get? u = some p
  /-- A fault is reported with its status. -/
  problem : 400 ≤ x.status.code → ∃ problem : Problem,
    x.body.bind ofJson? = some problem ∧ problem.status = some x.status.code

namespace Routing

variable {r : Request} {n : Node} {response : Response}

theorem code_mem (s : Status) : s.code ∈ ([200, 202, 204, 400, 404, 405, 500] : List UInt16) := by
  cases s <;> decide

/-- **A response is that of a UE that is paged, one without a location, or that of a fault.** -/
theorem answered_cases (answered : (handle r n).1 = .answered response) :
    (∃ location, response = pagingResponse location) ∨
    (response.location = none ∧ (response.status = .ok ∨ response.status = .noContent)) ∨
    ∃ fault, response = .ofFault fault := by
  cases outcome : ((route r).exec n).1 with
  | ok x =>
    rw [handle_of_ok outcome] at answered
    cases answered
    obtain paging | plain := response_of_route outcome
    · exact .inl paging
    · exact .inr (.inl plain)
  | error fault =>
    obtain failed | ⟨ie, broken⟩ := handle_of_error outcome
    · rw [failed] at answered
      cases answered
      exact .inr (.inr ⟨fault, rfl⟩)
    · rw [broken] at answered
      cases answered

theorem located_iff (answered : (handle r n).1 = .answered response) :
    response.location.isSome = true ↔ response.status = .accepted := by
  obtain ⟨location, rfl⟩ | ⟨none, status⟩ | ⟨fault, rfl⟩ := answered_cases answered
  · exact iff_of_true rfl rfl
  · rw [none]
    refine iff_of_false nofun fun accepted => ?_
    rw [accepted] at status
    exact status.elim nofun nofun
  · exact iff_of_false nofun (ofFault_ne_accepted fault)

/-- **A fault is reported in a body that says its status.** -/
theorem exists_problem (answered : (handle r n).1 = .answered response)
    (failed : 400 ≤ response.status.code) : ∃ problem : Document.Problem,
      response.body.bind Document.ofJson? = some problem ∧
        problem.status = some response.status.code := by
  obtain ⟨location, rfl⟩ | ⟨-, status⟩ | ⟨fault, rfl⟩ := answered_cases answered
  · exact absurd failed (show ¬400 ≤ Status.accepted.code by decide)
  · exact absurd failed (by rcases status with is | is <;> rw [is] <;> decide)
  · refine ⟨fault.problem, ?_, rfl⟩
    show (some (Document.toJson fault.problem)).bind Document.ofJson? = _
    rw [Option.bind_some, Document.Lossless.read_write]

/-- **A transfer that is accepted is parked for the UE in the path**, under the location that the
answer tells. -/
theorem exists_parked {location : Option String} (reached : n.context.Reached)
    (accepted : (handle r n).1.Answers .accepted location) :
    ∃ u p, r.addressee? n.context = some u ∧ Step (.park u p) n (handle r n).2 ∧
      location = some p.location := by
  obtain ⟨o, s, p, orders, session, -, ⟨x, same, -, is⟩, step⟩ | ⟨refused, -⟩ :=
    Event.request_cases r n
  · obtain ⟨y, answered, -, told⟩ := accepted
    rw [same] at answered
    cases answered
    refine ⟨s.ue, p, ?_, step, told.symm.trans is⟩
    -- The session that the order names is one of the UE that the path names.
    obtain ⟨u, addressed, holds⟩ := orders.holds
    have coherent := reached.coherent
    have owns := coherent.rostered.listed.owns coherent.owned holds
    rw [addressed, owns s.ue s.psi (Context.sessionKey_of_some session)]
  · exact absurd accepted (refused location)

/-- **Responses are consistent with the state.** In any context that an AMF can be in, whatever the
metrics say and the transports accept, a request that is answered is answered with one of the known
statuses; with a location exactly if it is accepted, and accepted exactly if it parked a transfer,
whose location it is told, for the UE in its path; and with the status once more in the body where it
failed. -/
theorem handle_consistent (reached : n.context.Reached)
    (answered : (handle r n).1 = .answered response) : response.Consistent r n := by
  have code := code_mem response.status
  have located := located_iff answered
  have problem := exists_problem answered
  by_cases status : response.status = .accepted
  · obtain ⟨u, p, addressed, step, location⟩ :=
      exists_parked reached ⟨response, answered, status, rfl⟩
    have parks : n.Parks (handle r n).2 u p := Node.parks_of_step step
    refine ⟨code, located, iff_of_true status ⟨u, p, parks⟩, fun _ => ⟨?_, u, p, addressed, parks,
      parks.get?_parked, location⟩, fun other => absurd status other, problem⟩
    obtain ⟨_, rfl⟩ | ⟨none, -⟩ | ⟨fault, rfl⟩ := answered_cases answered
    · exact Document.Lossless.read_write _
    · rw [none] at location
      cases location
    · cases location
  · have refused : ∀ location, ¬(handle r n).1.Answers .accepted location := by
      rintro location ⟨x, same, is, -⟩
      rw [answered] at same
      cases same
      exact status is
    refine ⟨code, located, iff_of_false status ?_, fun is => absurd is status, fun _ u p there => ?_,
      problem⟩
    · rintro ⟨u, p, parks⟩
      exact parks.pagingRequests (Event.pagingRequests_of_refused refused)
    · obtain ⟨⟨r', o, ⟨same, answers⟩, -⟩, -⟩ | ⟨before, -⟩ :=
        (Event.request r).parks_or_stayed (n := n) there
      · cases same
        exact absurd answers (refused _)
      · exact before

/-- The hypotheses are satisfiable: a UE is paged for a setup. -/
theorem handle_consistent_setUp :
    let n : Node := { context := .oneSession }
    let response := pagingResponse (Api.transferLocation n.context.origin "imsi-1" none)
    (n.context.Reached ∧ (handle .setUp n).1 = .answered response) ∧
      response.Consistent .setUp n := by
  intro n response
  have reached : n.context.Reached := Context.reached_of_provisioned provisioned_oneSession
  have answered : (handle .setUp n).1 = .answered response := rfl
  exact ⟨⟨reached, answered⟩, handle_consistent reached answered⟩

end Routing
end Amf
