import Amf.Proofs.Execution
import Mathlib.Logic.Relation

/-!
# Steps

The acts that every event comes down to, each with the states in which it happens and the state that
it leads to. An event is a chain of steps (`Amf.Proofs.Course`), so a property that every step keeps
is kept by every run (`Chain.keeps`).

| act | of | what happens |
| --- | --- | --- |
| `tell`, `ask` | a UE, a peer | a message leaves that is no setup request and no failure report |
| `setUp`, `holdSetup` | a session | a setup request is made for the leg, and leaves or is held back |
| `confirm` | a session | it is confirmed, and the setup request that it holds back leaves |
| `holdCommand`, `dropCommand` | a session | a command is held back, or let go |
| `record`, `remove` | a session | a release is recorded, or the session goes |
| `park`, `refusePaging` | a UE | it is paged, and a transfer waits for it; or it could not be paged |
| `repeatPaging`, `giveUp` | a UE | T3513 expires with retries left, or without |
| `connect`, `disconnect` | a UE | it gets a new leg, and what waited for it is taken; or its leg goes |
| `answerSetup` | a UE | the first setup on its leg is answered |
| `deregister`, `expireRequest` | a UE | it was asked to deregister; T3522 expires |
| `mark`, `setPolicy` | a UE | its deregistration or its policy is noted |
| `detach` | a UE | everything that ties it to this AMF goes |
-/

namespace Amf

/-- A message that is made for the leg on which it is sent. -/
def Leg.message (l : Leg) (r : Ngap.Request) : Outbound := .radio (.toLeg l.gnb l.ids (r.octets l.ids))

/-- A request for a session to be set up. -/
def Ngap.Request.isSetup : Ngap.Request → Bool
  | .initialContextSetup .. | .resourceSetup .. => true
  | _ => false

/-- A request for a UE to deregister, by the type of the NAS message. -/
def Ngap.Request.isDeregistration : Ngap.Request → Bool
  | .downlinkNas nas => nas[4]? = some 0x47
  | _ => false

/-- A report that a transfer failed. -/
def PeerRequest.isReport : PeerRequest → Bool
  | .reportFailure .. => true
  | _ => false

/-- The reports that a transfer asks for when its UE cannot be reached. -/
def Parked.reports (p : Parked) : List Outbound :=
  match p.target with
  | none => []
  | some t => [.peer (.reportFailure t.client t.uri p.location .ueNotResponding)]

namespace Context

/-- The reports that the transfer parked for a UE asks for. -/
def reports (c : Context) (ue : Nat) : List Outbound :=
  match c.parked.get? ue with
  | none => []
  | some p => p.reports

theorem reports_of_none {c : Context} {ue : Nat} (h : c.parked.get? ue = none) :
    c.reports ue = [] := by
  unfold reports
  rw [h]

theorem reports_of_some {c : Context} {ue : Nat} {p : Parked} (h : c.parked.get? ue = some p) :
    c.reports ue = p.reports := by
  unfold reports
  rw [h]

/-- The context with other timers. -/
def withTimers (c : Context) (timers : Timers) : Context := { c with timers }

/-- The context with other clients. -/
def withClients (c : Context) (clients : Clients) : Context := { c with clients }

/-- The context with the first setup of a leg made. -/
def markSetup (c : Context) (leg : Nat) : Context :=
  c.modifyLeg leg fun l => { l with setupSent := true }

/-- The context with a setup request held back on a session, or with none. -/
def holdSetup (c : Context) (session : Nat) (pdu : Option Octets) : Context :=
  c.modifySession session fun s => { s with heldSetup := pdu }

/-- The context with a command held back on a session, or with none. -/
def holdCommand (c : Context) (session : Nat) (command : Option HeldCommand) : Context :=
  c.modifySession session fun s => { s with heldCommand := command }

/-- The context with a session confirmed. -/
def confirm (c : Context) (session : Nat) (uri smRef : String) : Context :=
  c.modifySession session fun s => { s with smUri := some uri, smRef := some smRef }

/-- The context with a UE paged and a transfer parked for it. -/
def park (c : Context) (ue : Nat) (pdu : Octets) (p : Parked) : Context :=
  { c.modifyUe ue fun u => { u with pagingMessage := some pdu } with
    parked := c.parked.insert ue p
    timers := c.timers.start .t3513 ue }

/-- The context with the paging of a UE over, the transfer parked for it taken, and the timers
given. -/
def quitPaging (c : Context) (ue : Nat) (timers : Timers) : Context :=
  { c.modifyUe ue fun u => { u with pagingMessage := none } with
    parked := c.parked.erase ue
    timers }

/-- The context without the leg of a UE, if it has one. -/
def freeLeg (c : Context) (ue : Nat) : Context :=
  match c.legOf? ue with
  | some (former, _) => c.removeLeg former
  | none => c

theorem freeLeg_of_none {c : Context} {ue : Nat} (h : c.legOf? ue = none) : c.freeLeg ue = c := by
  unfold freeLeg
  rw [h]

theorem freeLeg_of_some {c : Context} {ue k : Nat} {l : Leg} (h : c.legOf? ue = some (k, l)) :
    c.freeLeg ue = c.removeLeg k := by
  unfold freeLeg
  rw [h]

/-- The context with a UE on a leg of an access technology. -/
def serve (c : Context) (ue leg : Nat) (rat : RatType) : Context :=
  (c.modifyLeg leg fun l => { l with rat }).associate ue leg

end Context

/-- The clients and the target that the URI of a transfer comes to. -/
inductive Paging.Resolves (c : Context) : Option String → Clients → Option FailureTarget → Prop
  /-- There is nobody to tell. -/
  | none : Resolves c none c.clients none
  /-- There is a client towards the origin of the URI. -/
  | some {uri : String} {client : Origin} {clients : Clients} {added : Bool}
      (origin : Origin.ofUri? uri = .ok client)
      (ensured : c.clients.ensure client = .ok (clients, added)) :
      Resolves c (some uri) clients (some ⟨uri, client⟩)

/-- The clients without one that was added for a target. -/
def Paging.clientsLeft (clients : Clients) : Option FailureTarget × Bool → Clients
  | (some target, true) => clients.erase target.client
  | _ => clients

theorem Paging.forget_eq (c : Context) (resolved : Option FailureTarget × Bool) :
    forget c resolved = c.withClients (clientsLeft c.clients resolved) := by
  obtain ⟨_ | target, _ | _⟩ := resolved <;> rfl

namespace Node

/-- The state with a UE on a new leg, its former leg given up. -/
def relocate (n : Node) (ue leg : Nat) (rat : RatType) : Node :=
  let freed := if (n.context.legOf? ue).isSome then n.uncount .ranUes else n
  ((freed.change (·.freeLeg ue)).change (·.serve ue leg rat)).count .ranUes

/-- The state with the paging of a UE answered, and the transfer parked for it taken. -/
def answer (n : Node) (ue : Nat) : Node :=
  let taken := n.change fun c => c.quitPaging ue (c.timers.stop .t3513 ue)
  if n.context.parked.contains ue && n.context.timers.isRunning .t3513 ue then
    taken.count .pagingSuccesses
  else taken

/-- The state with a UE paged and a transfer parked for it. -/
def park (n : Node) (clients : Clients) (ue : Nat) (pdu : Octets) (p : Parked) : Node :=
  (((n.change (·.withClients clients)).offer (.radio (.paging ue pdu))).change
    (·.park ue pdu p)).count .pagingRequests

/-- The state in which a UE has got a leg that was added to the context. -/
def connect (n : Node) (added : Context) (ue leg : Nat) (rat : RatType) : Node :=
  ((n.change fun _ => added).relocate ue leg rat).answer ue

/-- The state after messages were handed to their transports in order. -/
def offerAll (n : Node) (ms : List Outbound) : Node := ms.foldl offer n

@[simp] theorem context_offerAll (ms : List Outbound) (n : Node) :
    (n.offerAll ms).context = n.context := by
  induction ms generalizing n with
  | nil => rfl
  | cons m ms ih => exact ih (n.offer m)

@[simp] theorem offered_offerAll (ms : List Outbound) (n : Node) :
    (n.offerAll ms).links.offered = n.links.offered ++ ms := by
  induction ms generalizing n with
  | nil => exact (List.append_nil _).symm
  | cons m ms ih =>
    refine (ih (n.offer m)).trans ?_
    rw [Node.links_offer, Links.offered_offer, List.append_assoc]
    rfl

/-- Messages that are accepted one after the other leave in order. -/
theorem sent_offerAll_of_acceptsAll {ms : List Outbound} {n : Node}
    (accepted : n.links.acceptsAll ms = true) : (n.offerAll ms).links.sent = n.links.sent ++ ms := by
  induction ms generalizing n with
  | nil => exact (List.append_nil _).symm
  | cons m ms ih =>
    rw [Links.acceptsAll, Bool.and_eq_true] at accepted
    refine (ih (n := n.offer m) accepted.2).trans ?_
    rw [Node.links_offer, Links.sent_offer_of_accepted accepted.1, List.append_assoc]
    rfl

/-- Messages that their transports accept leave in order. -/
theorem sent_offerAll {ms : List Outbound} {n : Node} (takes : ∀ m ∈ ms, n.links.Takes m) :
    (n.offerAll ms).links.sent = n.links.sent ++ ms :=
  sent_offerAll_of_acceptsAll (Links.acceptsAll_of_takes takes)

/-- The transports alone decide what leaves. -/
theorem links_offerAll_congr {n m : Node} (ms : List Outbound) (same : n.links = m.links) :
    (n.offerAll ms).links = (m.offerAll ms).links := by
  induction ms generalizing n m with
  | nil => exact same
  | cons x ms ih => exact ih (congrArg (·.offer x) same)

end Node

namespace Node

/-- A leg that is counted off is not removed yet. -/
theorem context_uncountLeg (n : Node) (ue : Nat) :
    (if (n.context.legOf? ue).isSome then n.uncount .ranUes else n).context = n.context := by
  split <;> rfl

end Node

/-- An act of the AMF, with the UE or the session that it is about. -/
inductive Act where
  | tell (ue : Nat) (r : Ngap.Request)
  | ask (q : PeerRequest)
  | setUp (session : Nat)
  | holdSetup (session : Nat)
  | confirm (session : Nat)
  | holdCommand (session : Nat)
  | dropCommand (session : Nat)
  | record (session : Nat)
  | remove (session : Nat)
  | park (ue : Nat) (p : Parked)
  | refusePaging (ue : Nat)
  | repeatPaging (ue : Nat)
  | giveUp (ue : Nat)
  | connect (ue : Nat)
  | disconnect (ue : Nat)
  | answerSetup (ue : Nat)
  | deregister (ue : Nat)
  | expireRequest (ue : Nat)
  | mark (ue : Nat)
  | setPolicy (ue : Nat)
  | detach (ue : Nat)

/-- The state in which an act happens, and the state after it. -/
inductive Step : Act → Node → Node → Prop
  | tell {n : Node} {u k : Nat} {l : Leg} {r : Ngap.Request}
      (leg : n.context.legOf? u = some (k, l)) (plain : r.isSetup = false) :
      Step (.tell u r) n (n.offer (l.message r))
  | ask {n : Node} {q : PeerRequest} (plain : q.isReport = false) : Step (.ask q) n (n.offer (.peer q))
  | setUp {n : Node} {id k : Nat} {s : Session} {u : Ue} {l : Leg} {nas : Option Octets} {n2 : Octets}
      (session : n.context.sessions.get? id = some s) (ue : n.context.ues.get? s.ue = some u)
      (leg : n.context.legOf? s.ue = some (k, l)) (confirmed : s.confirmed = true) :
      Step (.setUp id) n ((n.change (·.markSetup k)).offer
        (l.message (Delivery.setupRequest n.context u l s nas n2)))
  | holdSetup {n : Node} {id k : Nat} {s : Session} {u : Ue} {l : Leg} {nas : Option Octets}
      {n2 : Octets}
      (session : n.context.sessions.get? id = some s) (ue : n.context.ues.get? s.ue = some u)
      (leg : n.context.legOf? s.ue = some (k, l)) (unconfirmed : s.confirmed = false) :
      Step (.holdSetup id) n ((n.change (·.markSetup k)).change
        (·.holdSetup id (some ((Delivery.setupRequest n.context u l s nas n2).octets l.ids))))
  /-- No setup request is held back. -/
  | confirm {n : Node} {id : Nat} {s : Session} {uri smRef : String}
      (session : n.context.sessions.get? id = some s) (held : s.heldSetup = none) :
      Step (.confirm id) n (n.change (·.confirm id uri smRef))
  /-- A setup request is held back, and there is no leg for it. -/
  | confirmIdle {n : Node} {id : Nat} {s : Session} {pdu : Octets} {uri smRef : String}
      (session : n.context.sessions.get? id = some s) (held : s.heldSetup = some pdu)
      (leg : n.context.legOf? s.ue = none) :
      Step (.confirm id) n ((n.change (·.confirm id uri smRef)).change (·.holdSetup id none))
  /-- A setup request is held back, and leaves on the leg of the UE. -/
  | confirmHeld {n : Node} {id k : Nat} {s : Session} {l : Leg} {pdu : Octets} {uri smRef : String}
      (session : n.context.sessions.get? id = some s) (held : s.heldSetup = some pdu)
      (leg : n.context.legOf? s.ue = some (k, l)) :
      Step (.confirm id) n (((n.change (·.confirm id uri smRef)).change (·.holdSetup id none)).offer
        (.radio (.toLeg l.gnb l.ids pdu)))
  | holdCommand {n : Node} {u id : Nat} {command : HeldCommand}
      (waits : n.context.established u = false) :
      Step (.holdCommand id) n (n.change (·.holdCommand id (some command)))
  | dropCommand {n : Node} {id : Nat} : Step (.dropCommand id) n (n.change (·.holdCommand id none))
  | record {n : Node} {id : Nat} {s : Session} {i : ReleaseInput}
      (session : n.context.sessions.get? id = some s)
      (incomplete : (s.record i).fullyReleased = false) :
      Step (.record id) n (n.change (·.modifySession id (·.record i)))
  | remove {n : Node} {id : Nat} {s : Session} (session : n.context.sessions.get? id = some s) :
      Step (.remove id) n ((n.change (·.removeSession id)).uncount .sessions)
  | park {n : Node} {id : Nat} {s : Session} {u : Ue} {guti : Guti} {payload : Payload}
      {uri : Option String} {clients : Clients} {target : Option FailureTarget}
      (session : n.context.sessions.get? id = some s) (ue : n.context.ues.get? s.ue = some u)
      (known : u.guti = some guti) (idle : n.context.legOf? s.ue = none)
      (resolved : Paging.Resolves n.context uri clients target)
      (accepted : n.links.accepts
        (.radio (.paging s.ue (Ngap.Paging.octets { guti, tai := u.tai }))) = true) :
      Step (.park s.ue ⟨id, s.psi, Api.transferLocation n.context.origin u.name s.smRef, target, payload⟩)
        n (n.park clients s.ue (Ngap.Paging.octets { guti, tai := u.tai })
          ⟨id, s.psi, Api.transferLocation n.context.origin u.name s.smRef, target, payload⟩)
  | refusePaging {n : Node} {u : Nat} {pdu : Octets} {uri : Option String} {clients : Clients}
      {target : Option FailureTarget} {added : Bool}
      (resolved : Paging.Resolves n.context uri clients target)
      (refused : n.links.accepts (.radio (.paging u pdu)) = false) :
      Step (.refusePaging u) n (((n.change (·.withClients clients)).offer (.radio (.paging u pdu))).change
        (·.withClients (Paging.clientsLeft clients (target, added))))
  /-- The UE or its paging message is gone, and T3513 stops in the latter case. -/
  | repeatNothing {n : Node} {u g i : Nat} {timers : Timers} {f : Context → Context}
      (expiry : n.context.timers.expire .t3513 u g = (some (.retry i), timers))
      (lost : n.context.ues.get? u = none ∧ f = id ∨
        (n.context.ues.get? u).map (·.pagingMessage) = some none ∧
          f = fun c => c.withTimers (c.timers.stop .t3513 u)) :
      Step (.repeatPaging u) n ((n.change (·.withTimers timers)).change f)
  | repeatPaging {n : Node} {u g i : Nat} {timers : Timers} {x : Ue} {pdu : Octets}
      (expiry : n.context.timers.expire .t3513 u g = (some (.retry i), timers))
      (ue : n.context.ues.get? u = some x) (kept : x.pagingMessage = some pdu)
      (accepted : n.links.accepts (.radio (.paging u pdu)) = true) :
      Step (.repeatPaging u) n (((n.change (·.withTimers timers)).offer (.radio (.paging u pdu))).count
        .pagingRequests)
  | repeatRefused {n : Node} {u g i : Nat} {timers : Timers} {x : Ue} {pdu : Octets}
      (expiry : n.context.timers.expire .t3513 u g = (some (.retry i), timers))
      (ue : n.context.ues.get? u = some x) (kept : x.pagingMessage = some pdu)
      (refused : n.links.accepts (.radio (.paging u pdu)) = false) :
      Step (.repeatPaging u) n ((n.change (·.withTimers timers)).offer (.radio (.paging u pdu)))
  /-- What is parked for the UE is dropped, and its target is told. -/
  | giveUp {n : Node} {u g : Nat} {timers : Timers}
      (expiry : n.context.timers.expire .t3513 u g = (some .exhausted, timers)) :
      Step (.giveUp u) n ((n.change (·.quitPaging u timers)).offerAll (n.context.reports u))
  | connect {n : Node} {u k : Nat} {gnb ran : UInt64} {rat : RatType} {c : Context}
      (known : n.context.ues.contains u = true) (room : n.context.addLeg gnb ran = some (k, c)) :
      Step (.connect u) n (n.connect c u k rat)
  | disconnect {n : Node} {u k : Nat} {l : Leg} (leg : n.context.legOf? u = some (k, l)) :
      Step (.disconnect u) n ((n.change fun c => (c.deassociate u).removeLeg k).uncount .ranUes)
  | answerSetup {n : Node} {u k : Nat} {l : Leg} (leg : n.context.legOf? u = some (k, l)) :
      Step (.answerSetup u) n (n.change (·.modifyLeg k fun l => { l with setupAnswered := true }))
  | deregister {n : Node} {u : Nat} {nas : Octets} (known : n.context.ues.contains u = true) :
      Step (.deregister u) n (n.change fun c =>
        { c.modifyUe u fun x => { x with deregistrationMessage := some nas } with
          timers := c.timers.start .t3522 u })
  | expireRequest {n : Node} {u g : Nat} {e : Expiry} {timers : Timers}
      (expiry : n.context.timers.expire .t3522 u g = (some e, timers)) :
      Step (.expireRequest u) n (n.change (·.withTimers timers))
  /-- The UE that is asked to deregister has no leg any more. -/
  | stopRequest {n : Node} {u : Nat} :
      Step (.expireRequest u) n (n.change fun c => c.withTimers (c.timers.stop .t3522 u))
  /-- The UE is not asked to deregister any more. -/
  | forgetRequest {n : Node} {u : Nat} (stopped : n.context.timers.isRunning .t3522 u = false) :
      Step (.expireRequest u) n
        (n.change (·.modifyUe u fun x => { x with deregistrationMessage := none }))
  | mark {n : Node} {u : Nat} {state : DeregistrationState} :
      Step (.mark u) n (n.change (·.modifyUe u fun x => { x with deregistration := some state }))
  | setPolicy {n : Node} {u : Nat} {restrictions : List RatType} {ambr : Ambr} :
      Step (.setPolicy u) n (n.change (·.modifyUe u fun x => { x with restrictions, ambr }))
  | detach {n : Node} {u : Nat} :
      Step (.detach u) n
        ((if (n.context.legOf? u).isSome then n.uncount .ranUes else n).change (Relocation.detach · u))

/-! ## Chains -/

/-- Acts of a kind lead from one state to another. -/
abbrev Chain (A : Act → Prop) : Node → Node → Prop :=
  Relation.ReflTransGen fun n n' => ∃ a, A a ∧ Step a n n'

/-- The act leaves every parked transfer where it is. -/
def Act.quiet : Act → Bool
  | .park .. | .giveUp _ | .connect _ | .remove _ | .detach _ => false
  | _ => true

namespace Chain

variable {A B : Act → Prop} {n m n' : Node} {α β : Type}

theorem of_step {a : Act} (may : A a) (step : Step a n n') : Chain A n n' := .single ⟨a, may, step⟩

theorem mono (weaker : ∀ a, A a → B a) (chain : Chain A n n') : Chain B n n' :=
  Relation.ReflTransGen.mono (fun _ _ ⟨a, may, step⟩ => ⟨a, weaker a may, step⟩) _ _ chain

/-- **What every act of a kind keeps, chains of such acts keep.** -/
theorem keeps {P : Node → Prop} (step : ∀ a n n', A a → Step a n n' → P n → P n')
    (chain : Chain A n n') (h : P n) : P n' := by
  induction chain with
  | refl => exact h
  | tail _ last ih =>
    obtain ⟨a, may, last⟩ := last
    exact step a _ _ may last ih

/-- A sequence of procedures is a chain if each of them is one. -/
theorem bind {p : Procedure α} {f : α → Procedure β} (first : Chain A n (p.exec n).2)
    (rest : ∀ a, (p.exec n).1 = .ok a → Chain A (p.exec n).2 ((f a).exec (p.exec n).2).2) :
    Chain A n ((p >>= f).exec n).2 := by
  rw [Procedure.exec_bind]
  generalize p.exec n = outcome at first rest
  obtain ⟨_ | a, m⟩ := outcome
  · exact first
  · exact first.trans (rest a rfl)

end Chain

/-- Acts of a kind, at most one of which is not quiet, lead from one state to another. -/
def Course (A : Act → Prop) (n n' : Node) : Prop :=
  Chain (fun a => A a ∧ a.quiet) n n' ∨
    ∃ a m m', A a ∧ a.quiet = false ∧ Chain (fun a => A a ∧ a.quiet) n m ∧ Step a m m' ∧
      Chain (fun a => A a ∧ a.quiet) m' n'

namespace Course

variable {A B : Act → Prop} {n m n' : Node}

theorem refl : Course A n n := .inl .refl

theorem of_step {a : Act} (may : A a) (step : Step a n n') : Course A n n' := by
  cases h : a.quiet with
  | true => exact .inl (.of_step ⟨may, h⟩ step)
  | false => exact .inr ⟨a, n, n', may, h, .refl, step, .refl⟩

theorem before (first : Chain (fun a => A a ∧ a.quiet) n m) (rest : Course A m n') :
    Course A n n' := by
  obtain chain | ⟨a, m₁, m₂, may, loud, chain, step, chain'⟩ := rest
  · exact .inl (first.trans chain)
  · exact .inr ⟨a, m₁, m₂, may, loud, first.trans chain, step, chain'⟩

theorem after (first : Course A n m) (rest : Chain (fun a => A a ∧ a.quiet) m n') :
    Course A n n' := by
  obtain chain | ⟨a, m₁, m₂, may, loud, chain, step, chain'⟩ := first
  · exact .inl (chain.trans rest)
  · exact .inr ⟨a, m₁, m₂, may, loud, chain, step, chain'.trans rest⟩

theorem mono (weaker : ∀ a, A a → B a) (course : Course A n n') : Course B n n' := by
  have weaker' : ∀ a, A a ∧ a.quiet → B a ∧ a.quiet := fun a h => ⟨weaker a h.1, h.2⟩
  obtain chain | ⟨a, m₁, m₂, may, loud, chain, step, chain'⟩ := course
  · exact .inl (chain.mono weaker')
  · exact .inr ⟨a, m₁, m₂, weaker a may, loud, chain.mono weaker', step, chain'.mono weaker'⟩

/-- A course is a chain. -/
theorem chain (course : Course A n n') : Chain A n n' := by
  have weaker : ∀ a, A a ∧ a.quiet → A a := fun _ h => h.1
  obtain chain | ⟨a, m₁, m₂, may, _, chain, step, chain'⟩ := course
  · exact chain.mono weaker
  · exact (chain.mono weaker).trans ((Chain.of_step may step).trans (chain'.mono weaker))

end Course
end Amf
