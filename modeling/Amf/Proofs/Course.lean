import Amf.Proofs.Legs
import Amf.Proofs.Procedures
import Amf.Proofs.Sessions

/-!
# Events as chains of steps

What each event may do (`Event.May`), and that it does nothing else (`Event.handle_course`): it is a
chain of these acts, at most one of which touches a parked transfer. A run is a chain as well, so
what every step keeps holds after every run.

| event | acts |
| --- | --- |
| a request for a transfer | `park`, `refusePaging`, `tell`, `holdCommand`, `remove`, `setUp`, `holdSetup` |
| a report that a UE was taken over | `ask`, `detach` |
| any other request | `tell`, `ask`, `deregister`, `mark`, `setPolicy`, `record`, `remove` |
| an expiry of T3513, of T3522 | `repeatPaging`, `giveUp`; `tell`, `expireRequest` |
| a new connection | `connect`, `tell`, `holdCommand`; `setUp`, `holdSetup` of what was parked |
| a connection gone | `disconnect` |
| a setup answered | `answerSetup`, `dropCommand`, `tell` |
| a session confirmed | `confirm` |
| a release confirmed | `record`, `remove` |
-/

namespace Amf

open Procedure

variable {A : Act → Prop} {n : Node}

namespace Routing

/-- A request reaches a resource under the context of a UE. -/
def Reaches (r : Request) (resource : String) : Prop :=
  r.service = Api.communication ∧ r.component? 0 = some Api.ueContexts ∧
    r.component? 2 = some resource ∧ r.method = "POST"

instance (r : Request) (resource : String) : Decidable (Reaches r resource) :=
  inferInstanceAs (Decidable (_ ∧ _ ∧ _ ∧ _))

/-- A request reaches one resource at most. -/
theorem Reaches.unique {r : Request} {a b : String} (h : Reaches r a) (h' : Reaches r b) : a = b :=
  Option.some.inj (h.2.2.1.symm.trans h'.2.2.1)

/-- A request asks for a transfer. -/
def Orders (n : Node) (r : Request) (o : Transfer.Order) : Prop :=
  Reaches r Api.messages ∧ ((transferOrder r).exec n).1 = .ok o

/-- A request reports that another AMF took a UE over. -/
def TakesOver (n : Node) (r : Request) (u : Nat) : Prop :=
  Reaches r Api.transferUpdate ∧ ((Relocation.findUe (r.component? 1)).exec n).1 = .ok u ∧
    ∃ b : Document.StatusUpdate,
      ((parse r "UeRegStatusUpdateReqData").exec n).1 = .ok b ∧ b.status = some .transferred

/-- A request is answered with a status, and with a location or without one. -/
def Reply.Answers (reply : Reply) (status : Status) (location : Option String) : Prop :=
  ∃ response, reply = .answered response ∧ response.status = status ∧ response.location = location

end Routing

namespace Event

/-- The event is a request, and is answered with a status, and with a location or without one. -/
def Answered (e : Event) (n : Node) (r : Request) (status : Status) (location : Option String) : Prop :=
  e = .request r ∧ (Routing.handle r n).1.Answers status location

/-- The event sets a session up: a request asks for it, or the UE that it was parked for connects. -/
def SetsUp (e : Event) (n : Node) (id : Nat) : Prop :=
  match e with
  | .request r => ∃ o, Routing.Orders n r o ∧ o.kind = .setup ∧ o.session = id
  | .connected u _ _ _ => ∃ p nas n2,
      n.context.parked.get? u = some p ∧ p.payload = .setup nas n2 ∧ p.session = id
  | _ => False

/-- The event is a request for a transfer that is accepted under a location. -/
def Stores (e : Event) (n : Node) (p : Parked) : Prop :=
  ∃ r o, e.Answered n r .accepted (some p.location) ∧ Routing.Orders n r o ∧ o.Asks p

/-- The event is a report, answered as dealt with, that another AMF took a UE over. -/
def Detaches (e : Event) (n : Node) (u : Nat) : Prop :=
  ∃ r, e.Answered n r .ok none ∧ Routing.TakesOver n r u

/-- The event is a request, but no report of the outcome of a relocation. -/
def IsPlain (e : Event) : Prop := ∃ r, e = .request r ∧ ¬Routing.Reaches r Api.transferUpdate

/-- The event is a request. -/
def IsRequest (e : Event) : Prop := ∃ r, e = .request r

/-- The UE confirms the release of a session, or the radio network does. -/
def IsRelease (e : Event) : Prop := ∃ u psi, e = .n1Released u psi ∨ e = .n2Released u psi

/-- The event is a notification of a deregistration, or of changes of subscriber data. -/
def IsNotice (e : Event) : Prop :=
  ∃ r, e = .request r ∧ r.service = Api.callback ∧
    (r.component? 1 = some Api.deregistration ∨ r.component? 1 = some Api.subscriberData)

/-- A UE has a new connection. -/
def Connects (e : Event) (u : Nat) : Prop := ∃ gnb ran rat, e = .connected u gnb ran rat

/-- What an event may do. -/
def May (e : Event) (n : Node) : Act → Prop
  | .tell _ r => r.isDeregistration = true → e.IsNotice ∨ ∃ u g, e = .timer .t3522 u g
  | .ask _ | .refusePaging _ | .mark _ | .setPolicy _ => e.IsRequest
  | .deregister _ => e.IsNotice
  | .park _ p => e.Stores n p
  | .detach u => e.Detaches n u
  | .setUp id | .holdSetup id => e.SetsUp n id
  | .holdCommand _ => e.IsRequest ∨ ∃ u, e.Connects u
  | .record _ | .remove _ => e.IsPlain ∨ e.IsRelease
  | .confirm id => ∃ u psi uri smRef,
      e = .sessionConfirmed u psi uri smRef ∧ n.context.findSession? u psi = some id
  | .dropCommand _ => ∃ u, e = .setupAnswered u
  | .answerSetup u => e = .setupAnswered u
  | .repeatPaging u | .giveUp u => ∃ g, e = .timer .t3513 u g
  | .expireRequest u => ∃ g, e = .timer .t3522 u g
  | .connect u => e.Connects u
  | .disconnect u => e = .released u

end Event

/-! ## Addressees -/

/-- The UE that a request is for, by the identity in its path. -/
def Request.addressee? (r : Request) (c : Context) : Option Nat :=
  if r.service = Api.communication then (r.component? 1).bind c.findUe?
  else (r.component? 0).bind c.findSupi?

/-- The UE that an event is about. -/
def Event.addressee? (e : Event) (c : Context) : Option Nat :=
  match e with
  | request r => r.addressee? c
  | timer _ u _ | connected u .. | released u | setupAnswered u | sessionConfirmed u .. |
    n1Released u _ | n2Released u _ => some u
  | shutdown => none

/-- The event is a notification of changes of subscriber data, which names its UEs in its body. -/
def Event.IsModification (e : Event) : Prop :=
  ∃ r, e = .request r ∧ r.service = Api.callback ∧ r.component? 1 = some Api.subscriberData

namespace Context

/-- A UE has a session at hand: it lists the session, or something is parked for the two. -/
def Holds (c : Context) (u id : Nat) : Prop :=
  (∃ ids, c.sessionIds u = some ids ∧ id ∈ ids) ∨ ∃ p, c.parked.get? u = some p ∧ p.session = id

/-- The UE itself, or that of a session which it has at hand. -/
def Means (c : Context) (u v : Nat) : Prop :=
  v = u ∨ ∃ id psi, c.Holds u id ∧ c.sessionKey id = some (v, psi)

variable {c : Context} {u id : Nat} {psi : UInt8} {s : Session}

theorem holds_of_findSession? (found : c.findSession? u psi = some id) : c.Holds u id := by
  obtain ⟨x, -, hx, mem, -⟩ := exists_of_findSession? found
  exact .inl ⟨x.sessions, sessionIds_of_some hx, mem⟩

theorem Holds.means (h : c.Holds u id) (session : c.sessions.get? id = some s) : c.Means u s.ue :=
  .inr ⟨id, s.psi, h, sessionKey_of_some session⟩

end Context

/-- The act is one of a UE, or one for a session that the UE has at hand; or it asks a peer. -/
def Act.About (c : Context) (u : Nat) : Act → Prop
  | .ask _ => True
  | .tell v _ | .park v _ | .refusePaging v => c.Means u v
  | .repeatPaging v | .giveUp v | .connect v | .disconnect v | .answerSetup v | .deregister v |
    .expireRequest v | .mark v | .setPolicy v | .detach v => v = u
  | .setUp id | .holdSetup id | .confirm id | .holdCommand id | .dropCommand id | .record id |
    .remove id => c.Holds u id

/-- The act holds no command back for a UE that is established. -/
def Act.Unready (c : Context) : Act → Prop
  | .holdCommand id => ∀ s, c.sessions.get? id = some s → c.established s.ue = false
  | _ => True

/-- The act only amends the policy or the deregistration of a UE, or tells the UE or a peer. -/
def Act.amends : Act → Bool
  | .tell .. | .ask _ | .deregister _ | .mark _ | .setPolicy _ => true
  | _ => false

/-- What an event does: acts that it may do, about the UE that it is about; and a request holds a
command back only for a UE that is not ready for it. -/
structure Event.Does (e : Event) (n : Node) (a : Act) : Prop where
  may : e.May n a
  about : ¬e.IsModification → ∀ u, e.addressee? n.context = some u → a.About n.context u
  /-- An event that is about no UE amends UEs at most. -/
  named : a.amends = true ∨ ∃ u, e.addressee? n.context = some u ∧ a.About n.context u
  unready : e.IsRequest → a.Unready n.context

theorem Event.Does.of_addressee {e : Event} {a : Act} {u : Nat} (may : e.May n a)
    (addressed : e.addressee? n.context = some u) (about : a.About n.context u)
    (unready : e.IsRequest → a.Unready n.context) : e.Does n a := by
  refine ⟨may, fun _ v is => ?_, .inr ⟨u, addressed, about⟩, unready⟩
  rw [addressed] at is
  cases is
  exact about

/-- A request may ask a peer for any UE. -/
theorem Event.Does.ask {r : Request} (q : PeerRequest) : (Event.request r).Does n (.ask q) :=
  ⟨⟨r, rfl⟩, fun _ _ _ => trivial, .inl rfl, fun _ => trivial⟩

/-! ## Requests -/

namespace Routing

variable {r : Request}

theorem constant_parse (α : Type) [Document α] (r : Request) (name : String) :
    Constant (parse r name : Procedure α) :=
  (constant_need _ _).bind fun _ => constant_need _ _

theorem constant_sessionInfo (b : Document.TransferBody) : Constant (sessionInfo b) := by
  unfold sessionInfo
  split
  · exact constant_pure _
  · exact (constant_need _ _).bind fun _ => constant_pure _

theorem constant_n1Part (r : Request) (b : Document.TransferBody) : Constant (n1Part r b) := by
  unfold n1Part
  split
  · exact constant_pure _
  · exact (constant_need _ _).bind fun _ => (constant_need _ _).bind fun _ => constant_pure _

theorem constant_n2Part (r : Request) (info : Option Document.SessionInfo) :
    Constant (n2Part r info) := by
  unfold n2Part
  split
  · exact constant_pure _
  · exact (constant_need _ _).bind fun _ => (constant_need _ _).bind fun _ =>
      (constant_need _ _).bind fun _ => (constant_need _ _).bind fun _ => constant_pure _

theorem reads_transferOrder (r : Request) : Reads (transferOrder r) :=
  (constant_parse _ r _).reads.bind fun b => reads_context.bind fun _ => (reads_need _ _).bind fun _ =>
    (constant_sessionInfo b).reads.bind fun info => (reads_need _ _).bind fun _ =>
      reads_context.bind fun _ => (reads_need _ _).bind fun _ =>
        (constant_n1Part r b).reads.bind fun (_, r) => (constant_n2Part r info).reads.bind fun _ =>
          reads_pure _

/-- Information for a setup says what to set up. -/
theorem exists_of_n2Part {info : Option Document.SessionInfo} {n2 : Option Octets}
    (read : ((n2Part r info).exec n).1 = .ok (Transfer.Kind.setup, n2)) :
    ∃ octets, n2 = some octets := by
  unfold n2Part at read
  split at read
  · cases read
  · rw [(reads_need _ _).exec_bind_eq_ok] at read
    obtain ⟨content, -, read⟩ := read
    rw [(reads_need _ _).exec_bind_eq_ok] at read
    obtain ⟨ie, -, read⟩ := read
    rw [(reads_need _ _).exec_bind_eq_ok] at read
    obtain ⟨data, -, read⟩ := read
    obtain ⟨part, -, read⟩ := (reads_need _ _).exec_bind_eq_ok.1 read
    obtain ⟨-, is⟩ := Prod.mk.inj (Except.ok.inj read)
    exact ⟨_, is.symm⟩

/-- **An order depends on the UE that the path names and on its session**, and on nothing else of
the state; and one for a setup says what to set up. -/
theorem exists_of_transferOrder {o : Transfer.Order} (ordered : ((transferOrder r).exec n).1 = .ok o) :
    ∃ u psi,
      n.context.findUe? ((r.component? 1).getD "") = some u ∧
      n.context.findSession? u psi = some o.session ∧
      (o.kind = .setup → ∃ n2, o.n2 = some n2) ∧
      ∀ m : Node, m.context.findUe? ((r.component? 1).getD "") = some u →
        m.context.findSession? u psi = some o.session → ((transferOrder r).exec m).1 = .ok o := by
  unfold transferOrder at ordered ⊢
  obtain ⟨b, body, ordered⟩ := (constant_parse _ r _).reads.exec_bind_eq_ok.1 ordered
  rw [exec_context_bind] at ordered
  obtain ⟨u, ue, ordered⟩ := (reads_need _ _).exec_bind_eq_ok.1 ordered
  obtain ⟨info, about, ordered⟩ := (constant_sessionInfo b).reads.exec_bind_eq_ok.1 ordered
  obtain ⟨psi, assigned, ordered⟩ := (reads_need _ _).exec_bind_eq_ok.1 ordered
  rw [exec_context_bind] at ordered
  obtain ⟨id, session, ordered⟩ := (reads_need _ _).exec_bind_eq_ok.1 ordered
  obtain ⟨⟨n1, rest⟩, n1Read, ordered⟩ := (constant_n1Part r b).reads.exec_bind_eq_ok.1 ordered
  obtain ⟨⟨kind, n2⟩, n2Read, ordered⟩ := (constant_n2Part rest info).reads.exec_bind_eq_ok.1 ordered
  cases ordered
  refine ⟨u, psi, exec_need_eq_ok.1 ue, exec_need_eq_ok.1 session, ?_, fun m ue' session' => ?_⟩
  · rintro rfl
    exact exists_of_n2Part n2Read
  · refine (constant_parse _ r _).reads.exec_bind_eq_ok.2 ⟨b, ?_, ?_⟩
    · rw [(constant_parse _ r _).fst_exec m n, body]
    rw [exec_context_bind]
    refine (reads_need _ _).exec_bind_eq_ok.2 ⟨u, exec_need_eq_ok.2 ue', ?_⟩
    refine (constant_sessionInfo b).reads.exec_bind_eq_ok.2 ⟨info, ?_, ?_⟩
    · rw [(constant_sessionInfo b).fst_exec m n, about]
    refine (reads_need _ _).exec_bind_eq_ok.2 ⟨psi, ?_, ?_⟩
    · rw [(constant_need _ _).fst_exec m n, assigned]
    rw [exec_context_bind]
    refine (reads_need _ _).exec_bind_eq_ok.2 ⟨id, exec_need_eq_ok.2 session', ?_⟩
    refine (constant_n1Part r b).reads.exec_bind_eq_ok.2 ⟨(n1, rest), ?_, ?_⟩
    · rw [(constant_n1Part r b).fst_exec m n, n1Read]
    refine (constant_n2Part rest info).reads.exec_bind_eq_ok.2 ⟨(kind, n2), ?_, rfl⟩
    rw [(constant_n2Part rest info).fst_exec m n, n2Read]

/-- An order is for a session of the UE that the request is for. -/
theorem Orders.holds {o : Transfer.Order} (h : Orders n r o) :
    ∃ u, r.addressee? n.context = some u ∧ n.context.Holds u o.session := by
  obtain ⟨u, psi, found, session, -⟩ := exists_of_transferOrder h.2
  obtain ⟨service, -, later, -⟩ := h.1
  have id : r.component? 1 = some ((r.component? 1).getD "") := by
    unfold Request.component? at later ⊢
    have := (List.getElem?_eq_some_iff.1 later).1
    rw [List.getElem?_eq_getElem (by omega), Option.getD_some]
  refine ⟨u, ?_, Context.holds_of_findSession? session⟩
  unfold Request.addressee?
  rw [if_pos service, id]
  exact found

/-- The UE that another AMF took over is the one that the request is for. -/
theorem TakesOver.addressee {u : Nat} (h : TakesOver n r u) : r.addressee? n.context = some u := by
  obtain ⟨reaches, found, -⟩ := h
  obtain ⟨id, given, found⟩ := (reads_need _ _).exec_bind_eq_ok.1 found
  rw [exec_context_bind] at found
  unfold Request.addressee?
  rw [if_pos reaches.1, exec_need_eq_ok.1 given]
  exact exec_need_eq_ok.1 found

theorem reads_findSupi (supi : Option String) : Reads (findSupi supi) :=
  (reads_need _ _).bind fun _ => reads_context.bind fun _ => reads_need _ _

theorem eq_of_findSupi {supi : Option String} {u : Nat}
    (found : ((findSupi supi).exec n).1 = .ok u) : supi.bind n.context.findSupi? = some u := by
  obtain ⟨supi, given, found⟩ := (reads_need _ _).exec_bind_eq_ok.1 found
  rw [exec_context_bind] at found
  rw [exec_need_eq_ok.1 given]
  exact exec_need_eq_ok.1 found

theorem dispatch_cases (resources : List (String × (Request → Procedure Response))) (i : Nat)
    (r : Request) (n : Node) :
    (∃ fault, (dispatch resources i r).exec n = (.error fault, n)) ∨
    ∃ e ∈ resources, r.component? i = some e.1 ∧ r.method = "POST" ∧
      (dispatch resources i r).exec n = (e.2 r).exec n := by
  unfold dispatch
  cases found : (r.component? i).bind fun name => valueOf name resources with
  | none => exact .inl ⟨_, rfl⟩
  | some handler =>
    obtain ⟨name, component, value⟩ := Option.bind_eq_some_iff.1 found
    simp only [requirePost]
    split
    · rename_i post
      exact .inr ⟨(name, handler), mem_of_valueOf value, component, post, rfl⟩
    · exact .inl ⟨_, rfl⟩

/-- A request is dealt with by a handler of a resource that is none of transfers, and no report of
the outcome of a relocation. -/
inductive Notifies (r : Request) : (Request → Procedure Response) → Prop
  | relocation : Notifies r relocation
  | sessionStatus (service : r.service = Api.callback)
      (resource : r.component? 1 = some Api.sessionStatus) (post : r.method = "POST") :
      Notifies r sessionStatus
  | deregistration (service : r.service = Api.callback)
      (resource : r.component? 1 = some Api.deregistration) (post : r.method = "POST") :
      Notifies r deregistration
  | subscriberData (service : r.service = Api.callback)
      (resource : r.component? 1 = some Api.subscriberData) (post : r.method = "POST") :
      Notifies r subscriberData

/-- **Where a request is routed**: it fails at once, or is dealt with as one for a resource that it
reaches, or as a notification. -/
theorem route_cases (r : Request) (n : Node) :
    (∃ fault, (route r).exec n = (.error fault, n)) ∨
    (Reaches r Api.messages ∧ (route r).exec n = (transfer r).exec n) ∨
    (Reaches r Api.transferUpdate ∧ (route r).exec n = (relocationUpdate r).exec n) ∨
    ¬Reaches r Api.transferUpdate ∧
      ∃ handler, Notifies r handler ∧ (route r).exec n = (handler r).exec n := by
  unfold route
  split
  · rename_i service
    split
    · rename_i contexts
      obtain failed | ⟨e, mem, component, post, same⟩ := dispatch_cases communicationResources 2 r n
      · exact .inl failed
      · have reaches : Reaches r e.1 := ⟨service, contexts, component, post⟩
        rw [same]
        simp only [communicationResources, List.mem_cons, List.not_mem_nil, or_false] at mem
        obtain rfl | rfl | rfl := mem
        · exact .inr (.inl ⟨reaches, rfl⟩)
        · refine .inr (.inr (.inr ⟨fun update => ?_, _, .relocation, rfl⟩))
          exact absurd (reaches.unique update) (by decide)
        · exact .inr (.inr (.inl ⟨reaches, rfl⟩))
    · exact .inl ⟨_, rfl⟩
  · split
    · rename_i other service
      obtain failed | ⟨e, mem, component, post, same⟩ := dispatch_cases callbackResources 1 r n
      · exact .inl failed
      · rw [same]
        refine .inr (.inr (.inr ⟨fun update => other update.1, e.2, ?_, rfl⟩))
        simp only [callbackResources, List.mem_cons, List.not_mem_nil, or_false] at mem
        obtain rfl | rfl | rfl := mem
        · exact .sessionStatus service component post
        · exact .deregistration service component post
        · exact .subscriberData service component post
    · exact .inl ⟨_, rfl⟩

/-- How a request ends: a transfer is parked, with its location in the answer, or it comes to acts
of a kind and is not answered as accepted. -/
def Ends (A : Act → Prop) (r : Request) (n : Node) (result : Except Fault Response × Node) : Prop :=
  (∃ o s p response, Orders n r o ∧ n.context.sessions.get? o.session = some s ∧
    o.Asks p ∧ result.1 = .ok response ∧ response.status = .accepted ∧
    response.location = some p.location ∧ Step (.park s.ue p) n result.2) ∨
  (∀ response, result.1 = .ok response → response.status ≠ .accepted) ∧ Course A n result.2

theorem Ends.of_error {fault : Fault} : Ends A r n (.error fault, n) := by
  refine .inr ⟨fun response h => ?_, .refl⟩
  cases h

/-- A request for a transfer. -/
theorem transfer_ends (reaches : Reaches r Api.messages)
    (tell : ∀ o s, Orders n r o → n.context.sessions.get? o.session = some s →
      ∀ q : Ngap.Request, q.isDeregistration = false → A (.tell s.ue q))
    (setUp : ∀ o, Orders n r o → o.kind = .setup → A (.setUp o.session) ∧ A (.holdSetup o.session))
    (waits : ∀ o s, Orders n r o → n.context.sessions.get? o.session = some s →
      n.context.established s.ue = false → A (.holdCommand o.session))
    (remove : ∀ o, Orders n r o → A (.remove o.session))
    (refuse : ∀ o s, Orders n r o → n.context.sessions.get? o.session = some s →
      A (.refusePaging s.ue)) : Ends A r n ((transfer r).exec n) := by
  unfold transfer
  rw [(reads_transferOrder r).exec_bind]
  cases order : ((transferOrder r).exec n).1 with
  | error fault => exact .of_error
  | ok o =>
    have orders : Orders n r o := ⟨reaches, order⟩
    have ends := Transfer.run_ends o n (fun s => tell o s orders) (setUp o orders)
      (fun s => waits o s orders) (fun _ => remove o orders) fun s => refuse o s orders
    simp only
    rw [exec_bind]
    generalize (Transfer.run o).exec n = result at ends
    obtain ⟨outcome, m⟩ := result
    obtain ⟨s, p, session, asks, rfl, step⟩ | ⟨done, course⟩ := ends
    · exact .inl ⟨o, s, p, _, orders, session, asks, rfl, rfl, rfl, step⟩
    · refine .inr ⟨fun response h => ?_, ?_⟩
      · cases outcome with
        | error fault => cases h
        | ok x =>
          cases h
          show x.status ≠ .accepted
          rw [done x rfl]
          decide
      · cases outcome <;> exact course

/-- A request that is answered as dealt with. -/
theorem Ends.of_course {α : Type} {p : Procedure α} {f : α → Response}
    (unaccepted : ∀ a, (f a).status ≠ .accepted) (course : Course A n (p.exec n).2) :
    Ends A r n ((do return f (← p)).exec n) := by
  rw [exec_bind]
  generalize p.exec n = result at course
  obtain ⟨fault | a, m⟩ := result
  · exact .inr ⟨fun response h => (by cases h), course⟩
  · refine .inr ⟨fun response h => ?_, course⟩
    cases h
    exact unaccepted a

/-- What goes before is read only, so a request ends as what follows does. -/
theorem Ends.read {α : Type} {p : Procedure α} {f : α → Procedure Response} (reads : Reads p)
    (rest : ∀ a, (p.exec n).1 = .ok a → Ends A r n ((f a).exec n)) : Ends A r n ((p >>= f).exec n) := by
  rw [reads.exec_bind]
  generalize (p.exec n).1 = outcome at rest
  obtain fault | a := outcome
  · exact .of_error
  · exact rest a rfl

/-- A report of the outcome of a relocation. -/
theorem relocationUpdate_ends (reaches : Reaches r Api.transferUpdate) (ask : ∀ q, A (.ask q))
    (detach : ∀ u response, TakesOver n r u → ((relocationUpdate r).exec n).1 = .ok response →
      response.status = .ok → response.location = none → A (.detach u)) :
    Ends A r n ((relocationUpdate r).exec n) := by
  revert detach
  unfold relocationUpdate
  rw [(constant_parse _ r _).reads.exec_bind]
  cases parsed : ((parse r "UeRegStatusUpdateReqData" : Procedure Document.StatusUpdate).exec n).1 with
  | error fault => exact fun _ => .of_error
  | ok b =>
    intro detach
    refine .of_course (f := fun answer => .ofDocument .ok answer) (fun _ => nofun) ?_
    refine Relocation.update_course ask fun u answer found status done => ?_
    refine detach u (.ofDocument .ok answer) ⟨reaches, found, b, parsed, status⟩ ?_ rfl rfl
    simp only
    rw [exec_bind]
    generalize (Relocation.update (r.component? 1) b).exec n = result at done
    obtain ⟨outcome, m⟩ := result
    subst done
    rfl

/-- A request that reaches no resource of transfers, and reports no outcome of a relocation. -/
theorem notification_ends {handler : Request → Procedure Response} (notifies : Notifies r handler)
    (ask : ∀ q, A (.ask q))
    (released : r.service = Api.callback → r.component? 1 = some Api.sessionStatus →
      r.method = "POST" → ∀ u psi id, (r.component? 0).bind n.context.findSupi? = some u →
        n.context.findSession? u psi = some id → A (.record id) ∧ A (.remove id))
    (deregistered : r.service = Api.callback → r.component? 1 = some Api.deregistration →
      ∀ u, (r.component? 0).bind n.context.findSupi? = some u →
        (∀ q, A (.tell u q)) ∧ A (.deregister u) ∧ A (.mark u))
    (modified : r.service = Api.callback → r.component? 1 = some Api.subscriberData →
      ∀ u, (∀ q, A (.tell u q)) ∧ A (.deregister u) ∧ A (.mark u) ∧ A (.setPolicy u)) :
    Ends A r n ((handler r).exec n) := by
  cases notifies with
  | relocation =>
    unfold relocation
    refine .read (constant_parse _ r _).reads fun b _ => ?_
    refine .of_course (f := fun answer => .ofDocument .ok answer) (fun _ => nofun) ?_
    rw [Relocation.reads_request _ b n]
    exact .refl
  | sessionStatus service resource post =>
    unfold sessionStatus
    refine .read (reads_need _ _) fun psi _ => ?_
    refine .read (constant_parse _ r _).reads fun b _ => ?_
    refine .read (reads_need _ _) fun info _ => ?_
    refine .read (reads_findSupi _) fun u found => ?_
    refine .read reads_context fun c is => ?_
    refine .read (reads_need _ _) fun id session => ?_
    cases is
    obtain ⟨record, remove⟩ :=
      released service resource post u psi id (eq_of_findSupi found) (exec_need_eq_ok.1 session)
    exact .of_course (f := fun _ => { status := .noContent }) (fun _ => nofun)
      (Release.input_course record remove)
  | deregistration service resource =>
    unfold deregistration
    refine .read (constant_parse _ r _).reads fun b _ => ?_
    refine .read (reads_findSupi _) fun u found => ?_
    obtain ⟨tell, keep, mark⟩ := deregistered service resource u (eq_of_findSupi found)
    exact .of_course (f := fun _ => { status := .noContent }) (fun _ => nofun)
      (.inl (Deregistration.notify_chain (fun q => ⟨tell q, rfl⟩) ⟨keep, rfl⟩ ⟨mark, rfl⟩
        fun q => ⟨ask q, rfl⟩))
  | subscriberData service resource =>
    have modified := modified service resource
    unfold subscriberData
    refine .read (constant_parse _ r _).reads fun b _ => ?_
    exact .of_course (f := fun _ => { status := .noContent }) (fun _ => nofun)
      (.inl (Subscription.notify_chain (fun u => ⟨(modified u).2.2.2, rfl⟩)
        (fun u q => ⟨(modified u).1 q, rfl⟩) (fun u => ⟨(modified u).2.1, rfl⟩)
        (fun u => ⟨(modified u).2.2.1, rfl⟩) fun q => ⟨ask q, rfl⟩))

theorem ofFault_ne_accepted (fault : Fault) : (Response.ofFault fault).status ≠ .accepted := by
  show fault.status ≠ .accepted
  cases fault with
  | change why => cases why <;> exact nofun
  | _ => exact nofun

theorem handle_of_ok {response : Response} (done : ((route r).exec n).1 = .ok response) :
    (handle r n).1 = .answered response := by
  unfold handle
  generalize (route r).exec n = result at done
  obtain ⟨outcome, m⟩ := result
  subst done
  rfl

/-- A request that fails is answered with its fault, or broken off. -/
theorem handle_of_error {fault : Fault} (failed : ((route r).exec n).1 = .error fault) :
    (handle r n).1 = .answered (.ofFault fault) ∨ ∃ ie, (handle r n).1 = .brokenOff ie := by
  unfold handle
  generalize (route r).exec n = result at failed
  obtain ⟨outcome, m⟩ := result
  subst failed
  cases fault with
  | unexpectedIe ie => exact .inr ⟨ie, rfl⟩
  | _ => exact .inl rfl

/-- Answering a request does not change the state any more. -/
theorem handle_snd (r : Request) (n : Node) : (handle r n).2 = ((route r).exec n).2 := by
  unfold handle
  split <;> rename_i h <;> rw [h]

/-- A request is answered as accepted only by its handler. -/
theorem accepted_iff {location : Option String} :
    (handle r n).1.Answers .accepted location ↔ ∃ response, ((route r).exec n).1 = .ok response ∧
      response.status = .accepted ∧ response.location = location := by
  cases outcome : ((route r).exec n).1 with
  | ok response =>
    unfold Reply.Answers
    rw [handle_of_ok outcome]
    constructor
    · rintro ⟨_, h, status, location⟩
      cases h
      exact ⟨response, rfl, status, location⟩
    · rintro ⟨_, h, status, location⟩
      cases h
      exact ⟨response, rfl, status, location⟩
  | error fault =>
    unfold Reply.Answers
    constructor
    · rintro ⟨response, h, status, -⟩
      obtain answered | ⟨ie, broken⟩ := handle_of_error outcome
      · rw [answered] at h
        cases h
        exact absurd status (ofFault_ne_accepted fault)
      · rw [broken] at h
        cases h
    · rintro ⟨_, h, _⟩
      cases h

end Routing

/-- **What a request comes to**: a transfer is parked and the request is answered as accepted, or it
is not answered so and the request does what else it may. -/
theorem Event.request_cases (r : Request) (n : Node) :
    (∃ o s p, Routing.Orders n r o ∧ n.context.sessions.get? o.session = some s ∧
      o.Asks p ∧ (Routing.handle r n).1.Answers .accepted (some p.location) ∧
      Step (.park s.ue p) n ((Event.request r).handle n).2) ∨
    (∀ location, ¬(Routing.handle r n).1.Answers .accepted location) ∧
      Course ((Event.request r).Does n) n ((Event.request r).handle n).2 := by
  have request : (Event.request r).IsRequest := ⟨r, rfl⟩
  have ends : Routing.Ends ((Event.request r).Does n) r n ((Routing.route r).exec n) := by
    obtain ⟨fault, failed⟩ | ⟨reaches, same⟩ | ⟨reaches, same⟩ | ⟨plain, handler, notifies, same⟩ :=
      Routing.route_cases r n
    · rw [failed]
      exact .of_error
    · have plain : ¬Routing.Reaches r Api.transferUpdate := fun update =>
        absurd (reaches.unique update) (by decide)
      rw [same]
      refine Routing.transfer_ends reaches (fun o s orders session q plain => ?_)
        (fun o orders kind => ?_)
        (fun o s orders session unready => ?_) (fun o orders => ?_) fun o s orders session => ?_
      all_goals obtain ⟨u, addressed, holds⟩ := orders.holds
      · exact .of_addressee (fun is => absurd (plain.symm.trans is) Bool.false_ne_true) addressed
          (holds.means session) fun _ => trivial
      · exact ⟨.of_addressee ⟨o, orders, kind, rfl⟩ addressed holds fun _ => trivial,
          .of_addressee ⟨o, orders, kind, rfl⟩ addressed holds fun _ => trivial⟩
      · refine .of_addressee (.inl request) addressed holds fun _ t there => ?_
        rw [session] at there
        cases there
        exact unready
      · exact .of_addressee (.inl ⟨r, rfl, plain⟩) addressed holds fun _ => trivial
      · exact .of_addressee request addressed (holds.means session) fun _ => trivial
    · rw [same]
      refine Routing.relocationUpdate_ends reaches .ask ?_
      intro u response takesOver done status location
      refine .of_addressee ⟨r, ⟨rfl, response, Routing.handle_of_ok ?_, status, location⟩, takesOver⟩
        takesOver.addressee rfl fun _ => trivial
      rw [same, done]
    · have addressed : ∀ {u}, r.service = Api.callback →
          (r.component? 0).bind n.context.findSupi? = some u →
            (Event.request r).addressee? n.context = some u :=
        fun service found => (if_neg (by rw [service]; decide)).trans found
      rw [same]
      refine Routing.notification_ends notifies .ask (fun service _ _ u psi id found session => ?_)
        (fun service resource u found => ?_) fun service resource u => ?_
      · have holds := Context.holds_of_findSession? session
        have addressed := addressed service found
        exact ⟨.of_addressee (.inl ⟨r, rfl, plain⟩) addressed holds fun _ => trivial,
          .of_addressee (.inl ⟨r, rfl, plain⟩) addressed holds fun _ => trivial⟩
      · have addressed := addressed service found
        have notice : (Event.request r).IsNotice := ⟨r, rfl, service, .inl resource⟩
        exact ⟨fun q => .of_addressee (fun _ => .inl notice) addressed (.inl rfl) fun _ => trivial,
          .of_addressee notice addressed rfl fun _ => trivial,
          .of_addressee request addressed rfl fun _ => trivial⟩
      · have notice : (Event.request r).IsNotice := ⟨r, rfl, service, .inr resource⟩
        have any : ∀ {a : Act}, ¬(Event.request r).IsModification → ∀ u,
            (Event.request r).addressee? n.context = some u → a.About n.context u :=
          fun other => absurd ⟨r, rfl, service, resource⟩ other
        exact ⟨fun q => ⟨fun _ => .inl notice, any, .inl rfl, fun _ => trivial⟩,
          ⟨notice, any, .inl rfl, fun _ => trivial⟩, ⟨request, any, .inl rfl, fun _ => trivial⟩,
          request, any, .inl rfl, fun _ => trivial⟩
  have state : ((Event.request r).handle n).2 = ((Routing.route r).exec n).2 := Routing.handle_snd r n
  rw [state]
  obtain ⟨o, s, p, response, orders, session, asks, done, status, location, step⟩ | ⟨refused, course⟩ :=
    ends
  · exact .inl ⟨o, s, p, orders, session, asks,
      Routing.accepted_iff.2 ⟨response, done, status, location⟩, step⟩
  · refine .inr ⟨fun location answers => ?_, course⟩
    obtain ⟨response, done, status, -⟩ := Routing.accepted_iff.1 answers
    exact refused response done status

/-! ## Other events -/

namespace Event

/-- A UE that is unknown, or for which there is no room, gets no leg. -/
theorem handle_connected_of_none {u : Nat} {gnb ran : UInt64} {rat : RatType}
    (refused : n.context.ues.contains u = false ∨ n.context.addLeg gnb ran = none) :
    ((connected u gnb ran rat).handle n).2 = n := by
  show ((connect u gnb ran rat).exec n).2 = n
  unfold connect
  rw [exec_context_bind]
  obtain unknown | full := refused
  · rw [if_neg (by rw [unknown]; exact Bool.false_ne_true)]
    rfl
  · split
    · rw [full]
      rfl
    · rfl

/-- The former leg of a UE is given up for a new one. -/
theorem exec_replaceLeg (u k : Nat) (rat : RatType) (n : Node) :
    (replaceLeg u k rat).exec n = (.ok (), n.relocate u k rat) := by
  unfold replaceLeg
  rw [exec_context_bind]
  cases leg : n.context.legOf? u with
  | none =>
    have freed : n.relocate u k rat =
        ((n.change fun _ => n.context).change (·.serve u k rat)).count .ranUes := by
      unfold Node.relocate
      rw [leg, ← Context.freeLeg_of_none leg]
      rfl
    rw [freed]
    rfl
  | some former =>
    have freed : n.relocate u k rat =
        (((n.uncount .ranUes).change fun _ => n.context.removeLeg former.1).change
          (·.serve u k rat)).count .ranUes := by
      unfold Node.relocate
      rw [leg, ← Context.freeLeg_of_some leg]
      rfl
    rw [freed]
    rfl

/-- A paging that is answered ends, and what was parked is delivered if its session still exists. -/
theorem answered_of_some {u : Nat} {p : Parked} (parked : n.context.parked.get? u = some p) :
    (Paging.answered u).exec n =
      if n.context.sessions.contains p.session then
        (do Paging.deliver u p; return true : Procedure Bool).exec (n.answer u)
      else (.ok false, n.answer u) := by
  have taken : n.answer u = if n.context.timers.isRunning .t3513 u then
      (n.change fun c => c.quitPaging u (c.timers.stop .t3513 u)).count .pagingSuccesses
      else n.change fun c => c.quitPaging u (c.timers.stop .t3513 u) := by
    unfold Node.answer Table.contains
    rw [parked]
    rfl
  unfold Paging.answered
  rw [exec_context_bind, exec_change_bind, parked, taken]
  simp only [exec_change_bind]
  split <;> split <;> rfl

theorem answered_snd (u : Nat) (n : Node) :
    ((Paging.answered u).exec n).2 = match n.context.parked.get? u with
      | none => n.answer u
      | some p =>
        if n.context.sessions.contains p.session then ((Paging.deliver u p).exec (n.answer u)).2
        else n.answer u := by
  cases parked : n.context.parked.get? u with
  | none =>
    have idle : n.answer u = n.change (Paging.endPaging · u) := by
      unfold Node.answer Table.contains
      rw [parked]
      simp only [Node.change, Paging.quitPaging_of_none parked]
      rfl
    unfold Paging.answered
    rw [exec_context_bind, exec_change_bind, parked, idle]
    rfl
  | some p =>
    rw [answered_of_some parked]
    simp only
    split
    · exact exec_bind_pure_snd (Paging.deliver u p) (fun _ => true) _
    · rfl

/-- **A UE that gets a new leg is no longer paged, and what was parked for it is delivered** if its
session still exists. -/
theorem handle_connected {u k : Nat} {gnb ran : UInt64} {rat : RatType} {c : Context}
    (known : n.context.ues.contains u = true) (room : n.context.addLeg gnb ran = some (k, c)) :
    ((connected u gnb ran rat).handle n).2 = match n.context.parked.get? u with
      | none => n.connect c u k rat
      | some p =>
        if n.context.sessions.contains p.session then
          ((Paging.deliver u p).exec (n.connect c u k rat)).2
        else n.connect c u k rat := by
  have same : n.context.SameButLegs ((n.change fun _ => c).relocate u k rat).context :=
    (Context.same_addLeg room).trans (Node.same_relocate (n := n.change fun _ => c))
  show ((connect u gnb ran rat).exec n).2 = _
  unfold connect
  rw [exec_context_bind, if_pos known, room]
  simp only [exec_change_bind]
  rw [exec_bind_of_ok (exec_replaceLeg u k rat _), exec_attempt, answered_snd, same.parked,
    same.sessions]
  rfl

/-- **A session that is confirmed gives up its setup request**, which leaves if there is a leg. -/
theorem handle_sessionConfirmed {u id : Nat} {psi : UInt8} (uri smRef : String)
    (found : n.context.findSession? u psi = some id) :
    Step (.confirm id) n ((sessionConfirmed u psi uri smRef).handle n).2 := by
  obtain ⟨_, s, _, _, session, _⟩ := Context.exists_of_findSession? found
  have confirmed : (n.change (·.confirm id uri smRef)).context.sessions.get? id =
      some { s with smUri := some uri, smRef := some smRef } := by
    exact Table.get?_modify_of_some session
  show Step _ n ((confirm u psi uri smRef).exec n).2
  unfold confirm
  rw [exec_context_bind, found]
  simp only [exec_change_bind, exec_attempt]
  change Step _ n ((Delivery.releaseSetup id).exec (n.change (·.confirm id uri smRef))).2
  unfold Delivery.releaseSetup
  rw [exec_bind_of_ok (exec_session_of_some confirmed)]
  cases held : s.heldSetup with
  | none => exact .confirm session held
  | some pdu =>
    simp only [exec_change_bind, exec_context_bind]
    split
    · rename_i idle
      exact .confirmIdle session held idle
    · rename_i k l leg
      rw [exec_bind_pure_snd (emitOn l pdu) fun _ => true, exec_emitOn]
      exact .confirmHeld session held leg

theorem handle_sessionConfirmed_of_none {u : Nat} {psi : UInt8} (uri smRef : String)
    (found : n.context.findSession? u psi = none) :
    ((sessionConfirmed u psi uri smRef).handle n).2 = n := by
  show ((confirm u psi uri smRef).exec n).2 = n
  unfold confirm
  rw [exec_context_bind, found]
  rfl

/-- The leg of a UE goes, if it has one. -/
theorem handle_released (u : Nat) (n : Node) :
    ((released u).handle n).2 = n ∨ Step (.disconnect u) n ((released u).handle n).2 := by
  show ((disconnect u).exec n).2 = n ∨ Step _ n ((disconnect u).exec n).2
  unfold disconnect
  rw [exec_context_bind]
  split
  · exact .inl rfl
  · rename_i leg
    exact .inr (.disconnect leg)

theorem released_course (u : Nat) (n : Node) :
    Course (Does (released u) n) n ((released u).handle n).2 := by
  obtain same | step := handle_released u n
  · rw [same]
    exact .refl
  · exact .of_step (a := .disconnect u) (.of_addressee rfl rfl rfl fun _ => trivial) step

theorem releaseCommands_chain {A : Act → Prop} :
    ∀ (ids : List Nat) (n : Node),
      (∀ id ∈ ids, ∀ u psi, n.context.sessionKey id = some (u, psi) →
        ∀ r : Ngap.Request, r.isDeregistration = false → A (.tell u r)) →
      (∀ id ∈ ids, A (.dropCommand id)) → Chain A n ((releaseCommands ids).exec n).2
  | [], _, _, _ => .refl
  | id :: rest, n, tell, drop => by
    have first : Chain A n ((attempt (Delivery.releaseCommand id)).exec n).2 :=
      Delivery.releaseCommand_chain
        (fun s session => tell id List.mem_cons_self s.ue s.psi (Context.sessionKey_of_some session))
        (drop id List.mem_cons_self)
    refine .bind first fun _ _ => releaseCommands_chain rest _ (fun i mem u psi key => ?_)
      fun i mem => drop i (List.mem_cons_of_mem _ mem)
    exact tell i (List.mem_cons_of_mem _ mem) u psi (first.sessionKey key)

/-- The first setup on a leg is answered, and the commands that waited for it leave. -/
theorem setupAnswered_course (u : Nat) (n : Node) :
    Course (Does (setupAnswered u) n) n ((setupAnswered u).handle n).2 := by
  refine .inl ?_
  show Chain _ n ((establish u).exec n).2
  unfold establish
  rw [exec_context_bind]
  split
  · exact .refl
  · rename_i leg
    rw [exec_change_bind, exec_context_bind]
    refine (Chain.of_step ⟨.of_addressee rfl rfl rfl fun _ => trivial, rfl⟩ (.answerSetup leg)).trans ?_
    split
    · split
      · exact .refl
      · rename_i x known
        have known : n.context.ues.get? u = some x := known
        have holds : ∀ id ∈ x.sessions, n.context.Holds u id :=
          fun id mem => .inl ⟨_, Context.sessionIds_of_some known, mem⟩
        refine releaseCommands_chain _ _ (fun id mem v psi key r plain => ?_) fun id mem => ?_
        · exact ⟨.of_addressee (fun is => absurd (plain.symm.trans is) Bool.false_ne_true) rfl
            (.inr ⟨id, psi, holds id mem, key⟩) fun _ => trivial, rfl⟩
        · exact ⟨.of_addressee ⟨u, rfl⟩ rfl (holds id mem) fun _ => trivial, rfl⟩
    · exact .refl

/-- A release that is confirmed is recorded, or completed. -/
theorem recordRelease_course {u : Nat} {psi : UInt8} {i : ReleaseInput} {A : Act → Prop} (n : Node)
    (release : ∀ id, n.context.findSession? u psi = some id → A (.record id) ∧ A (.remove id)) :
    Course A n ((recordRelease u psi i).exec n).2 := by
  unfold recordRelease
  rw [exec_context_bind]
  split
  · exact .refl
  · rename_i found
    exact Release.input_course (release _ found).1 (release _ found).2

/-- **What a new connection comes to**: nothing, or the new leg and then the delivery of what was
parked. -/
theorem connected_chain (u : Nat) (gnb ran : UInt64) (rat : RatType) (n : Node) :
    ((connected u gnb ran rat).handle n).2 = n ∨
    ∃ m, Step (.connect u) n m ∧
      Chain (fun a => Does (connected u gnb ran rat) n a ∧ a.quiet) m
        ((connected u gnb ran rat).handle n).2 := by
  have connects : Connects (connected u gnb ran rat) u := ⟨gnb, ran, rat, rfl⟩
  cases known : n.context.ues.contains u with
  | false => exact .inl (handle_connected_of_none (.inl known))
  | true =>
    cases room : n.context.addLeg gnb ran with
    | none => exact .inl (handle_connected_of_none (.inr room))
    | some added =>
      refine .inr ⟨n.connect added.2 u added.1 rat, .connect known room, ?_⟩
      rw [handle_connected known room]
      cases parked : n.context.parked.get? u with
      | none => exact .refl
      | some p =>
        have holds : n.context.Holds u p.session := .inr ⟨p, parked, rfl⟩
        simp only
        split
        · refine Paging.deliver_chain (fun s session r plain => ?_) ?_ fun _ => ?_
          · rw [(Node.same_connect room).sessions] at session
            exact ⟨.of_addressee (fun is => absurd (plain.symm.trans is) Bool.false_ne_true) rfl
              (holds.means session) fun _ => trivial, rfl⟩
          · intro nas n2 payload
            have setsUp : SetsUp (.connected u gnb ran rat) n p.session :=
              ⟨p, nas, n2, parked, payload, rfl⟩
            exact ⟨⟨.of_addressee setsUp rfl holds fun _ => trivial, rfl⟩,
              .of_addressee setsUp rfl holds fun _ => trivial, rfl⟩
          · exact ⟨.of_addressee (.inr ⟨u, connects⟩) rfl holds fun ⟨_, is⟩ => (nomatch is), rfl⟩
        · exact .refl

theorem connected_course (u : Nat) (gnb ran : UInt64) (rat : RatType) (n : Node) :
    Course (Does (connected u gnb ran rat) n) n ((connected u gnb ran rat).handle n).2 := by
  obtain same | ⟨m, step, chain⟩ := connected_chain u gnb ran rat n
  · rw [same]
    exact .refl
  · have connects : Does (connected u gnb ran rat) n (.connect u) :=
      .of_addressee ⟨gnb, ran, rat, rfl⟩ rfl rfl fun _ => trivial
    exact (Course.of_step connects step).after chain

/-- **An event comes to acts that it does, at most one of which touches a parked transfer.** -/
theorem does_course (e : Event) (n : Node) : Course (e.Does n) n (e.handle n).2 := by
  cases e with
  | request r =>
    obtain ⟨o, s, p, orders, session, asks, accepted, step⟩ | ⟨_, course⟩ := request_cases r n
    · obtain ⟨u, addressed, holds⟩ := orders.holds
      exact .of_step (a := .park s.ue p) (.of_addressee ⟨r, o, ⟨rfl, accepted⟩, orders, asks⟩ addressed
        (holds.means session) fun _ => trivial) step
    · exact course
  | timer kind u g =>
    cases kind with
    | t3513 =>
      exact Paging.expired_course (.of_addressee ⟨g, rfl⟩ rfl rfl fun _ => trivial)
        (.of_addressee ⟨g, rfl⟩ rfl rfl fun _ => trivial)
    | t3522 =>
      exact .inl (Deregistration.expired_chain
        (fun r => ⟨.of_addressee (fun _ => .inr ⟨u, g, rfl⟩) rfl (.inl rfl) fun _ => trivial, rfl⟩)
        ⟨.of_addressee ⟨g, rfl⟩ rfl rfl fun _ => trivial, rfl⟩)
  | connected u gnb ran rat => exact connected_course u gnb ran rat n
  | released u => exact released_course u n
  | setupAnswered u => exact setupAnswered_course u n
  | sessionConfirmed u psi uri smRef =>
    cases found : n.context.findSession? u psi with
    | none =>
      rw [handle_sessionConfirmed_of_none uri smRef found]
      exact .refl
    | some id =>
      exact .of_step (a := .confirm id) (.of_addressee ⟨u, psi, uri, smRef, rfl, found⟩ rfl
        (Context.holds_of_findSession? found) fun _ => trivial) (handle_sessionConfirmed uri smRef found)
  | n1Released u psi =>
    refine recordRelease_course n fun id found => ?_
    have holds := Context.holds_of_findSession? found
    exact ⟨.of_addressee (.inr ⟨u, psi, .inl rfl⟩) rfl holds fun _ => trivial,
      .of_addressee (.inr ⟨u, psi, .inl rfl⟩) rfl holds fun _ => trivial⟩
  | n2Released u psi =>
    refine recordRelease_course n fun id found => ?_
    have holds := Context.holds_of_findSession? found
    exact ⟨.of_addressee (.inr ⟨u, psi, .inr rfl⟩) rfl holds fun _ => trivial,
      .of_addressee (.inr ⟨u, psi, .inr rfl⟩) rfl holds fun _ => trivial⟩
  | shutdown => exact .refl

/-- **An event comes to acts that it may do, at most one of which touches a parked transfer.** -/
theorem handle_course (e : Event) (n : Node) : Course (e.May n) n (e.handle n).2 :=
  (e.does_course n).mono fun _ does => does.may

/-! ## Runs -/

theorem run_cons (e : Event) (es : List Event) (n : Node) :
    run (e :: es) n = run es (e.handle n).2 := rfl

theorem run_append (es fs : List Event) (n : Node) : run (es ++ fs) n = run fs (run es n) :=
  List.foldl_append

theorem run_concat (es : List Event) (e : Event) (n : Node) :
    run (es ++ [e]) n = (e.handle (run es n)).2 :=
  run_append es [e] n

/-- **What every step keeps, every run keeps.** -/
theorem run_keeps {P : Node → Prop} (step : ∀ a n n', Step a n n' → P n → P n') (es : List Event)
    {n : Node} (h : P n) : P (run es n) := by
  induction es generalizing n with
  | nil => exact h
  | cons e es ih =>
    exact ih ((handle_course e n).chain.keeps (fun a n n' _ => step a n n') h)

/-- The state of a run before the event of a number. -/
def stateAt (es : List Event) (n : Node) (k : Nat) : Node := run (es.take k) n

theorem stateAt_succ {es : List Event} {e : Event} {k : Nat} (h : es[k]? = some e) :
    stateAt es n (k + 1) = (e.handle (stateAt es n k)).2 := by
  unfold stateAt
  rw [List.take_add_one, h]
  exact run_concat (es.take k) e n

theorem stateAt_succ_of_none {es : List Event} {k : Nat} (h : es[k]? = none) :
    stateAt es n (k + 1) = stateAt es n k := by
  unfold stateAt
  rw [List.take_add_one, h]
  exact congrArg (run · n) (List.append_nil _)

end Event
end Amf
