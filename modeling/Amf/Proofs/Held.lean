import Amf.Proofs.Fate
import Amf.Proofs.Register

/-!
# Setup requests that are held back

A setup request is held back on a session that is not confirmed yet, encoded for the leg that its UE
has then; it leaves when the session is confirmed, on the leg that the UE has by then. So nothing is
held back as long as every session is confirmed before it is set up
(`Event.run_keeps_of_confirmed`), and in a context every run is such a one if every session that a
request may set up is confirmed (`Event.OnlyConfirmed.confirms`). If one is not, a request for it
holds a setup back (`Event.handle_held`), which the next one replaces.
-/

namespace Amf

open Context Procedure

variable {n n' : Node} {a : Act} {e : Event} {es : List Event} {u k : Nat}

/-! ## Sessions that hold nothing back -/

/-- The session lets its setup request go at most. -/
def Session.LetsGo (s t : Session) : Prop := t.heldSetup = s.heldSetup ∨ t.heldSetup = none

theorem Session.allows_letsGo : Session.Allows Session.LetsGo where
  self _ := .inl rfl
  compose s t r first second := by
    rcases second with same | gone
    · unfold LetsGo
      rw [same]
      exact first
    · exact .inr gone
  confirm _ _ _ := .inl rfl
  release _ := .inr rfl
  command _ _ := .inl rfl
  record _ i := by cases i <;> exact .inl rfl

namespace Context

variable {c c' : Context} {id : Nat}

/-- No session holds a setup request back. -/
def NothingHeld (c : Context) : Prop := ∀ id s, c.sessions.get? id = some s → s.heldSetup = none

/-- A session is confirmed, if it is there. -/
def Confirmed (c : Context) (id : Nat) : Prop :=
  ∀ s, c.sessions.get? id = some s → s.confirmed = true

/-- A session that is confirmed stays so. -/
theorem Confirmed.of_within (within : Table.Within Session.Ages c.sessions c'.sessions)
    (h : c.Confirmed id) : c'.Confirmed id := by
  intro t ht
  obtain ⟨s, hs, ages⟩ := within id t ht
  exact ages.2 (h s hs)

theorem NothingHeld.of_within (within : Table.Within Session.LetsGo c.sessions c'.sessions)
    (h : c.NothingHeld) : c'.NothingHeld := by
  intro id t ht
  obtain ⟨s, hs, same | gone⟩ := within id t ht
  · rw [same, h id s hs]
  · exact gone

end Context

/-- **Only a request that is held back anew is held back.** -/
theorem Step.nothingHeld (step : Step a n n') (other : ∀ id, a ≠ .holdSetup id)
    (h : n.context.NothingHeld) : n'.context.NothingHeld :=
  h.of_within (step.within Session.allows_letsGo fun id is => absurd is (other id))

theorem Context.Fresh.nothingHeld {c : Context} (h : c.Fresh) : c.NothingHeld :=
  fun id s hs => (h.sessions id s hs).2

/-! ## Runs that hold nothing back -/

namespace Event

/-- Every session that the event sets up is confirmed. -/
def SetsUpConfirmed (e : Event) (n : Node) : Prop := ∀ id, e.SetsUp n id → n.context.Confirmed id

/-- Every session that an event of a run sets up is confirmed by then. -/
def Confirms (es : List Event) (n : Node) : Prop :=
  ∀ (k : Nat) (e : Event), es[k]? = some e → e.SetsUpConfirmed (stateAt es n k)

theorem sessions_within (e : Event) (n : Node) :
    Table.Within Session.Ages n.context.sessions (e.handle n).2.context.sessions :=
  (e.handle_course n).chain.sessions_within

/-- **What every step keeps but one that holds a request back, an event keeps** if the sessions that
it sets up are confirmed. -/
theorem keeps_of_confirmed {P : Node → Prop}
    (step : ∀ a m m', (∀ id, a ≠ .holdSetup id) → Step a m m' → P m → P m')
    (confirmed : e.SetsUpConfirmed n) (h : P n) : P (e.handle n).2 := by
  -- Sessions stay confirmed in the course of the event.
  suffices both : P (e.handle n).2 ∧
      Table.Within Session.Ages n.context.sessions (e.handle n).2.context.sessions from both.1
  refine (e.handle_course n).chain.keeps
    (P := fun m => P m ∧ Table.Within Session.Ages n.context.sessions m.context.sessions) ?_
    ⟨h, .refl Session.Ages.refl⟩
  rintro a m m' may act ⟨hm, within⟩
  refine ⟨step a m m' ?_ act hm, within.trans Session.Ages.trans act.sessions_within⟩
  rintro id rfl
  cases act with
  | holdSetup session ue leg unconfirmed =>
    rw [(confirmed id may).of_within within _ session] at unconfirmed
    cases unconfirmed

/-- **What every step keeps but one that holds a request back, a run keeps** if every session is
confirmed before it is set up. -/
theorem run_keeps_of_confirmed {P : Node → Prop}
    (step : ∀ a m m', (∀ id, a ≠ .holdSetup id) → Step a m m' → P m → P m')
    (confirms : Confirms es n) (h : P n) : P (run es n) := by
  induction es generalizing n with
  | nil => exact h
  | cons e es ih =>
    refine ih (fun k e' at_ => ?_) (keeps_of_confirmed step (confirms 0 e rfl) h)
    exact confirms (k + 1) e' at_

/-! ## Contexts in which every run is such a one -/

/-- Every session that a request may set up is confirmed. -/
def OnlyConfirmed (n : Node) : Prop := ∀ r : Request, (request r).SetsUpConfirmed n

/-- A later state in which names and sessions are those of an earlier one. -/
structure Succeeds (n m : Node) : Prop where
  within : Table.Within Session.Ages n.context.sessions m.context.sessions
  findUe? : m.context.findUe? = n.context.findUe?
  listed : m.context.Listed

theorem Succeeds.refl (listed : n.context.Listed) : Succeeds n n :=
  ⟨.refl Session.Ages.refl, rfl, listed⟩

theorem Succeeds.step {m m' : Node} (h : Succeeds n m) (step : Step a m m') : Succeeds n m' :=
  ⟨h.within.trans Session.Ages.trans step.sessions_within, step.sameRegister.findUe?.trans h.findUe?,
    step.listed h.listed⟩

theorem Succeeds.event {m : Node} (h : Succeeds n m) (e : Event) : Succeeds n (e.handle m).2 :=
  (e.handle_course m).chain.keeps (fun _ _ _ _ step h => h.step step) h

/-- What a request asks for later it would have asked for before. -/
theorem Succeeds.orders {m : Node} {r : Request} {o : Transfer.Order} (h : Succeeds n m)
    (listed : n.context.Listed) (orders : Routing.Orders m r o) : Routing.Orders n r o := by
  obtain ⟨u, psi, ue, session, -, same⟩ := Routing.exists_of_transferOrder orders.2
  have key := sessionKey_of_within h.within (h.listed.findSession?_eq_some_iff.1 session)
  refine ⟨orders.1, same n ?_ (listed.findSession?_eq_some_iff.2 key)⟩
  rw [← h.findUe?, ue]

/-- Every session for which a setup is parked is confirmed. -/
def ParkedConfirmed (n : Node) : Prop :=
  ∀ u p nas n2, n.context.parked.get? u = some p → p.payload = .setup nas n2 →
    n.context.Confirmed p.session

/-- Only confirmed sessions are set up later. -/
theorem OnlyConfirmed.setsUpConfirmed {m : Node} (only : OnlyConfirmed n) (listed : n.context.Listed)
    (h : Succeeds n m) (parked : ParkedConfirmed m) (e : Event) : e.SetsUpConfirmed m := by
  intro id setsUp
  cases e with
  | request r =>
    obtain ⟨o, orders, kind, is⟩ := setsUp
    exact (only r id ⟨o, h.orders listed orders, kind, is⟩).of_within h.within
  | connected u =>
    obtain ⟨p, nas, n2, waits, payload, rfl⟩ := setsUp
    exact parked u p nas n2 waits payload
  | _ => exact setsUp.elim

/-- Setups are parked for confirmed sessions only. -/
theorem ParkedConfirmed.event (h : ParkedConfirmed n) (confirmed : e.SetsUpConfirmed n) :
    ParkedConfirmed (e.handle n).2 := by
  intro u p nas n2 waits payload
  refine Confirmed.of_within (sessions_within e n) ?_
  obtain ⟨⟨r, o, ⟨rfl, -⟩, orders, is, asks⟩, -⟩ | ⟨before, -⟩ := parks_or_stayed e waits
  · exact confirmed p.session ⟨o, orders, asks nas n2 payload, is⟩
  · exact h u p nas n2 before payload

/-- **Where every session that a request may set up is confirmed, every session is confirmed before
it is set up**, in every run. -/
theorem OnlyConfirmed.confirms (only : OnlyConfirmed n) (fresh : n.context.Fresh) (es : List Event) :
    Confirms es n := by
  suffices always : ∀ k, k ≤ es.length →
      Succeeds n (stateAt es n k) ∧ ParkedConfirmed (stateAt es n k) by
    intro k e at_
    obtain ⟨later, parked⟩ := always k (Nat.le_of_lt (List.getElem?_eq_some_iff.1 at_).1)
    exact only.setsUpConfirmed fresh.listed later parked e
  intro k
  induction k with
  | zero =>
    refine fun _ => ⟨.refl fresh.listed, fun u p nas n2 waits => ?_⟩
    change n.context.parked.get? u = some p at waits
    rw [fresh.parked] at waits
    cases waits
  | succ k ih =>
    intro le
    obtain ⟨later, parked⟩ := ih (by omega)
    have at_ := List.getElem?_eq_getElem (l := es) (i := k) (by omega)
    rw [stateAt_succ at_]
    exact ⟨later.event _, parked.event (only.setsUpConfirmed fresh.listed later parked _)⟩

/-- Nothing is ever held back: there is no room for a leg, or every session that a request may set
up is confirmed. -/
def NeverHolds (n : Node) : Prop := n.context.maxLegs = 0 ∨ OnlyConfirmed n

/-- **What every step keeps but one that holds a request back, every run keeps** where nothing is
ever held back. -/
theorem NeverHolds.run_keeps {P : Node → Prop} (never : NeverHolds n) (fresh : n.context.Fresh)
    (step : ∀ a m m', (∀ id, a ≠ .holdSetup id) → Step a m m' → P m → P m') (h : P n)
    (es : List Event) : P (run es n) := by
  obtain none | only := never
  · suffices all : P (run es n) ∧ (run es n).context.maxLegs = 0 ∧ (run es n).context.Numbered ∧
        ∀ u, (run es n).context.legOf? u = .none from all.1
    refine Event.run_keeps (P := fun m => P m ∧ m.context.maxLegs = 0 ∧ m.context.Numbered ∧
      ∀ u, m.context.legOf? u = .none) ?_ es ⟨h, none, fresh.numbered, fresh.idle⟩
    rintro a m m' act ⟨hm, none, numbered, idle⟩
    refine ⟨step a m m' ?_ act hm, act.maxLegs.trans none, act.numbered numbered,
      act.legless none numbered idle⟩
    rintro id rfl
    cases act with
    | holdSetup _ _ leg =>
      rw [idle] at leg
      cases leg
  · exact run_keeps_of_confirmed step (only.confirms fresh es) h

end Event

/-! ## A request that is held back -/

/-- The state in which a setup request was made for a leg and is held back on a session. -/
def Node.hold (n : Node) (leg session : Nat) (pdu : Octets) : Node :=
  (n.change (·.markSetup leg)).change (·.holdSetup session (some pdu))

section
variable {r : Request} {o : Transfer.Order} {s : Session} {x : Ue} {l : Leg}

theorem Node.get?_hold {id : Nat} (leg : Nat) (pdu : Octets)
    (session : n.context.sessions.get? id = some s) :
    (n.hold leg id pdu).context.sessions.get? id = some { s with heldSetup := some pdu } := by
  exact Table.get?_modify_of_some session

theorem Node.legOf?_hold {id : Nat} {pdu : Octets} (leg : n.context.legOf? u = some (k, l)) :
    (n.hold k id pdu).context.legOf? u = some (k, { l with setupSent := true }) := by
  obtain ⟨number, there⟩ := legOf?_eq_some_iff.1 leg
  refine legOf?_eq_some_iff.2 ⟨number, ?_⟩
  exact Table.get?_modify_of_some there

/-- A request that reaches the resource of transfers is dealt with as one. -/
theorem Routing.route_of_reaches (reaches : Reaches r Api.messages) (n : Node) :
    (route r).exec n = (transfer r).exec n := by
  obtain ⟨service, contexts, resource, post⟩ := reaches
  unfold route dispatch requirePost
  rw [if_pos service, if_pos contexts, resource, post]
  rfl

theorem Routing.handle_of_orders (orders : Orders n r o) :
    ((Event.request r).handle n).2 = ((Transfer.run o).exec n).2 := by
  refine (handle_snd r n).trans ?_
  rw [route_of_reaches orders.1]
  unfold transfer
  rw [(reads_transferOrder r).exec_bind, orders.2]
  exact exec_bind_pure_snd (Transfer.run o) _ n

/-- **A setup of a session that is not confirmed is held back**, and the leg is marked. -/
theorem Event.handle_held (orders : Routing.Orders n r o) (kind : o.kind = .setup)
    (session : n.context.sessions.get? o.session = some s) (ue : n.context.ues.get? s.ue = some x)
    (leg : n.context.legOf? s.ue = some (k, l)) (unconfirmed : s.confirmed = false) :
    ∃ nas n2, ((request r).handle n).2 =
      n.hold k o.session ((Delivery.setupRequest n.context x l s nas n2).octets l.ids) := by
  obtain ⟨u, psi, -, -, about, -⟩ := Routing.exists_of_transferOrder orders.2
  obtain ⟨n2, is⟩ := about kind
  refine ⟨o.n1.map (Nas.wrapSession s.psi), n2, (Routing.handle_of_orders orders).trans ?_⟩
  have connected : n.context.connection s.ue = .connected := by
    unfold connection
    rw [leg]
    rfl
  unfold Transfer.run
  rw [exec_context_bind, session, exec_bind_of_ok (exec_need_some s _ n), exec_context_bind, ue,
    exec_bind_of_ok (exec_need_some x _ n), kind]
  simp only
  unfold Transfer.setup Transfer.Order.needN2
  rw [is, exec_bind_of_ok (exec_need_some n2 _ n), exec_context_bind, connected]
  simp only
  rw [exec_bind_pure_snd (Delivery.setup o.session _ n2) fun _ => Transfer.Outcome.initiated]
  have waits : ¬s.confirmed = true := by
    rw [unconfirmed]
    exact Bool.false_ne_true
  unfold Delivery.setup
  rw [exec_bind_of_ok (exec_session_of_some session), exec_bind_of_ok (exec_ue_of_some ue),
    exec_bind_of_ok (exec_legOf_of_some leg), exec_context_bind, exec_change_bind, if_neg waits]
  rfl

end

/-- A request asks to set up a session that is not confirmed; nothing is parked for its UE. -/
structure Asks (n : Node) (r : Request) (o : Transfer.Order) (u : Nat) (psi : UInt8) : Prop where
  orders : Routing.Orders n r o
  kind : o.kind = .setup
  session : ∃ s, n.context.sessions.get? o.session = some s ∧ s.key = (u, psi) ∧ s.confirmed = false
  known : n.context.ues.contains u = true
  unparked : n.context.parked.get? u = none
  room : 0 < n.context.maxLegs
  listed : n.context.Listed
  numbered : n.context.Numbered

namespace Asks

variable {r : Request} {o : Transfer.Order} {psi : UInt8} {l : Leg}

/-- Where a request may be held back, one asks for that. -/
theorem exists_of_not_neverHolds (fresh : n.context.Fresh) (holds : ¬Event.NeverHolds n) :
    ∃ r o u psi, Asks n r o u psi := by
  obtain ⟨room, only⟩ := not_or.1 holds
  unfold Event.OnlyConfirmed Event.SetsUpConfirmed Confirmed at only
  simp only [Classical.not_forall] at only
  obtain ⟨r, id, ⟨o, orders, kind, rfl⟩, s, session, unconfirmed⟩ := only
  obtain ⟨u, psi, -, found, -⟩ := Routing.exists_of_transferOrder orders.2
  obtain ⟨x, _, ue, _⟩ := exists_of_findSession? found
  have key := fresh.listed.findSession?_eq_some_iff.1 found
  rw [sessionKey_of_some session] at key
  exact ⟨r, o, u, psi, orders, kind, ⟨s, session, Option.some.inj key, Bool.eq_false_iff.2 unconfirmed⟩,
    Table.contains_iff.2 ⟨x, ue⟩, by rw [fresh.parked]; rfl, Nat.pos_of_ne_zero room, fresh.listed,
    fresh.numbered⟩

/-- The request still asks for it after a step that leaves the session there, and not confirmed. -/
theorem of_step (h : Asks n r o u psi) (step : Step a n n') (stays : ∀ id, a ≠ .remove id)
    (session : ∃ s, n'.context.sessions.get? o.session = some s ∧ s.key = (u, psi) ∧
      s.confirmed = false) (unparked : n'.context.parked.get? u = none) : Asks n' r o u psi := by
  have same := step.sameSessions stays
  have listed := step.listed h.listed
  obtain ⟨v, psi', ue, found, -, transport⟩ := Routing.exists_of_transferOrder h.orders.2
  have key := h.listed.findSession?_eq_some_iff.1 found
  refine ⟨⟨h.orders.1, transport n' ?_ ?_⟩, h.kind, session, ?_, unparked, ?_, listed,
    step.numbered h.numbered⟩
  · rw [step.sameRegister.findUe?, ue]
  · rw [listed.findSession?_eq_some_iff, same.key, key]
  · rw [step.sameRegister.contains_ues, h.known]
  · rw [step.maxLegs]
    exact h.room

/-- The UE connects where there is no leg. -/
theorem connect (h : Asks n r o u psi) (ran : UInt64) (empty : n.context.legs = .empty) :
    let n' := ((Event.connected u 0 ran .nr).handle n).2
    Asks n' r o u psi ∧ n'.context.sessions = n.context.sessions ∧ n'.links = n.links ∧
      ∃ k l, n'.context.legOf? u = some (k, l) ∧ l.ids.ran = ran ∧
        ∀ j, n'.context.legs.contains j = true → j = k := by
  intro n'
  obtain ⟨k, c, added⟩ : ∃ k c, n.context.addLeg 0 ran = some (k, c) := by
    refine ⟨_, _, addLeg_eq_some_iff.2 ⟨?_, rfl, rfl⟩⟩
    rw [empty]
    exact h.room
  have is : n' = n.connect c u k .nr := by
    refine (Event.handle_connected h.known added).trans ?_
    rw [h.unparked]
  have sessions : n'.context.sessions = n.context.sessions := by
    rw [is]
    exact (Node.same_connect added).sessions
  have step : Step (.connect u) n n' := is ▸ .connect h.known added
  obtain ⟨l, leg, ids, -⟩ : ∃ l, (n.connect c u k .nr).context.legOf? u = some (k, l) ∧ _ :=
    Node.legOf?_connect h.numbered h.known added
  refine ⟨h.of_step step nofun (sessions ▸ h.session) ?_, sessions, ?_, k, l, is ▸ leg, ?_,
    fun j there => ?_⟩
  · rw [is, Node.parked_connect added, Table.get?_erase_self]
  · rw [is, Node.links_connect]
  · rw [ids]
  · rw [is] at there
    obtain ⟨m, hm⟩ := Table.contains_iff.1 there
    obtain ⟨last, -⟩ | ⟨-, m₀, h₀, -⟩ := Node.legs_connect added hm
    · exact last
    · rw [empty] at h₀
      cases h₀

/-- The request is held back on the session, and marks the leg. -/
theorem hold (h : Asks n r o u psi) (leg : n.context.legOf? u = some (k, l)) :
    let n' := ((Event.request r).handle n).2
    Asks n' r o u psi ∧ n'.links = n.links ∧
      (∀ j, n'.context.legs.contains j = n.context.legs.contains j) ∧
      (∃ l', n'.context.legOf? u = some (k, l') ∧ l'.ids = l.ids ∧ l'.setupSent = true) ∧
      ∃ s x nas n2, n'.context.sessions.get? o.session = some s ∧ s.heldSetup =
        some ((Delivery.setupRequest n.context x l s nas n2).octets l.ids) := by
  intro n'
  obtain ⟨s, session, key, unconfirmed⟩ := h.session
  obtain ⟨rfl, rfl⟩ := Prod.mk.inj key
  obtain ⟨x, ue⟩ := Table.contains_iff.1 h.known
  obtain ⟨nas, n2, is⟩ := Event.handle_held h.orders h.kind session ue leg unconfirmed
  have is : n' = n.hold k o.session _ := is
  have step : Step (.holdSetup o.session) n n' := is ▸ .holdSetup session ue leg unconfirmed
  have held := Node.get?_hold k ((Delivery.setupRequest n.context x l s nas n2).octets l.ids) session
  rw [← is] at held
  refine ⟨h.of_step step nofun ⟨_, held, rfl, unconfirmed⟩ ?_, ?_, fun j => ?_, ?_, _, x, nas, n2,
    held, rfl⟩
  · rw [is]
    exact h.unparked
  · rw [is]
    rfl
  · rw [is]
    exact Table.contains_modify
  · rw [is]
    exact ⟨_, Node.legOf?_hold leg, rfl, rfl⟩

/-- The only leg goes, and the session holds back what it held. -/
theorem release (h : Asks n r o u psi) (leg : n.context.legOf? u = some (k, l))
    (only : ∀ j, n.context.legs.contains j = true → j = k) :
    let n' := ((Event.released u).handle n).2
    Asks n' r o u psi ∧ n'.context.sessions = n.context.sessions ∧ n'.links = n.links ∧
      n'.context.legs = .empty := by
  intro n'
  have is : n' = (n.change fun c => (c.deassociate u).removeLeg k).uncount .ranUes := by
    show ((Event.disconnect u).exec n).2 = _
    unfold Event.disconnect
    rw [exec_context_bind, leg]
    rfl
  have step : Step (.disconnect u) n n' := is ▸ .disconnect leg
  have same : n.context.SameButLegs n'.context := is ▸ same_disconnect
  refine ⟨h.of_step step nofun (same.sessions ▸ h.session) (same.parked ▸ h.unparked), same.sessions,
    ?_, ?_⟩
  · rw [is]
    rfl
  · rw [is, Node.context_uncount, Node.context_change, legs_removeLeg]
    refine Table.ext_get? fun j => ?_
    rw [Table.get?_erase, Table.get?_empty]
    split
    · rfl
    · rename_i other
      rw [Option.eq_none_iff_forall_not_mem]
      intro m hm
      obtain ⟨m₀, h₀, -⟩ := drops_deassociate.legs j m hm
      exact other (only j (Table.contains_iff.2 ⟨m₀, h₀⟩))

/-- **The session is confirmed, and what it holds back leaves** on the leg that the UE has. -/
theorem confirm (h : Asks n r o u psi) (leg : n.context.legOf? u = some (k, l)) {s : Session}
    {pdu : Octets} (session : n.context.sessions.get? o.session = some s)
    (held : s.heldSetup = some pdu) (uri smRef : String) : ((Event.sessionConfirmed u psi uri smRef).handle n).2.links.offered =
      n.links.offered ++ [.radio (.toLeg l.gnb l.ids pdu)] := by
  obtain ⟨_, session', key, -⟩ := h.session
  rw [session] at session'
  cases session'
  have found : n.context.findSession? u psi = some o.session := by
    rw [h.listed.findSession?_eq_some_iff, sessionKey_of_some session, key]
  rw [(Event.handle_sessionConfirmed uri smRef found).offered_confirm session]
  obtain ⟨rfl, rfl⟩ := Prod.mk.inj key
  unfold setupsHeld
  rw [held, leg]

end Asks

end Amf
