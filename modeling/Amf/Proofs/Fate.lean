import Amf.Proofs.Store

/-!
# The fate of a parked transfer

A transfer that is parked has exactly one fate (`Event.parked_fate`): it rests in the store,
unchanged, until one event takes it from there, and what that event does with it is one of five
things (`Fate.Befalls`). A report of a failure is made for a transfer that is given up, and for
nothing else, so no transfer is both delivered and reported.

| fate | event | what happens |
| --- | --- | --- |
| `delivered` | the UE connects | the transfer is delivered to its session |
| `givenUp` | T3513 expires without retries left | its target is told, if it has one |
| `superseded` | a newer transfer for the UE is accepted | the newer one rests in its place |
| `sessionGone` | a session is removed | the transfer goes with it |
| `takenOver` | another AMF reports that it took the UE over | the transfer goes with the UE |

A transfer is told apart from every other one, equal ones included, by the number of the event that
parked it (`Ticket`).
-/

namespace Amf

open Context

/-- A message that reports that a transfer failed. -/
def Outbound.isReport : Outbound → Bool
  | .peer q => q.isReport
  | .radio _ => false

/-- The reports of failures that were handed to the transport, in order. -/
def Links.reports (l : Links) : List Outbound := l.offered.filter (·.isReport)

/-- What becomes of a transfer that is taken from the store. -/
inductive Fate where
  | delivered
  | givenUp
  | superseded
  | sessionGone
  | takenOver
  deriving DecidableEq

namespace Event

/-- The event is a request that is accepted, and parks a transfer for a UE. -/
def Parks (e : Event) (n : Node) (u : Nat) (p : Parked) : Prop :=
  e.Stores n p ∧ n.context.sessionKey p.session = some (u, p.psi) ∧
    (e.handle n).2.context.parked.get? u = some p

end Event

/-- A transfer that is parked for a UE meets its fate in an event. -/
def Fate.Befalls (f : Fate) (e : Event) (n : Node) (u : Nat) (p : Parked) : Prop :=
  match f with
  | delivered => ∃ gnb ran rat k c,
      e = .connected u gnb ran rat ∧ n.context.addLeg gnb ran = some (k, c) ∧
      n.context.sessionKey p.session = some (u, p.psi) ∧
      (e.handle n).2 = ((Paging.deliver u p).exec (n.connect c u k rat)).2 ∧
      (e.handle n).2.context.parked.get? u = none
  | givenUp => ∃ g timers,
      e = .timer .t3513 u g ∧ n.context.timers.expire .t3513 u g = (some .exhausted, timers) ∧
      (e.handle n).2.links.offered = n.links.offered ++ p.reports ∧
      (e.handle n).2.context.parked.get? u = none
  | superseded => ∃ q, e.Parks n u q
  | sessionGone => n.context.sessions.contains p.session = true ∧
      (e.handle n).2.context.sessions.contains p.session = false ∧
      (e.handle n).2.context.parked.get? u = none
  | takenOver => e.Detaches n u ∧ (e.handle n).2.context.parked.get? u = none

variable {e : Event} {n n' : Node} {u : Nat} {p q : Parked} {f f' : Fate}

/-! ## One event -/

/-- The reply says that a transfer is accepted. -/
def Routing.Reply.isAccepted : Routing.Reply → Bool
  | .answered response => response.status == .accepted
  | .brokenOff _ => false

theorem Routing.Reply.isAccepted_iff {reply : Reply} :
    reply.isAccepted = true ↔ ∃ location, reply.Answers .accepted location := by
  cases reply with
  | answered response =>
    refine beq_iff_eq.trans ⟨fun status => ⟨_, response, rfl, status, rfl⟩, ?_⟩
    rintro ⟨_, _, is, status, -⟩
    cases is
    exact status
  | brokenOff ie =>
    constructor
    · rintro ⟨⟩
    · rintro ⟨_, _, is, -⟩
      cases is

/-- The only fate that an event can be. -/
def Event.fate (e : Event) (n : Node) : Fate :=
  match e with
  | connected .. => .delivered
  | timer .. => .givenUp
  | request r =>
    if Routing.Reaches r Api.transferUpdate then .takenOver
    else if (Routing.handle r n).1.isAccepted then .superseded
    else .sessionGone
  | _ => .sessionGone

/-- A session goes in a request that is no report and is not accepted, or when its release is
confirmed. -/
theorem Event.fate_of_gone (there : n.context.sessionKey p.session ≠ none)
    (gone : (e.handle n).2.context.sessionKey p.session = none) : e.fate n = .sessionGone := by
  have changed : ¬n.context.SameSessions (e.handle n).2.context := by
    intro same
    rw [same.key] at gone
    exact there gone
  obtain same | ⟨a, may, loud, alters⟩ := (e.handle_course n).alters
  · exact absurd same.sessions changed
  · cases a with
    | park => exact absurd alters.2.2 changed
    | giveUp | connect | detach => exact absurd alters.2 changed
    | remove id =>
      obtain ⟨r, rfl, plain⟩ | ⟨v, psi, rfl | rfl⟩ := may
      · have unaccepted : (Routing.handle r n).1.isAccepted ≠ true := by
          obtain ⟨_, _, _, _, _, _, _, step⟩ | ⟨unaccepted, _⟩ := request_cases r n
          · exact absurd (step.sameSessions nofun) changed
          · rw [Ne, Routing.Reply.isAccepted_iff, not_exists]
            exact unaccepted
        unfold fate
        simp only
        rw [if_neg plain, if_neg unaccepted]
      · rfl
      · rfl
    | _ => cases loud

/-- **A transfer has one fate at most in an event.** -/
theorem Fate.Befalls.eq (h : f.Befalls e n u p) : f = e.fate n := by
  cases f with
  | delivered =>
    obtain ⟨gnb, ran, rat, k, c, rfl, -⟩ := h
    rfl
  | givenUp =>
    obtain ⟨g, timers, rfl, -⟩ := h
    rfl
  | superseded =>
    obtain ⟨q, ⟨r, o, ⟨rfl, accepted⟩, ⟨reaches, -⟩, -⟩, -⟩ := h
    have other : ¬Routing.Reaches r Api.transferUpdate := fun update =>
      absurd (reaches.unique update) (by decide)
    unfold Event.fate
    simp only
    rw [if_neg other, if_pos (Routing.Reply.isAccepted_iff.2 ⟨_, accepted⟩)]
  | takenOver =>
    obtain ⟨⟨r, ⟨rfl, -⟩, reaches, -⟩, -⟩ := h
    exact (if_pos reaches).symm
  | sessionGone =>
    obtain ⟨there, gone, -⟩ := h
    rw [contains_sessions] at there gone
    rw [Option.isSome_iff_ne_none] at there
    rw [Option.isSome_eq_false_iff, Option.isNone_iff_eq_none] at gone
    exact (Event.fate_of_gone there gone).symm

/-- A transfer that meets its fate is taken from the store, or another one takes its place. -/
theorem Fate.Befalls.leaves (h : f.Befalls e n u p) :
    (e.handle n).2.context.parked.get? u = none ∨ ∃ q, e.Parks n u q := by
  cases f with
  | delivered =>
    obtain ⟨_, _, _, _, _, _, _, _, _, none⟩ := h
    exact .inl none
  | givenUp =>
    obtain ⟨_, _, _, _, _, none⟩ := h
    exact .inl none
  | superseded => exact .inr h
  | sessionGone => exact .inl h.2.2
  | takenOver => exact .inl h.2

namespace Event

/-- An expiry that gives a paging up takes what is parked and makes the reports that it asks for. -/
theorem givenUp_of_exhausted {g : Nat} {timers : Timers} (parked : n.context.parked.get? u = some p)
    (expiry : n.context.timers.expire .t3513 u g = (some .exhausted, timers))
    (step : Step (.giveUp u) n ((timer .t3513 u g).handle n).2) :
    Fate.givenUp.Befalls (.timer .t3513 u g) n u p := by
  have taken : ((timer .t3513 u g).handle n).2.context.parked.get? u = none := by
    rw [step.alters.1, Table.get?_erase_self]
  refine ⟨g, timers, rfl, expiry, ?_, taken⟩
  generalize ((timer .t3513 u g).handle n).2 = n' at step
  cases step
  rw [Node.offered_offerAll, reports_of_some parked]
  rfl

/-- An expiry of T3513 leaves what is parked for the UE, or gives it up. -/
theorem timer_cases {g : Nat} (parked : n.context.parked.get? u = some p) :
    ((timer .t3513 u g).handle n).2.context.parked.get? u = some p ∨
      Fate.givenUp.Befalls (.timer .t3513 u g) n u p := by
  obtain ⟨-, same⟩ | ⟨i, timers, -, step⟩ | ⟨timers, expiry, step⟩ := Paging.expired_cases u g n
  · refine .inl ?_
    show ((Paging.expired u g).exec n).2.context.parked.get? u = some p
    rw [same, parked]
  · refine .inl ?_
    have same : n.context.SameStore ((timer .t3513 u g).handle n).2.context := step.alters
    rw [same.parked, parked]
  · exact .inr (givenUp_of_exhausted parked expiry step)

/-- A delivery leaves the store alone. -/
theorem sameStore_deliver (u : Nat) (p : Parked) (n : Node) :
    n.context.SameStore ((Paging.deliver u p).exec n).2.context :=
  Chain.sameStore (A := fun _ => True) (Paging.deliver_chain (fun _ _ _ _ => ⟨trivial, rfl⟩)
    (fun _ _ _ => ⟨⟨trivial, rfl⟩, trivial, rfl⟩) fun _ => ⟨trivial, rfl⟩)

/-- A connection leaves what is parked for the UE, or delivers it. -/
theorem connected_cases (gnb ran : UInt64) (rat : RatType) (owned : n.context.Owned)
    (parked : n.context.parked.get? u = some p) :
    ((connected u gnb ran rat).handle n).2.context.parked.get? u = some p ∨
      Fate.delivered.Befalls (.connected u gnb ran rat) n u p := by
  cases known : n.context.ues.contains u with
  | false =>
    rw [handle_connected_of_none (.inl known)]
    exact .inl parked
  | true =>
    cases room : n.context.addLeg gnb ran with
    | none =>
      rw [handle_connected_of_none (.inr room)]
      exact .inl parked
    | some added =>
      obtain ⟨k, c⟩ := added
      have own := owned u p parked
      have there : n.context.sessions.contains p.session = true := by
        rw [contains_sessions, own]
        rfl
      have delivers : ((connected u gnb ran rat).handle n).2 =
          ((Paging.deliver u p).exec (n.connect c u k rat)).2 := by
        rw [handle_connected known room, parked]
        exact if_pos there
      refine .inr ⟨gnb, ran, rat, k, c, rfl, room, own, delivers, ?_⟩
      rw [delivers, (sameStore_deliver u p _).parked, Node.parked_connect room, Table.get?_erase_self]

/-- **What an event does with a parked transfer**: it stays, and none is parked in its place, or it
meets its fate. -/
theorem stays_or_befalls (e : Event) (owned : n.context.Owned)
    (parked : n.context.parked.get? u = some p) :
    ((e.handle n).2.context.parked.get? u = some p ∧ ∀ q, ¬e.Parks n u q) ∨
      (e.fate n).Befalls e n u p := by
  by_cases newer : ∃ q, e.Parks n u q
  · have befalls : Fate.superseded.Befalls e n u p := newer
    rw [← befalls.eq]
    exact .inr befalls
  · rw [not_exists] at newer
    suffices outcome : (e.handle n).2.context.parked.get? u = some p ∨ ∃ f : Fate, f.Befalls e n u p by
      obtain stays | ⟨f, befalls⟩ := outcome
      · exact .inl ⟨stays, newer⟩
      · rw [← befalls.eq]
        exact .inr befalls
    obtain same | ⟨a, may, loud, alters⟩ := (e.handle_course n).alters
    · rw [same.parked]
      exact .inl parked
    · cases a with
      | park v q =>
        obtain ⟨put, key, -⟩ := alters
        by_cases is : u = v
        · rw [← is] at put key
          exact absurd ⟨may, key, by rw [put, Table.get?_insert_self]⟩ (newer q)
        · rw [put, Table.get?_insert_of_ne is]
          exact .inl parked
      | giveUp v =>
        by_cases is : u = v
        · obtain ⟨g, rfl⟩ := may
          rw [← is]
          exact (timer_cases parked).imp_right fun befalls => ⟨_, befalls⟩
        · rw [alters.1, Table.get?_erase_of_ne is]
          exact .inl parked
      | connect v =>
        by_cases is : u = v
        · obtain ⟨gnb, ran, rat, rfl⟩ := may
          rw [← is]
          exact (connected_cases gnb ran rat owned parked).imp_right fun befalls => ⟨_, befalls⟩
        · rw [alters.1, Table.get?_erase_of_ne is]
          exact .inl parked
      | remove id =>
        obtain ⟨v, psi, key, taken, left⟩ := alters
        have outcome := owned.get?_unpark key parked
        rw [← taken] at outcome
        by_cases is : p.session = id
        · rw [if_pos is] at outcome
          refine .inr ⟨.sessionGone, ?_, ?_, outcome⟩
          · rw [contains_sessions, is, key]
            rfl
          · rw [contains_sessions, left, if_pos is]
            rfl
        · rw [if_neg is] at outcome
          exact .inl outcome
      | detach v =>
        by_cases is : u = v
        · rw [← is] at alters may
          exact .inr ⟨.takenOver, may, by rw [alters.1, Table.get?_erase_self]⟩
        · rw [alters.1, Table.get?_erase_of_ne is]
          exact .inl parked
      | _ => cases loud

/-- **A transfer in the store was there before**, and none was parked for its UE, or it was parked
now. -/
theorem parks_or_stayed (e : Event)
    (parked : (e.handle n).2.context.parked.get? u = some p) :
    e.Parks n u p ∨ n.context.parked.get? u = some p ∧ ∀ q, ¬e.Parks n u q := by
  by_cases now : e.Parks n u p
  · exact .inl now
  · have none : ∀ q, ¬e.Parks n u q := by
      intro q parks
      have same : some p = some q := parked.symm.trans parks.2.2
      cases same
      exact now parks
    refine .inr ⟨?_, none⟩
    obtain same | ⟨a, may, loud, alters⟩ := (e.handle_course n).alters
    · rw [same.parked] at parked
      exact parked
    · cases a with
      | park v q =>
        obtain ⟨put, key, -⟩ := alters
        by_cases is : u = v
        · rw [← is] at put key
          exact absurd ⟨may, key, by rw [put, Table.get?_insert_self]⟩ (none q)
        · rw [put, Table.get?_insert_of_ne is] at parked
          exact parked
      | giveUp v | connect v | detach v =>
        rw [alters.1, Table.get?_erase] at parked
        split at parked
        · cases parked
        · exact parked
      | remove id =>
        obtain ⟨v, psi, key, taken, left⟩ := alters
        rw [taken] at parked
        exact get?_of_unpark parked
      | _ => cases loud

end Event

/-! ## Reports -/

/-- Only a paging that is given up is reported. -/
theorem Step.reports {a : Act} (step : Step a n n') (other : ∀ u, a ≠ .giveUp u) :
    n'.links.reports = n.links.reports := by
  obtain ⟨ms, offered, may⟩ := step.offers
  have none : ms.filter (·.isReport) = [] := by
    rw [List.filter_eq_nil_iff]
    intro m mem report
    have may := may m mem
    match m, may with
    | .peer q, may =>
      obtain ⟨u, is⟩ := may report
      exact other u is
    | .radio m, may => cases report
  unfold Links.reports
  rw [offered, List.filter_append, none, List.append_nil]

/-- **A report is made for a parked transfer that is given up**, and for nothing else. -/
theorem Event.reports_or_givenUp (e : Event) (n : Node) :
    (e.handle n).2.links.reports = n.links.reports ∨
      ∃ u p, n.context.parked.get? u = some p ∧ Fate.givenUp.Befalls e n u p := by
  by_cases expires : ∃ u g, e = timer .t3513 u g
  · obtain ⟨u, g, rfl⟩ := expires
    obtain ⟨-, same⟩ | ⟨i, timers, -, step⟩ | ⟨timers, expiry, step⟩ := Paging.expired_cases u g n
    · exact .inl (congrArg (·.links.reports) same)
    · exact .inl (step.reports nofun)
    · cases parked : n.context.parked.get? u with
      | some p => exact .inr ⟨u, p, parked, givenUp_of_exhausted parked expiry step⟩
      | none =>
        refine .inl ?_
        show ((Paging.expired u g).exec n).2.links.reports = _
        generalize ((Paging.expired u g).exec n).2 = n' at step
        cases step
        unfold Links.reports
        rw [Node.offered_offerAll, reports_of_none parked, List.append_nil]
        rfl
  · refine .inl ((e.handle_course n).chain.keeps (P := fun m => m.links.reports = n.links.reports)
      (fun a m m' may step same => (step.reports ?_).trans same) rfl)
    rintro u rfl
    obtain ⟨g, is⟩ := may
    exact expires ⟨u, g, is⟩

/-! ## Runs -/

namespace Event

variable {es : List Event} {j k : Nat}

/-- What is parked is for a session of its UE, before every event. -/
theorem owned_stateAt (h : n.context.Owned) (k : Nat) : (stateAt es n k).context.Owned :=
  run_keeps (P := fun n => n.context.Owned) (fun _ _ _ step => step.alters.owned) _ h

end Event

open Event

/-- A transfer of a run: the number of the event that parked it, its UE, and what it is. -/
structure Ticket where
  /-- The number of the event that parked the transfer. -/
  event : Nat
  /-- The UE. -/
  ue : Nat
  /-- The transfer. -/
  parked : Parked
  deriving DecidableEq

namespace Ticket

variable {es : List Event} {t : Ticket} {j k : Nat}

/-- The event of this number parks the transfer. -/
def Issued (t : Ticket) (es : List Event) (n : Node) : Prop :=
  ∃ e, es[t.event]? = some e ∧ e.Parks (stateAt es n t.event) t.ue t.parked

/-- The transfer rests in the store up to the event of a number: it is there before every event
since it was parked, and no event parks another one in its place. -/
def Rests (t : Ticket) (es : List Event) (n : Node) (k : Nat) : Prop :=
  ∀ j, t.event < j → j ≤ k → (stateAt es n j).context.parked.get? t.ue = some t.parked ∧
    (j < k → ∀ e q, es[j]? = some e → ¬e.Parks (stateAt es n j) t.ue q)

/-- The transfer rests in the store up to the event of a number, in which it meets its fate. -/
def Leaves (t : Ticket) (es : List Event) (n : Node) (k : Nat) (f : Fate) : Prop :=
  t.event < k ∧ t.Rests es n k ∧ ∃ e, es[k]? = some e ∧ f.Befalls e (stateAt es n k) t.ue t.parked

/-- A transfer that is parked rests up to the next event. -/
theorem Issued.rests (h : t.Issued es n) : t.Rests es n (t.event + 1) := by
  obtain ⟨e, at_, parks⟩ := h
  intro j after before
  have is : j = t.event + 1 := by omega
  rw [is, stateAt_succ at_]
  exact ⟨parks.2.2, fun lt => absurd lt (Nat.lt_irrefl _)⟩

/-- A transfer that stays where it is rests up to the next event. -/
theorem Rests.succ (h : t.Rests es n k) (at_ : es[k]? = some e)
    (there : (e.handle (stateAt es n k)).2.context.parked.get? t.ue = some t.parked)
    (kept : ∀ q, ¬e.Parks (stateAt es n k) t.ue q) : t.Rests es n (k + 1) := by
  intro j after before
  rcases Nat.lt_or_ge k j with past | upTo
  · have is : j = k + 1 := by omega
    rw [is, stateAt_succ at_]
    exact ⟨there, fun lt => absurd lt (Nat.lt_irrefl _)⟩
  · obtain ⟨there, earlier⟩ := h j after upTo
    refine ⟨there, fun _ e' q at' => ?_⟩
    rcases Nat.lt_or_eq_of_le upTo with before | is
    · exact earlier before e' q at'
    · rw [is, at_] at at'
      cases at'
      rw [is]
      exact kept q

/-- **In each event a transfer rests on or meets its fate.** -/
theorem Rests.succ_or_leaves (h : t.Rests es n k) (owned : n.context.Owned) (after : t.event < k)
    (at_ : es[k]? = some e) :
    t.Rests es n (k + 1) ∨ t.Leaves es n k (e.fate (stateAt es n k)) := by
  obtain ⟨there, kept⟩ | befalls :=
    stays_or_befalls e (owned_stateAt owned k) (h k after (Nat.le_refl k)).1
  · exact .inl (h.succ at_ there kept)
  · exact .inr ⟨after, h, e, at_, befalls⟩

/-- A transfer that meets its fate does not rest any more. -/
theorem Leaves.gone (h : t.Leaves es n k f) (past : k < j) : ¬t.Rests es n j := by
  obtain ⟨after, -, e, at_, befalls⟩ := h
  intro rests
  obtain none | ⟨q, parks⟩ := befalls.leaves
  · have there := (rests (k + 1) (by omega) past).1
    rw [stateAt_succ at_, none] at there
    cases there
  · exact (rests k after (by omega)).2 past e q at_ parks

/-- **A transfer meets its fate once.** -/
theorem Leaves.unique (h : t.Leaves es n k f) (h' : t.Leaves es n j f') : j = k ∧ f' = f := by
  rcases Nat.lt_trichotomy k j with before | is | before
  · exact absurd h'.2.1 (h.gone before)
  · obtain ⟨-, -, e, at_, befalls⟩ := h
    obtain ⟨-, -, e', at', befalls'⟩ := h'
    rw [← is, at_] at at'
    cases at'
    rw [← is] at befalls'
    exact ⟨is.symm, befalls'.eq.trans befalls.eq.symm⟩
  · exact absurd h.2.1 (h'.gone before)

/-- **A transfer that is parked rests to the end of the run, or it meets its fate.** -/
theorem Issued.rests_or_leaves (h : t.Issued es n) (owned : n.context.Owned) :
    t.Rests es n es.length ∨ ∃ k f, t.Leaves es n k f := by
  obtain ⟨e, at_, -⟩ := id h
  have within : t.event < es.length := (List.getElem?_eq_some_iff.1 at_).1
  suffices upTo : ∀ m, t.event + 1 + m ≤ es.length →
      t.Rests es n (t.event + 1 + m) ∨ ∃ k f, t.Leaves es n k f by
    have last := upTo (es.length - (t.event + 1)) (by omega)
    rwa [show t.event + 1 + (es.length - (t.event + 1)) = es.length by omega] at last
  intro m
  induction m with
  | zero => exact fun _ => .inl h.rests
  | succ m ih =>
    intro le
    obtain rests | left := ih (by omega)
    · have at' := List.getElem?_eq_getElem (l := es) (i := t.event + 1 + m) (by omega)
      obtain rests | leaves := rests.succ_or_leaves owned (by omega) at'
      · exact .inl rests
      · exact .inr ⟨_, _, leaves⟩
    · exact .inr left

/-- **Every transfer in the store was parked by an event**, and has rested there since. -/
theorem exists_issued (empty : n.context.parked = .empty) :
    ∀ k, k ≤ es.length → ∀ u p, (stateAt es n k).context.parked.get? u = some p →
      ∃ i < k, Issued ⟨i, u, p⟩ es n ∧ Rests ⟨i, u, p⟩ es n k := by
  intro k
  induction k with
  | zero =>
    intro _ u p there
    have there : n.context.parked.get? u = some p := there
    rw [empty] at there
    cases there
  | succ k ih =>
    intro le u p there
    have at_ := List.getElem?_eq_getElem (l := es) (i := k) (by omega)
    rw [stateAt_succ at_] at there
    obtain parks | ⟨before, none⟩ := parks_or_stayed _ there
    · have issued : Issued ⟨k, u, p⟩ es n := ⟨_, at_, parks⟩
      exact ⟨k, Nat.lt_succ_self k, issued, issued.rests⟩
    · obtain ⟨i, lt, issued, rests⟩ := ih (by omega) u p before
      exact ⟨i, by omega, issued, rests.succ at_ there none⟩

/-- Two transfers that rest in the store of a UE at a time are the same. -/
theorem Rests.unique {i j u : Nat} {p q : Parked} (hi : Issued ⟨i, u, p⟩ es n)
    (ri : Rests ⟨i, u, p⟩ es n k) (hj : Issued ⟨j, u, q⟩ es n) (rj : Rests ⟨j, u, q⟩ es n k)
    (bi : i < k) (bj : j < k) : i = j := by
  rcases Nat.lt_trichotomy i j with before | is | before
  · obtain ⟨e, at_, parks⟩ := hj
    exact absurd parks ((ri j before (Nat.le_of_lt bj)).2 bj e q at_)
  · exact is
  · obtain ⟨e, at_, parks⟩ := hi
    exact absurd parks ((rj i before (Nat.le_of_lt bi)).2 bi e p at_)

end Ticket

/-- **Every transfer that a run parks has one fate.** -/
structure Fated (es : List Event) (n : Node) : Prop where
  /-- A transfer that is parked rests to the end and meets no fate, or it meets one fate in one
  event and rests no more. -/
  once : ∀ t : Ticket, t.Issued es n →
    (t.Rests es n es.length ∧ ∀ k f, ¬t.Leaves es n k f) ∨
    ∃ k f, t.Leaves es n k f ∧ (∀ j, k < j → ¬t.Rests es n j) ∧
      ∀ j f', t.Leaves es n j f' → j = k ∧ f' = f
  /-- A transfer in the store was parked by one event, and has rested there since. -/
  stored : ∀ k, k ≤ es.length → ∀ u p, (stateAt es n k).context.parked.get? u = some p →
    ∃ i, (i < k ∧ Ticket.Issued ⟨i, u, p⟩ es n ∧ Ticket.Rests ⟨i, u, p⟩ es n k) ∧
      ∀ j, j < k ∧ Ticket.Issued ⟨j, u, p⟩ es n ∧ Ticket.Rests ⟨j, u, p⟩ es n k → j = i
  /-- Reports of failures are made in an event in which a transfer is given up, and in no other. -/
  reported : ∀ k e, es[k]? = some e →
    (stateAt es n (k + 1)).links.reports = (stateAt es n k).links.reports ∨
      ∃ t : Ticket, t.Issued es n ∧ t.Leaves es n k .givenUp

namespace Event

/-- **A parked transfer has exactly one fate.** In any run, from any context that was set up and
whatever the transports refuse, a transfer that is parked rests in the store unchanged until it is
delivered to its session, or given up with the one report that it asks for, or superseded by a newer
one, or goes with its session or its UE; this happens in one event at most and in one way, and no
other event makes a report. -/
theorem parked_fate {config : Config} {c : Context} (provisioned : Provisioned config c)
    (metrics : Metrics) (links : Links) (es : List Event) :
    Fated es { context := c, metrics, links } := by
  have owned : Context.Owned c := provisioned.fresh.owned
  refine ⟨fun t issued => ?_, fun k le u p there => ?_, fun k e at_ => ?_⟩
  · obtain rests | ⟨k, f, leaves⟩ := issued.rests_or_leaves owned
    · refine .inl ⟨rests, fun k f leaves => ?_⟩
      obtain ⟨-, -, e, at_, -⟩ := id leaves
      exact leaves.gone (List.getElem?_eq_some_iff.1 at_).1 rests
    · exact .inr ⟨k, f, leaves, fun j past => leaves.gone past, fun j f' => leaves.unique⟩
  · obtain ⟨i, lt, issued, rests⟩ := Ticket.exists_issued provisioned.fresh.parked k le u p there
    refine ⟨i, ⟨lt, issued, rests⟩, ?_⟩
    rintro j ⟨before, other, rested⟩
    exact rested.unique other issued rests before lt
  · rw [stateAt_succ at_]
    obtain same | ⟨u, p, there, befalls⟩ := reports_or_givenUp e _
    · exact .inl same
    · have le : k ≤ es.length := Nat.le_of_lt (List.getElem?_eq_some_iff.1 at_).1
      obtain ⟨i, lt, issued, rests⟩ := Ticket.exists_issued provisioned.fresh.parked k le u p there
      exact .inr ⟨⟨i, u, p⟩, issued, lt, rests, e, at_, befalls⟩

set_option maxRecDepth 4000 in
/-- The hypothesis is satisfiable: a setup for an idle UE is parked, and given up with one report
after three expiries. -/
theorem parked_fate_setUp :
    let es := [request .setUp, timer .t3513 1 1, timer .t3513 1 2, timer .t3513 1 3]
    let n : Node := { context := .oneSession }
    (stateAt es n 3).context.parked.contains 1 = true ∧
      (run es n).context.parked.contains 1 = false ∧ (run es n).links.reports.length = 1 ∧
      Fated es n :=
  ⟨by decide, by decide, by decide, parked_fate provisioned_oneSession {} {} _⟩

end Event
end Amf
