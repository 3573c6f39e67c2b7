import Amf.Proofs.Fate
import Amf.Proofs.Integrity
import Amf.Proofs.Joined

/-!
# Metrics

The counters of pagings and the gauge of sessions stand beside what they mirror, and each is changed
next to it. A step changes both or neither (`Step.pages`, `Step.gauged`, `Step.successes`), so they
agree in every run (`Operation.run_accounted`). That there are no more successes than pagings needs
an invariant that counts the parked transfers too: each of them is a paging that has not succeeded
yet (`Node.Booked`).

| number | goes up in | goes down in |
| --- | --- | --- |
| sessions, and their gauge | `addSession` | `remove` |
| paging messages and requests | `park`, `repeatPaging` | none |
| paging successes | `connect` of a UE that answers its paging | none |
| parked transfers | `park` | `connect`, `giveUp`, `detach`, `remove` |
-/

namespace Amf

open Context

theorem Context.size_unpark {parked : Table Parked} {u id : Nat} :
    (unpark parked u id).size ≤ parked.size := by
  unfold unpark
  split
  · exact Table.size_erase_le
  · exact Nat.le_refl _

/-! ## Paging messages -/

/-- A paging message. -/
def Outbound.isPaging : Outbound → Bool
  | .radio (.paging ..) => true
  | _ => false

namespace Links

/-- The number of paging messages that the radio network has accepted. -/
def pagings (l : Links) : Nat := l.sent.countP (·.isPaging)

variable {l : Links} {m : Outbound}

theorem pagings_offer :
    (l.offer m).pagings = l.pagings + if l.accepts m && m.isPaging then 1 else 0 := by
  have sent : (l.offer m).sent = if l.accepts m then l.sent ++ [m] else l.sent := by cases m <;> rfl
  unfold pagings
  rw [sent]
  cases l.accepts m <;> simp [List.countP_append]

theorem pagings_offer_of_other (other : m.isPaging = false) : (l.offer m).pagings = l.pagings := by
  rw [pagings_offer, other, Bool.and_false]
  rfl

theorem pagings_offer_of_refused (refused : l.accepts m = false) :
    (l.offer m).pagings = l.pagings := by
  rw [pagings_offer, refused, Bool.false_and]
  rfl

theorem pagings_offer_of_accepted (accepted : l.accepts m = true) (paging : m.isPaging = true) :
    (l.offer m).pagings = l.pagings + 1 := by
  rw [pagings_offer, accepted, paging]
  rfl

end Links

namespace Node

variable {n n' : Node} {c : Context} {u k : Nat} {rat : RatType}

theorem pagings_offerAll {ms : List Outbound} (other : ∀ m ∈ ms, m.isPaging = false) :
    (n.offerAll ms).links.pagings = n.links.pagings := by
  induction ms generalizing n with
  | nil => rfl
  | cons m ms ih =>
    refine (ih (n := n.offer m) fun m' mem => other m' (List.mem_cons_of_mem m mem)).trans ?_
    exact Links.pagings_offer_of_other (other m List.mem_cons_self)

/-- Paging messages leave and are counted, as many of the one as of the other. -/
def Pages (n n' : Node) (k : Nat) : Prop :=
  n'.links.pagings = n.links.pagings + k ∧
    n'.metrics.pagingRequests = n.metrics.pagingRequests + UInt64.ofNat k

theorem Pages.none (links : n'.links.pagings = n.links.pagings)
    (metrics : n'.metrics.pagingRequests = n.metrics.pagingRequests) : n.Pages n' 0 :=
  ⟨links, metrics.trans (UInt64.add_zero _).symm⟩

theorem Pages.one (links : n'.links.pagings = n.links.pagings + 1)
    (metrics : n'.metrics.pagingRequests = n.metrics.pagingRequests + 1) : n.Pages n' 1 :=
  ⟨links, metrics⟩

section
variable {m : Metric}

theorem get_metrics_uncountLeg (other : m ≠ .ranUes) :
    (if (n.context.legOf? u).isSome then n.uncount .ranUes else n).metrics.get m =
      n.metrics.get m := by
  split
  · exact Metrics.get_set_of_ne _ _ other
  · rfl

theorem get_metrics_answer (other : m ≠ .pagingSuccesses) :
    (n.answer u).metrics.get m = n.metrics.get m := by
  unfold answer
  split
  · exact Metrics.get_set_of_ne _ _ other
  · rfl

theorem get_metrics_relocate (other : m ≠ .ranUes) :
    (n.relocate u k rat).metrics.get m = n.metrics.get m :=
  (Metrics.get_set_of_ne _ _ other).trans (get_metrics_uncountLeg other)

/-- A UE that connects changes the gauge of connected UEs, and may have answered its paging. -/
theorem get_metrics_connect (leg : m ≠ .ranUes) (answer : m ≠ .pagingSuccesses) :
    (n.connect c u k rat).metrics.get m = n.metrics.get m :=
  (get_metrics_answer answer).trans (get_metrics_relocate (n := n.change fun _ => c) leg)

end

/-- A paging is answered in time if something is parked for the UE and T3513 runs. -/
def answers (n : Node) (u : Nat) : Bool :=
  n.context.parked.contains u && n.context.timers.isRunning .t3513 u

theorem pagingSuccesses_answer : (n.answer u).metrics.pagingSuccesses =
    if n.answers u then n.metrics.pagingSuccesses + 1 else n.metrics.pagingSuccesses := by
  unfold answer answers
  split <;> rfl

theorem pagingSuccesses_connect {gnb ran : UInt64} (room : n.context.addLeg gnb ran = some (k, c)) :
    (n.connect c u k rat).metrics.pagingSuccesses =
      if n.answers u then n.metrics.pagingSuccesses + 1 else n.metrics.pagingSuccesses := by
  have same : n.context.SameButLegs ((n.change fun _ => c).relocate u k rat).context :=
    (Context.same_addLeg room).trans (same_relocate (n := n.change fun _ => c))
  have before : ((n.change fun _ => c).relocate u k rat).metrics.pagingSuccesses =
      n.metrics.pagingSuccesses :=
    get_metrics_relocate (n := n.change fun _ => c) (m := .pagingSuccesses) nofun
  have when : ((n.change fun _ => c).relocate u k rat).answers u = n.answers u := by
    unfold answers
    rw [same.parked, same.timers]
  refine pagingSuccesses_answer.trans ?_
  rw [when, before]

end Node

theorem Context.isPaging_of_reports {c : Context} {u : Nat} :
    ∀ m ∈ c.reports u, m.isPaging = false := by
  intro m mem
  unfold Context.reports at mem
  split at mem
  · cases mem
  · rename_i p _
    unfold Parked.reports at mem
    split at mem
    · cases mem
    · rw [List.mem_singleton.1 mem]
      rfl

/-! ## Steps -/

/-- The gauge of sessions is their number. -/
def Node.Gauged (n : Node) : Prop := n.metrics.sessions.toNat = n.context.sessions.size

/-- How many paging messages the radio network accepts in an act. -/
def Act.Pages : Act → Nat → Prop
  | .park .., k => k = 1
  | .repeatPaging _, k => k ≤ 1
  | _, k => k = 0

namespace Step

variable {a : Act} {n n' : Node}

/-- **Each paging message that the radio network accepts is counted.** -/
theorem pages (step : Step a n n') : ∃ k, n.Pages n' k ∧ a.Pages k := by
  cases step with
  | park _ _ _ _ _ accepted =>
    exact ⟨1, .one (Links.pagings_offer_of_accepted accepted rfl) rfl, rfl⟩
  | repeatPaging _ _ _ accepted =>
    exact ⟨1, .one (Links.pagings_offer_of_accepted accepted rfl) rfl, Nat.le_refl 1⟩
  | refusePaging _ refused =>
    exact ⟨0, .none (Links.pagings_offer_of_refused refused) rfl, rfl⟩
  | repeatRefused _ _ _ refused =>
    exact ⟨0, .none (Links.pagings_offer_of_refused refused) rfl, Nat.zero_le 1⟩
  | repeatNothing => exact ⟨0, .none rfl rfl, Nat.zero_le 1⟩
  | giveUp =>
    refine ⟨0, .none (Node.pagings_offerAll Context.isPaging_of_reports) ?_, rfl⟩
    rw [Node.metrics_offerAll]
    rfl
  | connect =>
    refine ⟨0, .none (congrArg Links.pagings Node.links_connect) ?_, rfl⟩
    exact Node.get_metrics_connect (m := .pagingRequests) nofun nofun
  | detach =>
    refine ⟨0, .none ?_ (Node.get_metrics_uncountLeg (m := .pagingRequests) nofun), rfl⟩
    rw [Node.links_change]
    split <;> rfl
  | tell | ask | setUp | confirmHeld =>
    exact ⟨0, .none (Links.pagings_offer_of_other rfl) rfl, rfl⟩
  | _ => exact ⟨0, .none rfl rfl, rfl⟩

/-- Only a session that goes lowers the gauge. -/
theorem sessions_eq (step : Step a n n') (stays : ∀ id, a ≠ .remove id) :
    n'.metrics.sessions = n.metrics.sessions := by
  cases step with
  | remove => exact absurd rfl (stays _)
  | giveUp =>
    rw [Node.metrics_offerAll]
    rfl
  | connect => exact Node.get_metrics_connect (m := .sessions) nofun nofun
  | detach => exact Node.get_metrics_uncountLeg (m := .sessions) nofun
  | _ => rfl

/-- **The gauge of sessions follows the sessions.** -/
theorem gauged (step : Step a n n') (h : n.Gauged) : n'.Gauged := by
  by_cases removes : ∃ id, a = .remove id
  · obtain ⟨id, rfl⟩ := removes
    cases step with
    | remove session =>
      have fewer := Table.size_erase_of_mem (Table.contains_iff.2 ⟨_, session⟩)
      show (Metrics.lower n.metrics.sessions).toNat = (n.context.removeSession id).sessions.size
      rw [Metrics.toNat_lower, Context.sessions_removeSession, h, fewer, Nat.add_sub_cancel]
  · rw [not_exists] at removes
    have same : n'.context.sessions.size = n.context.sessions.size :=
      Table.size_congr fun id => by
        rw [Context.contains_sessions, Context.contains_sessions, (step.sameSessions removes).key]
    unfold Node.Gauged
    rw [step.sessions_eq removes, same, h]

/-- **A success is counted for a UE that connects while its paging is guarded**, and only then. -/
theorem successes (step : Step a n n') :
    n'.metrics.pagingSuccesses = n.metrics.pagingSuccesses ∨ ∃ u, a = .connect u ∧
      n.answers u = true ∧ n'.metrics.pagingSuccesses = n.metrics.pagingSuccesses + 1 := by
  cases step with
  | @connect _ u _ _ _ _ _ known room =>
    rw [Node.pagingSuccesses_connect room]
    by_cases answers : n.answers u = true
    · rw [if_pos answers]
      exact .inr ⟨u, rfl, answers, rfl⟩
    · rw [if_neg answers]
      exact .inl rfl
  | giveUp =>
    rw [Node.metrics_offerAll]
    exact .inl rfl
  | detach => exact .inl (Node.get_metrics_uncountLeg (m := .pagingSuccesses) nofun)
  | _ => exact .inl rfl

/-- Only a transfer that is parked adds to the parked ones. -/
theorem size_parked (step : Step a n n') (other : ∀ u p, a ≠ .park u p) :
    n'.context.parked.size ≤ n.context.parked.size := by
  have alters := step.alters
  cases a with
  | park u p => exact absurd rfl (other u p)
  | giveUp | connect | detach =>
    rw [alters.1]
    exact Table.size_erase_le
  | remove =>
    obtain ⟨u, psi, -, parked, -⟩ := alters
    rw [parked]
    exact size_unpark
  | _ =>
    have same : n.context.SameStore n'.context := alters
    exact Nat.le_of_eq (congrArg Table.size same.parked)

end Step

/-! ## Accounts -/

theorem toNat_add_one_le (v : UInt64) : (v + 1).toNat ≤ v.toNat + 1 := by
  rw [UInt64.toNat_add]
  exact Nat.mod_le _ _

/-- The paging counters agree with what they count, from a number of messages on. -/
structure Node.Booked (base : Nat) (n : Node) : Prop where
  since : base ≤ n.links.pagings
  requests : n.metrics.pagingRequests = UInt64.ofNat (n.links.pagings - base)
  /-- Every success was a paging, and each transfer that is still parked is another one. -/
  successes : n.metrics.pagingSuccesses.toNat + n.context.parked.size ≤ n.links.pagings - base

variable {a : Act} {n n' : Node} {base : Nat}

theorem Chain.gauged {A : Act → Prop} (chain : Chain A n n') (h : n.Gauged) : n'.Gauged :=
  chain.keeps (P := Node.Gauged) (fun _ _ _ _ step => step.gauged) h

namespace Node

/-- The transfer whose paging was answered is parked no more. -/
theorem answered_le {u : Nat} (answers : n.answers u = true)
    (more : n'.metrics.pagingSuccesses = n.metrics.pagingSuccesses + 1)
    (parked : n'.context.parked = n.context.parked.erase u) :
    n'.metrics.pagingSuccesses.toNat + n'.context.parked.size ≤
      n.metrics.pagingSuccesses.toNat + n.context.parked.size := by
  have size := Table.size_erase_of_mem (Bool.and_eq_true_iff.1 answers).1
  have bound := toNat_add_one_le n.metrics.pagingSuccesses
  rw [more, parked]
  omega

namespace Booked

/-- Each paging message pays for one more transfer. -/
theorem of_pages {k : Nat} (h : n.Booked base) (pages : n.Pages n' k)
    (successes : n'.metrics.pagingSuccesses.toNat + n'.context.parked.size ≤
      n.metrics.pagingSuccesses.toNat + n.context.parked.size + k) : n'.Booked base := by
  obtain ⟨links, requests⟩ := pages
  have since := h.since
  have before := h.successes
  refine ⟨by omega, ?_, by omega⟩
  rw [requests, h.requests, links, ← UInt64.ofNat_add]
  congr 1
  omega

/-- Changes in which nothing is parked do not touch the books. -/
theorem change {f : Context → Context} (h : n.Booked base)
    (fewer : (f n.context).parked.size ≤ n.context.parked.size) : (n.change f).Booked base :=
  h.of_pages (.none rfl rfl) (Nat.add_le_add_left fewer _)

theorem park {clients : Clients} {u : Nat} {pdu : Octets} {p : Parked} (h : n.Booked base)
    (accepted : n.links.accepts (.radio (.paging u pdu)) = true) :
    (n.park clients u pdu p).Booked base :=
  h.of_pages (.one (Links.pagings_offer_of_accepted accepted rfl) rfl)
    (Nat.add_le_add_left Table.size_insert_le _)

theorem answer {u : Nat} (h : n.Booked base) : (n.answer u).Booked base := by
  have parked : (n.answer u).context.parked = n.context.parked.erase u := by
    rw [context_answer]
    rfl
  have links : (n.answer u).links = n.links := by
    unfold Node.answer
    split <;> rfl
  refine h.of_pages (.none (congrArg Links.pagings links)
    (get_metrics_answer (m := .pagingRequests) nofun)) ?_
  by_cases answers : n.answers u = true
  · exact answered_le answers (pagingSuccesses_answer.trans (if_pos answers)) parked
  · rw [pagingSuccesses_answer, if_neg answers, parked]
    exact Nat.add_le_add_left Table.size_erase_le _

end Booked
end Node

/-- **Every step keeps the books.** -/
theorem Step.booked (step : Step a n n') (h : n.Booked base) : n'.Booked base := by
  obtain ⟨k, pages, count⟩ := step.pages
  refine h.of_pages pages ?_
  obtain same | ⟨u, rfl, answers, more⟩ := step.successes
  · rw [same]
    by_cases parks : ∃ u p, a = .park u p
    · obtain ⟨u, p, rfl⟩ := parks
      rw [show k = 1 from count, step.alters.1]
      exact Nat.add_le_add_left Table.size_insert_le _
    · simp only [not_exists] at parks
      have := step.size_parked parks
      omega
  · exact Nat.le_add_right_of_le (Node.answered_le answers more step.alters.1)

theorem Chain.booked {A : Act → Prop} (chain : Chain A n n') (h : n.Booked base) :
    n'.Booked base :=
  chain.keeps (P := Node.Booked base) (fun _ _ _ _ step => step.booked) h

theorem Node.Begins.booked (begins : n.Begins n') (h : n.Booked base) : n'.Booked base := by
  cases begins with
  | nothing => exact h
  | park _ _ _ accepted => exact h.park accepted
  | answer u => exact h.answer

/-! ## Runs -/

namespace Context

variable {c c' : Context} {u id : Nat} {psi : UInt8}

theorem parked_addSession (added : c.addSession u psi = some (id, c')) : c'.parked = c.parked := by
  obtain ⟨-, -, x, -, rfl⟩ := eq_of_addSession added
  rfl

/-- A session that is added is one more. -/
theorem size_addSession (coherent : c.Coherent) (added : c.addSession u psi = some (id, c')) :
    c'.sessions.size = c.sessions.size + 1 := by
  obtain ⟨-, -, x, -, rfl⟩ := eq_of_addSession added
  refine Table.size_insert_of_new (Bool.eq_false_iff.2 fun there => ?_)
  -- The number of the new session was not given out.
  rw [contains_sessions, Option.isSome_iff_exists] at there
  obtain ⟨key, there⟩ := there
  exact Nat.lt_irrefl _ (coherent.rostered.numbered _ key there)

theorem size_parked_removeUe : (c.removeUe u).parked.size ≤ c.parked.size := by
  cases hx : c.ues.get? u with
  | none => exact Nat.le_of_eq (congrArg (·.parked.size) (removeUe_of_none hx))
  | some x =>
    rw [removeUe_of_some hx]
    exact Table.size_erase_le

theorem size_parked_removeSession : (c.removeSession id).parked.size ≤ c.parked.size := by
  unfold removeSession
  split
  · exact Nat.le_refl _
  · exact size_unpark

end Context

namespace Operation

variable {o : Operation} {os : List Operation} {j k : Nat}

/-- The operation adds a session. -/
def addsSession (o : Operation) (n : Node) : Bool :=
  match o with
  | addSession ue psi => (n.context.addSession ue psi).isSome
  | _ => false

/-- The state after an operation, where a session that is added is counted. -/
def applyCounted (o : Operation) (n : Node) : Node :=
  if o.addsSession n then (o.apply n).count .sessions else o.apply n

/-- The state of a run before the operation of a number, where sessions that are added are
counted. -/
def countedAt (os : List Operation) (n : Node) (k : Nat) : Node :=
  (os.take k).foldl (fun n o => o.applyCounted n) n

/-- The operation is an event, or takes neither a session away nor what is parked. -/
def isEventful : Operation → Bool
  | addUe | setSupi .. | setGuti .. | addSession .. | onLegs _ | handle _ => true
  | _ => false

theorem countedAt_succ (h : os[k]? = some o) :
    countedAt os n (k + 1) = o.applyCounted (countedAt os n k) := by
  unfold countedAt
  rw [List.take_add_one, h]
  exact List.foldl_append

theorem countedAt_succ_of_none (h : os[k]? = none) : countedAt os n (k + 1) = countedAt os n k := by
  unfold countedAt
  rw [List.take_add_one, h]
  exact congrArg _ (List.append_nil _)

/-- What every operation of a run keeps holds before each of them. -/
theorem countedAt_keeps {P : Node → Prop} (keeps : ∀ o ∈ os, ∀ n, P n → P (o.applyCounted n))
    (h : P n) (k : Nat) : P (countedAt os n k) := by
  induction k with
  | zero => exact h
  | succ k ih =>
    cases at_ : os[k]? with
    | none => exact countedAt_succ_of_none (n := n) at_ ▸ ih
    | some o =>
      rw [countedAt_succ at_]
      exact keeps o (List.mem_of_getElem? at_) _ ih

theorem context_applyCounted (o : Operation) (n : Node) :
    (o.applyCounted n).context = (o.apply n).context := by
  unfold applyCounted
  split <;> rfl

/-- The context is kept in order, whether sessions are counted or not. -/
theorem coherent_applyCounted (o : Operation) (h : n.context.Coherent) :
    (o.applyCounted n).context.Coherent := by
  rw [context_applyCounted]
  exact o.coherent h

/-- What is added beside events parks nothing, and only a session that is added is one more. -/
theorem exists_change (is : o.isEventful = true) (event : ∀ e, o ≠ handle e) :
    ∃ f, o.apply n = n.change f ∧ (f n.context).parked = n.context.parked ∧
      (o.addsSession n = false → (f n.context).sessions = n.context.sessions) := by
  cases o with
  | removeUe | removeSession | perform | page | answer => cases is
  | handle e => exact absurd rfl (event e)
  | addUe =>
    refine ⟨fun c => c.addUe.elim c (·.2), rfl, ?_⟩
    beta_reduce
    unfold Context.addUe
    split <;> exact ⟨rfl, fun _ => rfl⟩
  | setSupi u supi =>
    refine ⟨(·.setSupi u supi), rfl, ?_⟩
    beta_reduce
    unfold Context.setSupi
    split <;> exact ⟨rfl, fun _ => rfl⟩
  | setGuti u guti =>
    refine ⟨(·.setGuti u guti), rfl, ?_⟩
    beta_reduce
    unfold Context.setGuti
    split <;> exact ⟨rfl, fun _ => rfl⟩
  | addSession u psi =>
    refine ⟨fun c => (c.addSession u psi).elim c (·.2), rfl, ?_⟩
    beta_reduce
    cases added : n.context.addSession u psi with
    | none => exact ⟨rfl, fun _ => rfl⟩
    | some r =>
      refine ⟨parked_addSession added, fun none => ?_⟩
      have one : (addSession u psi).addsSession n = true := congrArg Option.isSome added
      exact Bool.noConfusion (none.symm.trans one)
  | onLegs o => exact ⟨_, rfl, o.same.parked, fun _ => o.same.sessions⟩

/-- **Every operation keeps the books.** -/
theorem booked (o : Operation) (h : n.Booked base) : (o.applyCounted n).Booked base := by
  have applied : (o.apply n).Booked base := by
    by_cases event : ∃ e, o = handle e
    · obtain ⟨e, rfl⟩ := event
      exact (e.handle_chain n).booked h
    rw [not_exists] at event
    cases is : o.isEventful with
    | true =>
      obtain ⟨f, applied, parked, -⟩ := exists_change (n := n) is event
      rw [applied]
      exact h.change (Nat.le_of_eq (congrArg Table.size parked))
    | false =>
      cases o with
      | removeUe u => exact h.change (f := (·.removeUe u)) size_parked_removeUe
      | removeSession id => exact h.change (f := (·.removeSession id)) size_parked_removeSession
      | perform | page | answer =>
        exact of_drives (P := (·.Booked base)) rfl fun begins chain => chain.booked (begins.booked h)
      | _ => cases is
  unfold applyCounted
  split
  · exact ⟨applied.since, applied.requests, applied.successes⟩
  · exact applied

/-- **Every event keeps the gauge, and so does what is added beside events**, if every session that
is added is counted. -/
theorem gauged (is : o.isEventful = true) (coherent : n.context.Coherent)
    (few : (o.applyCounted n).context.sessions.size < UInt64.size) (h : n.Gauged) :
    (o.applyCounted n).Gauged := by
  by_cases event : ∃ e, o = handle e
  · obtain ⟨e, rfl⟩ := event
    exact (e.handle_chain n).gauged h
  rw [not_exists] at event
  cases adds : o.addsSession n with
  | false =>
    obtain ⟨f, applied, -, sessions⟩ := exists_change (n := n) is event
    have uncounted : o.applyCounted n = n.change f := by
      unfold applyCounted
      rw [adds, applied]
      rfl
    rw [uncounted]
    exact h.trans (congrArg Table.size (sessions adds).symm)
  | true =>
    cases o with
    | addSession u psi =>
      obtain ⟨⟨id, c'⟩, added⟩ := Option.isSome_iff_exists.1 adds
      have counted :
          (addSession u psi).applyCounted n = (n.change fun _ => c').count .sessions := by
        unfold applyCounted
        rw [adds, if_pos rfl]
        show (n.change fun c => (n.context.addSession u psi).elim c (·.2)).count .sessions = _
        rw [added]
        rfl
      have more := size_addSession coherent added
      rw [counted] at few ⊢
      show (n.metrics.sessions + 1).toNat = c'.sessions.size
      rw [UInt64.toNat_add, h, more]
      exact Nat.mod_eq_of_lt (more ▸ few)
    | _ => cases adds

end Operation

/-! ## What is answered -/

theorem Chain.pagingSuccesses {A : Act → Prop} (chain : Chain (fun a => A a ∧ a.quiet) n n') :
    n'.metrics.pagingSuccesses = n.metrics.pagingSuccesses := by
  refine chain.keeps (P := fun m => m.metrics.pagingSuccesses = n.metrics.pagingSuccesses) ?_ rfl
  intro a m m' may step same
  obtain keeps | ⟨u, rfl, -⟩ := step.successes
  · exact keeps.trans same
  · cases may.2

/-- **An event that counts a success is a UE that connects and takes what was parked for it.** -/
theorem Event.successes (e : Event) (n : Node) :
    (e.handle n).2.metrics.pagingSuccesses = n.metrics.pagingSuccesses ∨
    ∃ u p, e.Connects u ∧ n.context.parked.get? u = some p ∧
      (e.handle n).2.context.parked.get? u = none ∧
      (e.handle n).2.metrics.pagingSuccesses = n.metrics.pagingSuccesses + 1 := by
  obtain chain | ⟨a, m, m', may, -, before, step, after⟩ := e.handle_course n
  · exact .inl chain.pagingSuccesses
  · rw [after.pagingSuccesses, after.sameStore.parked]
    obtain same | ⟨u, rfl, answers, more⟩ := step.successes
    · exact .inl (same.trans before.pagingSuccesses)
    · obtain ⟨p, waits⟩ := Table.contains_iff.1 (Bool.and_eq_true_iff.1 answers).1
      refine .inr ⟨u, p, may, before.sameStore.parked ▸ waits, ?_, ?_⟩
      · rw [step.alters.1, Table.get?_erase_self]
      · rw [more, before.pagingSuccesses]

namespace Operation

variable {o : Operation} {os : List Operation} {u j k : Nat} {p : Parked}

/-- The operation is an event that parks a transfer for a UE. -/
def Parks (o : Operation) (n : Node) (u : Nat) (p : Parked) : Prop :=
  ∃ e, o = handle e ∧ e.Parks n u p

/-- **A transfer in the store was there before**, and none was parked for its UE, or it was parked
now. -/
theorem parks_or_stayed (is : o.isEventful = true)
    (parked : (o.applyCounted n).context.parked.get? u = some p) :
    o.Parks n u p ∨ n.context.parked.get? u = some p ∧ ∀ q, ¬o.Parks n u q := by
  rw [context_applyCounted] at parked
  by_cases event : ∃ e, o = handle e
  · obtain ⟨e, rfl⟩ := event
    obtain parks | ⟨before, none⟩ := e.parks_or_stayed parked
    · exact .inl ⟨e, rfl, parks⟩
    · refine .inr ⟨before, ?_⟩
      rintro q ⟨_, same, parks⟩
      cases same
      exact none q parks
  · rw [not_exists] at event
    obtain ⟨f, applied, same, -⟩ := exists_change (n := n) is event
    rw [applied] at parked
    refine .inr ⟨same ▸ parked, ?_⟩
    rintro q ⟨e, is, -⟩
    exact event e is

end Operation

namespace Ticket

variable {os : List Operation} {t : Ticket} {j k : Nat}

/-- The transfer was parked by the operation of its number, and has rested in the store up to the
operation of another number. -/
def Waits (t : Ticket) (os : List Operation) (n : Node) (k : Nat) : Prop :=
  (∃ o, os[t.event]? = some o ∧ o.Parks (Operation.countedAt os n t.event) t.ue t.parked) ∧
  t.event < k ∧ ∀ j, t.event < j → j ≤ k →
    (Operation.countedAt os n j).context.parked.get? t.ue = some t.parked ∧
    (j < k → ∀ o q, os[j]? = some o → ¬o.Parks (Operation.countedAt os n j) t.ue q)

/-- The transfer was parked, has rested, and leaves the store in the operation of a number, in which
its UE connects and a success is counted. -/
def Succeeds (t : Ticket) (os : List Operation) (n : Node) (k : Nat) : Prop :=
  t.Waits os n k ∧ (∃ e, os[k]? = some (.handle e) ∧ e.Connects t.ue) ∧
  (Operation.countedAt os n (k + 1)).context.parked.get? t.ue = none ∧
  (Operation.countedAt os n (k + 1)).metrics.pagingSuccesses =
    (Operation.countedAt os n k).metrics.pagingSuccesses + 1

/-- **A transfer succeeds once.** -/
theorem Succeeds.unique (h : t.Succeeds os n j) (h' : t.Succeeds os n k) : j = k := by
  have before : ∀ {j k}, t.Succeeds os n j → t.Succeeds os n k → ¬j < k := by
    intro j k h h' lt
    have there := (h'.1.2.2 (j + 1) (Nat.lt_succ_of_lt h.1.2.1) lt).1
    rw [h.2.2.1] at there
    cases there
  exact Nat.le_antisymm (Nat.not_lt.1 (before h' h)) (Nat.not_lt.1 (before h h'))

/-- A transfer that stays where it is rests up to the next operation. -/
theorem Waits.succ (h : t.Waits os n k)
    (there : (Operation.countedAt os n (k + 1)).context.parked.get? t.ue = some t.parked)
    (kept : ∀ o q, os[k]? = some o → ¬o.Parks (Operation.countedAt os n k) t.ue q) :
    t.Waits os n (k + 1) := by
  obtain ⟨parked, after, rests⟩ := h
  refine ⟨parked, Nat.lt_succ_of_lt after, fun j late le => ?_⟩
  rcases Nat.lt_or_eq_of_le le with lt | rfl
  · obtain ⟨there, earlier⟩ := rests j late (Nat.le_of_lt_succ lt)
    refine ⟨there, fun _ o q at_ => ?_⟩
    rcases Nat.lt_or_eq_of_le (Nat.le_of_lt_succ lt) with before | rfl
    · exact earlier before o q at_
    · exact kept o q at_
  · exact ⟨there, fun lt => absurd lt (Nat.lt_irrefl _)⟩

/-- **Every transfer in the store was parked by an operation**, and has rested there since. -/
theorem exists_waits (idle : n.context.parked.size = 0) (is : ∀ o ∈ os, o.isEventful = true)
    {u : Nat} {p : Parked} (there : (Operation.countedAt os n k).context.parked.get? u = some p) :
    ∃ i, Waits ⟨i, u, p⟩ os n k := by
  induction k with
  | zero =>
    have size := Table.size_erase_of_mem (Table.contains_iff.2 ⟨p, there⟩)
    change n.context.parked.size = _ at size
    omega
  | succ k ih =>
    cases at_ : os[k]? with
    | none =>
      have before := there
      rw [Operation.countedAt_succ_of_none at_] at before
      obtain ⟨i, waits⟩ := ih before
      refine ⟨i, waits.succ there fun o q at' => ?_⟩
      rw [at_] at at'
      cases at'
    | some o =>
      have after := there
      rw [Operation.countedAt_succ at_] at after
      obtain parks | ⟨before, none⟩ :=
        Operation.parks_or_stayed (is o (List.mem_of_getElem? at_)) after
      · refine ⟨k, ⟨o, at_, parks⟩, Nat.lt_succ_self k, fun j late le => ?_⟩
        cases Nat.le_antisymm le late
        exact ⟨there, fun lt => absurd lt (Nat.lt_irrefl _)⟩
      · obtain ⟨i, waits⟩ := ih before
        refine ⟨i, waits.succ there fun o' q at' => ?_⟩
        rw [at_] at at'
        cases at'
        exact none q

end Ticket

/-- Operations lead to the state from one that was set up, with no paging counted; after that
sessions that are added are counted, and no more paging messages leave than can be counted. -/
def Node.Reached (n : Node) : Prop :=
  ∃ config start metrics links os k, Provisioned config start ∧ metrics.pagingRequests = 0 ∧
    metrics.pagingSuccesses = 0 ∧
    Operation.countedAt os { context := start, metrics, links } k = n ∧
    n.links.pagings < links.pagings + UInt64.size

namespace Node.Reached

variable {n : Node}

theorem coherent (h : n.Reached) : n.context.Coherent := by
  obtain ⟨config, start, metrics, links, os, k, setUp, -, -, rfl, -⟩ := h
  exact Operation.countedAt_keeps (P := fun n => n.context.Coherent)
    (fun o _ _ => o.coherent_applyCounted) setUp.coherent k

theorem booked (h : n.Reached) :
    ∃ base, n.Booked base ∧ n.links.pagings < base + UInt64.size := by
  obtain ⟨config, start, metrics, links, os, k, setUp, requests, successes, rfl, few⟩ := h
  refine ⟨links.pagings, Operation.countedAt_keeps (fun o _ _ => o.booked) ?_ k, few⟩
  refine ⟨Nat.le_refl _, ?_, ?_⟩
  · rw [requests, Nat.sub_self]
    rfl
  · rw [successes, setUp.fresh.parked, Nat.sub_self]
    exact Nat.le_refl 0

/-- **Nothing is parked before the first paging is counted.** -/
theorem unparked (h : n.Reached) (requests : n.metrics.pagingRequests = 0) :
    n.context.parked.size = 0 := by
  obtain ⟨base, booked, few⟩ := h.booked
  have successes := booked.successes
  have none : n.links.pagings - base = 0 := by
    have counted := congrArg UInt64.toNat (booked.requests.symm.trans requests)
    rwa [UInt64.toNat_ofNat_of_lt' (Nat.sub_lt_left_of_lt_add booked.since few)] at counted
  omega

end Node.Reached

namespace Operation

/-- **The metrics agree with what happened in a run**, before every operation. -/
structure Accounted (os : List Operation) (n : Node) : Prop where
  /-- The gauge of sessions is the number of sessions. -/
  gauge : ∀ k, (countedAt os n k).Gauged
  /-- The counter of paging requests is the number of paging messages that the radio network has
  accepted in the run. -/
  requests : ∀ k, (countedAt os n k).links.pagings =
    n.links.pagings + (countedAt os n k).metrics.pagingRequests.toNat
  successes : ∀ k, (countedAt os n k).metrics.pagingSuccesses ≤
    (countedAt os n k).metrics.pagingRequests
  /-- The counter of successes is raised for a transfer that was parked, and that its UE takes. -/
  answered : ∀ k, (countedAt os n (k + 1)).metrics.pagingSuccesses =
    (countedAt os n k).metrics.pagingSuccesses ∨ ∃ t : Ticket, t.Succeeds os n k
  /-- For no transfer is it raised twice. -/
  once : ∀ (t : Ticket) (j k : Nat), t.Succeeds os n j → t.Succeeds os n k → j = k

variable {n : Node} {os : List Operation} {k : Nat}

/-- Nothing but events counts a success. -/
theorem pagingSuccesses_applyCounted {o : Operation} (is : o.isEventful = true)
    (event : ∀ e, o ≠ handle e) :
    (o.applyCounted n).metrics.pagingSuccesses = n.metrics.pagingSuccesses := by
  obtain ⟨f, applied, -⟩ := exists_change (n := n) is event
  unfold applyCounted
  rw [applied]
  split <;> rfl

/-- **A success is one of a transfer that was parked in the run.** -/
theorem answered_countedAt (idle : n.context.parked.size = 0)
    (is : ∀ o ∈ os, o.isEventful = true) :
    (countedAt os n (k + 1)).metrics.pagingSuccesses =
      (countedAt os n k).metrics.pagingSuccesses ∨ ∃ t : Ticket, t.Succeeds os n k := by
  cases at_ : os[k]? with
  | none =>
    rw [countedAt_succ_of_none at_]
    exact .inl rfl
  | some o =>
    have eventful := is o (List.mem_of_getElem? at_)
    have next : countedAt os n (k + 1) = o.applyCounted (countedAt os n k) := countedAt_succ at_
    by_cases event : ∃ e, o = handle e
    · obtain ⟨e, rfl⟩ := event
      obtain same | ⟨u, p, connects, there, taken, raised⟩ := e.successes (countedAt os n k)
      · exact .inl (next ▸ same)
      · obtain ⟨i, waits⟩ := Ticket.exists_waits idle is there
        exact .inr ⟨⟨i, u, p⟩, waits, ⟨e, at_, connects⟩, next ▸ taken, next ▸ raised⟩
    · rw [not_exists] at event
      rw [next]
      exact .inl (pagingSuccesses_applyCounted eventful event)

/-- **The gauge is kept in every run.** -/
theorem gauged_countedAt (coherent : n.context.Coherent) (is : ∀ o ∈ os, o.isEventful = true)
    (few : ∀ k, (countedAt os n k).context.sessions.size < UInt64.size) (h : n.Gauged) (k : Nat) :
    (countedAt os n k).Gauged := by
  induction k with
  | zero => exact h
  | succ k ih =>
    cases at_ : os[k]? with
    | none => exact countedAt_succ_of_none (n := n) at_ ▸ ih
    | some o =>
      have few := few (k + 1)
      rw [countedAt_succ at_] at few ⊢
      exact gauged (is o (List.mem_of_getElem? at_)) (countedAt_keeps
        (P := fun n => n.context.Coherent) (fun o _ _ => o.coherent_applyCounted) coherent k) few ih

/-- **Metrics agree with what happened.** From any state that an AMF can be in, with the gauge of
sessions at their number and no paging counted, the metrics agree with what happened before every
event of a run: events are dealt with in any order, whatever the transports accept, and UEs, legs and
sessions are added beside them, the sessions counted; as long as there are no more sessions and
paging messages than 64 bits can count. -/
theorem run_accounted (reached : n.Reached) (gauge : n.Gauged)
    (requests : n.metrics.pagingRequests = 0) (successes : n.metrics.pagingSuccesses = 0)
    (is : ∀ o ∈ os, o.isEventful = true)
    (few : ∀ k, (countedAt os n k).context.sessions.size < UInt64.size ∧
      (countedAt os n k).links.pagings < n.links.pagings + UInt64.size) : Accounted os n := by
  have idle : n.context.parked.size = 0 := reached.unparked requests
  have start : n.Booked n.links.pagings :=
    ⟨Nat.le_refl _, by rw [requests, Nat.sub_self]; rfl,
      by rw [successes, idle, Nat.sub_self]; exact Nat.le_refl 0⟩
  have booked : ∀ k, (countedAt os n k).Booked n.links.pagings :=
    countedAt_keeps (fun o _ _ => o.booked) start
  have counted : ∀ k, (countedAt os n k).metrics.pagingRequests.toNat =
      (countedAt os n k).links.pagings - n.links.pagings := by
    intro k
    rw [(booked k).requests]
    exact UInt64.toNat_ofNat_of_lt (Nat.sub_lt_left_of_lt_add (booked k).since (few k).2)
  refine ⟨gauged_countedAt reached.coherent is (fun k => (few k).1) gauge, fun k => ?_, fun k => ?_,
    fun k => answered_countedAt idle is, fun t j k => Ticket.Succeeds.unique⟩
  · have since := (booked k).since
    have counted := counted k
    omega
  · have successes := (booked k).successes
    have counted := counted k
    rw [UInt64.le_iff_toNat_le]
    omega

theorem countedAt_of_le (h : os.length ≤ k) : countedAt os n k = countedAt os n os.length := by
  unfold countedAt
  rw [List.take_of_length_le h, List.take_length]

set_option maxRecDepth 4000 in
/-- The hypotheses are satisfiable: a UE is paged twice for a setup, connects in time, and gets
another session. -/
theorem run_accounted_pagedTwice :
    let os : List Operation := [.handle (.request .setUp), .handle (.timer .t3513 1 1),
      .handle (.connected 1 3 7 .nr), .addSession 1 6]
    let n : Node := { context := .oneSession, metrics := { sessions := 1 } }
    (n.Reached ∧ n.Gauged ∧ n.metrics.pagingRequests = 0 ∧ n.metrics.pagingSuccesses = 0 ∧
        (∀ o ∈ os, o.isEventful = true) ∧
        ∀ k, (countedAt os n k).context.sessions.size < UInt64.size ∧
          (countedAt os n k).links.pagings < n.links.pagings + UInt64.size) ∧
      Accounted os n ∧
      (countedAt os n 4).metrics.sessions = 2 ∧ (countedAt os n 4).metrics.pagingRequests = 2 ∧
      (countedAt os n 4).metrics.pagingSuccesses = 1 := by
  intro os n
  have reached : n.Reached :=
    ⟨default, .oneSession, { sessions := 1 }, {}, [], 0, provisioned_oneSession, rfl, rfl, rfl,
      by decide⟩
  have is : ∀ o ∈ os, o.isEventful = true := by decide
  have few : ∀ k ≤ os.length, (countedAt os n k).context.sessions.size < UInt64.size ∧
      (countedAt os n k).links.pagings < n.links.pagings + UInt64.size := by decide
  have few (k : Nat) : (countedAt os n k).context.sessions.size < UInt64.size ∧
      (countedAt os n k).links.pagings < n.links.pagings + UInt64.size := by
    rcases Nat.le_total k os.length with le | le
    · exact few k le
    · rw [countedAt_of_le le]
      exact few _ (Nat.le_refl _)
  exact ⟨⟨reached, rfl, rfl, rfl, is, few⟩, run_accounted reached rfl rfl rfl is few, by decide⟩

end Operation
end Amf
