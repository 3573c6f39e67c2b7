import Amf.Proofs.Isolation

/-!
# The budget of a paging

A UE that is paged is paged again each time T3513 expires, as often as the settings allow, and the
expiry after that gives the paging up (`Paging.start_budget`). Only live expiries count, and an expiry
is live if it is the last one that was scheduled; whatever happens to other UEs in between makes no
difference (`Event.handle_spares`).

| expiries | pagings so far | transfer | T3513 |
| --- | --- | --- | --- |
| none | 1 | parked | runs, no retries |
| `j`, up to the most retries `max` | `1 + j` | parked | runs, `j` retries |
| `max + 1` | `1 + max` | dropped, its target told | does not run |
-/

namespace Amf

open Context

/-! ## One timer -/

namespace Timers

variable {ts ts' : Timers} {kind : TimerKind} {ue r g g' : Nat}

/-- The timers of a kind that run for a UE. -/
def runningOf (ts : Timers) (kind : TimerKind) (ue : Nat) : List RunningTimer :=
  ts.running.filter (·.is kind ue)

/-- The generation of the expiry that was scheduled last for a timer. -/
def latest? (ts : Timers) (kind : TimerKind) (ue : Nat) : Option Nat :=
  (ts.scheduled.filter fun e => e.kind = kind && e.ue = ue).getLast?.map (·.generation)

/-- The timers of a kind and a UE are as before. -/
abbrev SameOf (kind : TimerKind) (ue : Nat) : Timers → Timers → Prop :=
  SameIn fun k u => k = kind && u = ue

/-- The timer of a kind and a UE runs alone, after a number of retries, and the expiry that counts is
the one that was scheduled last. -/
structure Runs (ts : Timers) (kind : TimerKind) (ue r g : Nat) : Prop where
  only : ts.runningOf kind ue = [⟨kind, ue, r, g⟩]
  latest : ts.latest? kind ue = some g

theorem Runs.of_same (h : ts.Runs kind ue r g) (same : SameOf kind ue ts ts') :
    ts'.Runs kind ue r g := by
  refine ⟨same.running.trans h.only, ?_⟩
  unfold latest?
  rw [same.scheduled]
  exact h.latest

/-- What is scheduled is the last. -/
theorem latest?_schedule : (ts.schedule kind ue).latest? kind ue = some ts.nextGeneration := by
  unfold latest? schedule
  simp

theorem runs_start (enabled : (ts.configs.of kind).enabled = true) :
    (ts.start kind ue).Runs kind ue 0 ts.nextGeneration := by
  unfold start
  rw [if_pos enabled]
  refine ⟨?_, (latest?_schedule : ((ts.stop kind ue).schedule kind ue).latest? kind ue = _)⟩
  show List.filter _ (ts.running.filter _ ++ [_]) = _
  rw [List.filter_append, List.filter_filter]
  simp [RunningTimer.is]

theorem runningOf_stop : (ts.stop kind ue).runningOf kind ue = [] := by
  unfold runningOf stop
  rw [List.filter_filter]
  simp

theorem live?_eq : ts.live? kind ue g = (ts.runningOf kind ue).find? (·.generation = g) := by
  unfold live? runningOf
  simp only [List.find?_filter, Bool.decide_and, Bool.decide_eq_true]

theorem live?_of_not_running (idle : ts.runningOf kind ue = []) : ts.live? kind ue g = none := by
  rw [live?_eq, idle]
  rfl

/-- The expiry that counts is the one of the generation under which the timer runs. -/
theorem Runs.live? (h : ts.Runs kind ue r g) :
    ts.live? kind ue g' = if g = g' then some ⟨kind, ue, r, g⟩ else none := by
  rw [live?_eq, h.only, List.find?_singleton]
  simp

theorem Runs.isSome_live? (h : ts.Runs kind ue r g) :
    (ts.live? kind ue g').isSome = true ↔ g' = g := by
  rw [h.live?]
  split
  · rename_i is
    exact iff_of_true rfl is.symm
  · rename_i other
    exact iff_of_false nofun (Ne.symm other)

/-- **A timer with retries left runs on**, and the next expiry counts. -/
theorem Runs.expire_of_lt (h : ts.Runs kind ue r g) (left : r < (ts.configs.of kind).maxRetries) :
    ∃ ts', ts.expire kind ue g = (some (.retry (r + 1)), ts') ∧
      ts'.Runs kind ue (r + 1) ts.nextGeneration := by
  unfold expire
  rw [h.live?, if_pos rfl]
  simp only
  rw [if_neg (Nat.not_le_of_lt left)]
  refine ⟨_, rfl, ?_, latest?_schedule⟩
  -- What the timer is replaced by is of the same kind and UE.
  have retried : (fun t : RunningTimer => t.is kind ue) ∘ (fun t => if t.is kind ue then
      (⟨kind, ue, r + 1, ts.nextGeneration⟩ : RunningTimer) else t) = (·.is kind ue) := by
    funext t
    simp only [Function.comp]
    split
    · rename_i is
      rw [is, RunningTimer.is_iff]
      exact ⟨rfl, rfl⟩
    · rfl
  show List.filter _ (ts.running.map _) = _
  rw [List.filter_map, retried]
  refine Eq.trans (List.map_congr_left fun t mem => if_pos (List.mem_filter.1 mem).2) ?_
  rw [show ts.running.filter (·.is kind ue) = _ from h.only]
  rfl

/-- A timer without retries left stops. -/
theorem Runs.expire_of_le (h : ts.Runs kind ue r g) (spent : (ts.configs.of kind).maxRetries ≤ r) :
    ts.expire kind ue g = (some .exhausted, ts.stop kind ue) := by
  unfold expire
  rw [h.live?, if_pos rfl]
  exact if_pos spent

theorem expire_eq_none_iff : ts.expire kind ue g = (none, ts) ↔ ts.live? kind ue g = none := by
  unfold expire
  split
  · rename_i stale
    exact iff_of_true rfl stale
  · rename_i live
    refine iff_of_false ?_ (by rw [live]; exact nofun)
    split <;> exact nofun

/-- No other expiry counts. -/
theorem Runs.eq_of_expire {e : Expiry} (h : ts.Runs kind ue r g)
    (expiry : ts.expire kind ue g' = (some e, ts')) : g' = g := by
  by_contra other
  rw [expire_eq_none_iff.2 (by rw [h.live?, if_neg (Ne.symm other)])] at expiry
  cases expiry

theorem Runs.of_retry {i : Nat} (h : ts.Runs kind ue r g)
    (expiry : ts.expire kind ue g' = (some (.retry i), ts')) :
    r < (ts.configs.of kind).maxRetries ∧ ts'.Runs kind ue (r + 1) ts.nextGeneration := by
  cases h.eq_of_expire expiry
  obtain left | spent := Nat.lt_or_ge r (ts.configs.of kind).maxRetries
  · obtain ⟨ts'', retried, runs⟩ := h.expire_of_lt left
    rw [retried] at expiry
    cases expiry
    exact ⟨left, runs⟩
  · rw [h.expire_of_le spent] at expiry
    cases expiry

theorem Runs.of_exhausted (h : ts.Runs kind ue r g)
    (expiry : ts.expire kind ue g' = (some .exhausted, ts')) :
    (ts.configs.of kind).maxRetries ≤ r := by
  cases h.eq_of_expire expiry
  refine Nat.le_of_not_lt fun left => ?_
  obtain ⟨ts'', retried, -⟩ := h.expire_of_lt left
  rw [retried] at expiry
  cases expiry

end Timers

variable {a : Act} {n n' m m' : Node} {u v j max : Nat} {pdu : Octets} {p : Parked}

/-! ## The timers of a step -/

/-- The act may start, stop or retry the timer of a kind and a UE. -/
def Act.Times (kind : TimerKind) (u : Nat) : Act → Prop
  | .park v _ | .repeatPaging v | .giveUp v | .connect v => kind = .t3513 ∧ v = u
  | .deregister v | .expireRequest v => kind = .t3522 ∧ v = u
  | .detach v => v = u
  | _ => False

/-- **What each step does to the timers**: those that are not its own are as before. -/
theorem Step.sameIn {p : TimerKind → Nat → Bool} (step : Step a n n')
    (other : ∀ kind u, a.Times kind u → p kind u = false) :
    Timers.SameIn p n.context.timers n'.context.timers := by
  cases step with
  | park => exact .start (other _ _ ⟨rfl, rfl⟩)
  | deregister => exact .start (other _ _ ⟨rfl, rfl⟩)
  | repeatPaging expiry | repeatRefused expiry | expireRequest expiry =>
    exact .expire expiry (other _ _ ⟨rfl, rfl⟩)
  | repeatNothing expiry lost =>
    have expired : Timers.SameIn p n.context.timers _ := .expire expiry (other _ _ ⟨rfl, rfl⟩)
    obtain ⟨-, rfl⟩ | ⟨-, rfl⟩ := lost
    · exact expired
    · exact expired.trans (.stop (other _ _ ⟨rfl, rfl⟩))
  | giveUp expiry =>
    rw [Node.context_offerAll]
    exact .expire expiry (other _ _ ⟨rfl, rfl⟩)
  | stopRequest => exact .stop (other _ _ ⟨rfl, rfl⟩)
  | connect _ room =>
    rw [Node.context_connect, ← (same_addLeg room).timers]
    exact .stop (other _ _ ⟨rfl, rfl⟩)
  | detach =>
    rw [Node.context_change, Node.context_uncountLeg, detach_eq]
    exact .stopAll fun kind => other kind _ rfl
  | remove => exact .of_eq timers_removeSession
  | disconnect => exact .of_eq same_disconnect.timers
  | _ => exact .refl

/-! ## What leaves -/

/-- Both transports accept every message. -/
def Links.Open (l : Links) : Prop := (∀ i, l.radioAccepts i = true) ∧ ∀ i, l.peerAccepts i = true

namespace Links.Open

variable {l : Links} {ms : List Outbound}

theorem takes (h : l.Open) (x : Outbound) : l.Takes x := by
  cases x with
  | radio => exact h.1
  | peer => exact h.2

theorem offer {x : Outbound} (h : l.Open) : (l.offer x).Open := by
  cases x <;> exact h

theorem offerAll (h : n.links.Open) : (n.offerAll ms).links.Open := by
  induction ms generalizing n with
  | nil => exact h
  | cons x ms ih => exact ih (n := n.offer x) h.offer

end Links.Open

/-- The message pages a UE. -/
def Outbound.pages (u : Nat) : Outbound → Bool
  | .radio (.paging v _) => v = u
  | _ => false

/-- The pagings of a UE that have left. -/
def Node.pagings (n : Node) (u : Nat) : List Outbound := n.links.sent.filter (·.pages u)

theorem Node.pagings_of_sent {x : Outbound} (sent : n'.links.sent = n.links.sent ++ [x]) :
    n'.pagings u = n.pagings u ++ if x.pages u then [x] else [] := by
  unfold pagings
  rw [sent, List.filter_append, List.filter_cons, List.filter_nil]

theorem Node.pagings_of_paging (sent : n'.links.sent = n.links.sent ++ [.radio (.paging u pdu)]) :
    n'.pagings u = n.pagings u ++ [.radio (.paging u pdu)] :=
  (pagings_of_sent sent).trans (congrArg _ (if_pos (decide_eq_true rfl)))

/-- Other messages are no pagings of the UE, whether they leave or not. -/
theorem Node.pagings_offerAll_of_other {ms : List Outbound} (other : ∀ x ∈ ms, x.pages u = false) :
    (n.offerAll ms).pagings u = n.pagings u := by
  induction ms generalizing n with
  | nil => rfl
  | cons x ms ih =>
    refine (ih (n := n.offer x) fun y mem => other y (List.mem_cons_of_mem x mem)).trans ?_
    cases accepted : n.links.accepts x with
    | true =>
      rw [pagings_of_sent (Links.sent_offer_of_accepted accepted), other x List.mem_cons_self]
      exact List.append_nil _
    | false => exact congrArg (List.filter _) (Links.sent_offer_of_refused accepted)

theorem Context.pages_of_mem_reports {c : Context} {x : Outbound} (mem : x ∈ c.reports v) :
    x.pages u = false := by
  cases x with
  | radio => exact absurd mem not_radio_of_mem_reports
  | peer => rfl

/-! ## What happens to other UEs -/

/-- The paging of a UE is as before: what is parked for it, its message and its timer, and none has
left for it since. -/
structure Node.Spares (u : Nat) (n n' : Node) : Prop where
  parked : n'.context.parked.get? u = n.context.parked.get? u
  message : n'.context.pagingOf u = n.context.pagingOf u
  timer : Timers.SameOf .t3513 u n.context.timers n'.context.timers
  pagings : n'.pagings u = n.pagings u

theorem Node.Spares.refl : n.Spares u n := ⟨rfl, rfl, .refl, rfl⟩

theorem Node.Spares.trans (first : n.Spares u m) (second : m.Spares u m') : n.Spares u m' :=
  ⟨second.parked.trans first.parked, second.message.trans first.message,
    first.timer.trans second.timer, second.pagings.trans first.pagings⟩

/-- The act only amends UEs, or touches none but another one. -/
def Act.Avoids (c : Context) (u : Nat) (a : Act) : Prop :=
  a.amends = true ∨ ∃ v, v ≠ u ∧ a.Touches c v

namespace Act.Avoids

variable {c : Context}

/-- What is about a UE, or sends it a paging or changes its timer, does not avoid it. -/
theorem not_times (h : a.Avoids c u) : ¬a.Times .t3513 u := by
  intro times
  obtain amends | ⟨v, other, touches⟩ := h
  · cases a with
    | deregister => cases times.1
    | tell | ask | mark | setPolicy => cases times
    | _ => cases amends
  · cases a with
    | park | repeatPaging | giveUp | connect => exact other (touches.symm.trans times.2)
    | detach => exact other (touches.symm.trans times)
    | deregister | expireRequest => cases times.1
    | _ => cases times

theorem pages_eq_false {x : Outbound} (h : a.Avoids c u) (may : a.MayOffer n x) :
    x.pages u = false := by
  match x with
  | .radio (.paging v pdu) =>
    refine decide_eq_false ?_
    rintro rfl
    obtain amends | ⟨w, other, touches⟩ := h
    · obtain ⟨p, rfl⟩ | rfl | rfl := may <;> cases amends
    · obtain ⟨p, rfl⟩ | rfl | rfl := may <;> exact other touches.symm
  | .radio (.toLeg ..) => rfl
  | .peer _ => rfl

end Act.Avoids

namespace Step

/-- **An act that avoids a UE spares its paging.** -/
theorem spares (step : Step a n n') (ordered : n.context.Ordered)
    (avoids : a.Avoids n.context u) : n.Spares u n' := by
  obtain ⟨ms, links, may⟩ := step.hands
  have record : n'.context.parked.get? u = n.context.parked.get? u ∧
      n'.context.pagingOf u = n.context.pagingOf u := by
    obtain amends | ⟨v, other, touches⟩ := avoids
    · cases step with
      | tell | ask => exact ⟨rfl, rfl⟩
      | deregister | mark | setPolicy => exact ⟨rfl, Table.map_get?_modify fun _ => rfl⟩
      | _ => cases amends
    · have keeps := step.keeps ordered touches (Ne.symm other)
      exact ⟨keeps.parked, congrArg (Option.map _) keeps.ue⟩
  refine ⟨record.1, record.2, step.sameIn fun kind v times => ?_, ?_⟩
  · rw [Bool.and_eq_false_iff, decide_eq_false_iff_not, decide_eq_false_iff_not]
    refine not_and_or.1 ?_
    rintro ⟨rfl, rfl⟩
    exact avoids.not_times times
  · unfold Node.pagings
    rw [links]
    exact Node.pagings_offerAll_of_other fun x mem => avoids.pages_eq_false (may x mem)

end Step

/-- Acts that avoid a UE before sessions go avoid it later. -/
theorem Act.Avoids.of_fewer {c c' : Context} (h : a.Avoids c u)
    (fewer : ∀ id key, c'.sessionKey id = some key → c.sessionKey id = some key) :
    a.Avoids c' u :=
  h.imp_right fun ⟨v, other, touches⟩ => ⟨v, other, touches.of_fewer fewer⟩

/-- **Whatever happens to other UEs, the paging of a UE is as before.** -/
theorem Event.handle_spares {e : Event} (ordered : n.context.Ordered)
    (other : e.addressee? n.context ≠ some u) : n.Spares u (e.handle n).2 := by
  have avoids : ∀ a, e.Does n a → a.Avoids n.context u := by
    intro a does
    obtain amends | ⟨v, addressed, about⟩ := does.named
    · exact .inl amends
    · refine .inr ⟨v, ?_, about.touches ordered⟩
      rintro rfl
      exact other addressed
  have kept := (does_course e n).chain.keeps_of_fewer
    (P := fun m => m.context.Ordered ∧ n.Spares u m)
    (fun a m m' does fewer step ⟨ordered, spared⟩ =>
      ⟨step.ordered ordered, spared.trans (step.spares ordered ((avoids a does).of_fewer fewer))⟩)
    ⟨ordered, .refl⟩
  exact kept.2

/-! ## The expiries of a paging -/

namespace Paging

/-- A transfer is parked for a UE, which has been paged again a number of times. -/
structure Pending (c : Context) (u : Nat) (pdu : Octets) (p : Parked) (j : Nat) : Prop where
  parked : c.parked.get? u = some p
  message : c.pagingOf u = some (some pdu)
  /-- The expiry that counts is the one that was scheduled last. -/
  timer : ∃ g, c.timers.Runs .t3513 u j g

/-- A UE is not paged any more, and nothing is parked for it. -/
structure Over (c : Context) (u : Nat) : Prop where
  parked : c.parked.get? u = none
  message : c.pagingOf u = some none
  timer : c.timers.runningOf .t3513 u = []

theorem over_quitPaging {c : Context} {x : Ue} (known : c.ues.get? u = some x) :
    Over (c.quitPaging u (c.timers.stop .t3513 u)) u := by
  refine ⟨Table.get?_erase_self _ _, ?_, Timers.runningOf_stop⟩
  show ((c.ues.modify u _).get? u).map _ = _
  rw [Table.get?_modify_of_some known]
  rfl

/-- What a paging has come to after a number of expiries that counted: the UE has been paged once and
then once for each of them, until there was one more than the most retries. -/
structure Spent (n : Node) (u : Nat) (pdu : Octets) (p : Parked) (max j : Nat) (m : Node) : Prop where
  bounded : j ≤ max + 1
  pagings : m.pagings u = n.pagings u ++ List.replicate (1 + min j max) (.radio (.paging u pdu))
  pending : j ≤ max → Pending m.context u pdu p j
  ended : j = max + 1 → Over m.context u
  settings : m.context.timers.configs.t3513.maxRetries = max

namespace Spent

theorem of_spares (h : Spent n u pdu p max j m) (spares : m.Spares u m') :
    Spent n u pdu p max j m' where
  bounded := h.bounded
  pagings := spares.pagings.trans h.pagings
  pending left := by
    obtain ⟨parked, message, g, runs⟩ := h.pending left
    exact ⟨spares.parked.trans parked, spares.message.trans message, g, runs.of_same spares.timer⟩
  ended spent := by
    obtain ⟨parked, message, timer⟩ := h.ended spent
    exact ⟨spares.parked.trans parked, spares.message.trans message, spares.timer.running.trans timer⟩
  settings := spares.timer.configs ▸ h.settings

/-- **The expiry that counts is the one that was scheduled last**, until the paging is given up. -/
theorem isSome_live? (h : Spent n u pdu p max j m) (g : Nat) :
    (m.context.timers.live? .t3513 u g).isSome = true ↔
      j ≤ max ∧ m.context.timers.latest? .t3513 u = some g := by
  by_cases left : j ≤ max
  · obtain ⟨-, -, g', runs⟩ := h.pending left
    rw [runs.isSome_live?, runs.latest, and_iff_right left, Option.some.injEq]
    exact eq_comm
  · have spent := h.ended (by have := h.bounded; omega)
    rw [Timers.live?_of_not_running spent.timer]
    exact iff_of_false nofun fun is => left is.1

/-- A paging that is repeated had retries left. -/
theorem repeatPaging (h : Spent n u pdu p max j m) (opened : m.links.Open) (left : j ≤ max)
    (step : Step (.repeatPaging u) m m') :
    j < max ∧ Spent n u pdu p max (j + 1) m' ∧
      m'.links.sent = m.links.sent ++ [.radio (.paging u pdu)] := by
  obtain ⟨parked, message, g, runs⟩ := h.pending left
  obtain ⟨x, known, kept⟩ := Option.map_eq_some_iff.1 message
  cases step with
  | repeatNothing _ lost =>
    obtain ⟨unknown, -⟩ | ⟨empty, -⟩ := lost
    · rw [known] at unknown
      cases unknown
    · rw [known, Option.map_some, kept] at empty
      cases empty
  | repeatRefused _ _ _ refused =>
    rw [(opened.takes _).accepts] at refused
    cases refused
  | repeatPaging expiry ue kept' =>
    cases known.symm.trans ue
    cases kept.symm.trans kept'
    obtain ⟨more, runs'⟩ := runs.of_retry expiry
    have more : j < max := h.settings ▸ more
    have sent := Links.sent_offer_of_accepted (opened.takes (.radio (.paging u pdu))).accepts
    refine ⟨more, ⟨by omega, ?_, fun _ => ⟨parked, message, _, runs'⟩, fun _ => by omega, ?_⟩, sent⟩
    · have again : 1 + min (j + 1) max = 1 + min j max + 1 := by omega
      rw [again, List.replicate_succ', ← List.append_assoc, ← h.pagings]
      exact Node.pagings_of_paging sent
    · exact (congrArg (·.t3513.maxRetries) (Timers.configs_of_expire expiry)).trans h.settings

/-- A paging that is given up had no retries left, and what was parked is reported. -/
theorem giveUp (h : Spent n u pdu p max j m) (opened : m.links.Open) (left : j ≤ max)
    (step : Step (.giveUp u) m m') :
    j = max ∧ Spent n u pdu p max (j + 1) m' ∧ m'.links.sent = m.links.sent ++ p.reports := by
  obtain ⟨parked, message, g, runs⟩ := h.pending left
  obtain ⟨x, known, -⟩ := Option.map_eq_some_iff.1 message
  cases step with
  | giveUp expiry =>
    have spent : max ≤ j := h.settings ▸ runs.of_exhausted expiry
    rw [Timers.eq_of_expire_exhausted expiry]
    refine ⟨by omega, ⟨by omega, ?_, fun _ => by omega, fun _ => ?_, ?_⟩, ?_⟩
    · rw [show min (j + 1) max = min j max by omega, ← h.pagings]
      exact Node.pagings_offerAll_of_other fun x mem => pages_of_mem_reports mem
    · rw [Node.context_offerAll]
      exact over_quitPaging known
    · rw [Node.context_offerAll]
      exact h.settings
    · rw [← Context.reports_of_some parked]
      exact Node.sent_offerAll (n := m.change _) fun x _ => opened.takes x

/-- **Each expiry that counts pages the UE again, until the one that gives the paging up.** -/
theorem expired (h : Spent n u pdu p max j m) (opened : m.links.Open) {g : Nat}
    (live : (m.context.timers.live? .t3513 u g).isSome = true) :
    let m' := ((Paging.expired u g).exec m).2
    Spent n u pdu p max (j + 1) m' ∧
      m'.links.sent = m.links.sent ++ if j < max then [.radio (.paging u pdu)] else p.reports := by
  have left := ((h.isSome_live? g).1 live).1
  obtain ⟨stale, -⟩ | ⟨i, timers, -, step⟩ | ⟨timers, -, step⟩ := expired_cases u g m
  · rw [Timers.expire_eq_none_iff.1 stale] at live
    cases live
  · obtain ⟨more, spent, sent⟩ := h.repeatPaging opened left step
    rw [if_pos more]
    exact ⟨spent, sent⟩
  · obtain ⟨rfl, spent, sent⟩ := h.giveUp opened left step
    rw [if_neg (Nat.lt_irrefl _)]
    exact ⟨spent, sent⟩

end Spent

end Paging

/-! ## Runs -/

namespace Event

/-- The event is an expiry of the paging of a UE, and counts. -/
def counts (e : Event) (u : Nat) (n : Node) : Bool :=
  match e with
  | .timer .t3513 v g => v = u && (n.context.timers.live? .t3513 u g).isSome
  | _ => false

/-- How many of the first events of a run are expiries of the paging of a UE that count. -/
def expiries (u : Nat) (es : List Event) (n : Node) (k : Nat) : Nat :=
  (List.range k).countP fun i => es[i]?.any fun e => e.counts u (stateAt es n i)

variable {es : List Event} {e : Event} {k g : Nat}

theorem expiries_succ (there : es[k]? = some e) : expiries u es n (k + 1) =
    expiries u es n k + if e.counts u (stateAt es n k) then 1 else 0 := by
  unfold expiries
  rw [List.range_succ, List.countP_append, List.countP_singleton, there]
  rfl

theorem expiries_succ_of_none (ended : es[k]? = none) :
    expiries u es n (k + 1) = expiries u es n k := by
  unfold expiries
  rw [List.range_succ, List.countP_append, List.countP_singleton, ended]
  rfl

/-- An expiry that counts is about the UE. -/
theorem counts_of_other (other : e.addressee? m.context ≠ some u) : e.counts u m = false := by
  unfold counts
  split
  · rename_i v g
    rw [decide_eq_false fun is : v = u => other (congrArg some is)]
    rfl
  · rfl

theorem counts_timer : (timer .t3513 u g).counts u m = (m.context.timers.live? .t3513 u g).isSome := by
  simp only [counts, decide_true, Bool.true_and]

/-- A stale expiry does nothing. -/
theorem handle_timer_of_stale (stale : m.context.timers.live? .t3513 u g = none) :
    ((timer .t3513 u g).handle m).2 = m := by
  show ((Paging.expired u g).exec m).2 = m
  obtain ⟨-, same⟩ | ⟨_, _, expiry, -⟩ | ⟨_, expiry, -⟩ := Paging.expired_cases u g m
  · exact same
  · rw [Timers.expire_eq_none_iff.2 stale] at expiry
    cases expiry
  · rw [Timers.expire_eq_none_iff.2 stale] at expiry
    cases expiry

/-- Transports that accept everything do so after an event. -/
theorem handle_open (e : Event) (h : n.links.Open) : (e.handle n).2.links.Open :=
  (e.handle_chain n).keeps (P := fun m => m.links.Open) (fun _ _ _ _ step h => by
    obtain ⟨ms, links, -⟩ := step.hands
    rw [links]
    exact h.offerAll) h

theorem handle_ordered (e : Event) (h : n.context.Ordered) : (e.handle n).2.context.Ordered :=
  (e.handle_chain n).keeps (P := fun m => m.context.Ordered) (fun _ _ _ _ step => step.ordered) h

end Event

namespace Paging

/-- **What a run makes of a paging**, if it is about other UEs, or an expiry of the paging. -/
theorem Spent.run {n₁ : Node} {es : List Event} (h : Spent n u pdu p max 0 n₁)
    (ordered : n₁.context.Ordered) (opened : n₁.links.Open)
    (waits : ∀ k (e : Event), es[k]? = some e → (∃ g, e = .timer .t3513 u g) ∨
      e.addressee? (Event.stateAt es n₁ k).context ≠ some u) (k : Nat) :
    Spent n u pdu p max (Event.expiries u es n₁ k) (Event.stateAt es n₁ k) ∧
      (Event.stateAt es n₁ k).links.Open := by
  have kept : ((Event.stateAt es n₁ k).context.Ordered ∧ (Event.stateAt es n₁ k).links.Open) ∧
      Spent n u pdu p max (Event.expiries u es n₁ k) (Event.stateAt es n₁ k) := by
    induction k with
    | zero => exact ⟨⟨ordered, opened⟩, h⟩
    | succ k ih =>
      obtain ⟨⟨ordered, opened⟩, spent⟩ := ih
      cases there : es[k]? with
      | none =>
        rw [Event.stateAt_succ_of_none there, Event.expiries_succ_of_none there]
        exact ⟨⟨ordered, opened⟩, spent⟩
      | some e =>
        rw [Event.stateAt_succ there, Event.expiries_succ there]
        refine ⟨⟨e.handle_ordered ordered, e.handle_open opened⟩, ?_⟩
        obtain ⟨g, rfl⟩ | other := waits k e there
        · rw [Event.counts_timer]
          cases live : ((Event.stateAt es n₁ k).context.timers.live? .t3513 u g).isSome with
          | true => exact (spent.expired opened live).1
          | false =>
            have stale := Option.not_isSome_iff_eq_none.1 (Bool.eq_false_iff.1 live)
            rw [Event.handle_timer_of_stale stale]
            exact spent
        · rw [Event.counts_of_other other]
          exact spent.of_spares (Event.handle_spares ordered other)
  exact ⟨kept.2, kept.1.2⟩

section
variable {s : Session} {id : Nat} {payload : Payload} {uri : Option String} {location : String}

/-- A UE that is parked for and paged is in order. -/
theorem ordered_park (clients : Clients) (h : n.context.Ordered)
    (key : n.context.sessionKey p.session = some (u, p.psi)) :
    (n.park clients u pdu p).context.Ordered := by
  have same : n.context.SameSessions (n.park clients u pdu p).context :=
    .of_modifyUe rfl rfl fun _ => rfl
  have alters : (Act.park u p).Alters n.context (n.park clients u pdu p).context := ⟨rfl, key, same⟩
  have links : n.context.SameLinks (n.park clients u pdu p).context :=
    .of_modifyUe rfl rfl rfl fun _ => rfl
  exact ⟨h.listed.of_same same, alters.owned h.owned, links.joined h.joined⟩

/-- A paging that starts has the whole budget. -/
theorem spent_park (clients : Clients) (p : Parked) {x : Ue} (known : n.context.ues.get? u = some x)
    (enabled : n.context.timers.configs.t3513.enabled = true)
    (accepted : n.links.accepts (.radio (.paging u pdu)) = true) :
    Spent n u pdu p n.context.timers.configs.t3513.maxRetries 0 (n.park clients u pdu p) where
  bounded := Nat.zero_le _
  pagings := by
    rw [Nat.zero_min]
    exact Node.pagings_of_paging (Links.sent_offer_of_accepted (l := n.links) accepted)
  pending _ :=
    ⟨Table.get?_insert_self _ _ _, pagingOf_park (c := n.context.withClients clients) known, _,
      (Timers.runs_start enabled : (n.context.timers.start .t3513 u).Runs .t3513 u 0 _)⟩
  ended := nofun
  settings := by
    show (n.context.timers.start .t3513 u).configs.t3513.maxRetries = _
    rw [Timers.configs_start]

/-- **A paging runs its full budget.** Let a paging start, and let everything that follows be expiries
of it or not about its UE. Then the UE is paged again, with the same message, at each expiry that counts
while retries are left; at the next one what is parked for it is dropped, and its target is told under
the location that the start has yielded. Only the expiry that was scheduled last counts, and none does
after that. -/
theorem start_budget {n₁ : Node} {es : List Event} (intact : n.context.Intact)
    (joined : n.context.Joined) (enabled : n.context.timers.configs.t3513.enabled = true)
    (opened : n.links.Open) (session : n.context.sessions.get? id = some s)
    (started : (start id payload uri).exec n = (.ok location, n₁))
    (waits : ∀ k (e : Event), es[k]? = some e → (∃ g, e = .timer .t3513 s.ue g) ∨
      e.addressee? (Event.stateAt es n₁ k).context ≠ some s.ue) :
    ∃ pdu p, p.session = id ∧ p.payload = payload ∧ p.location = location ∧
      p.target.map (·.uri) = uri ∧ ∀ k,
        let max := n.context.timers.configs.t3513.maxRetries
        let m := Event.stateAt es n₁ k
        let j := Event.expiries s.ue es n₁ k
        Spent n s.ue pdu p max j m ∧ ∀ g,
          let m' := ((Event.timer .t3513 s.ue g).handle m).2
          ((m.context.timers.live? .t3513 s.ue g).isSome = true ↔
            j ≤ max ∧ m.context.timers.latest? .t3513 s.ue = some g) ∧
          ((m.context.timers.live? .t3513 s.ue g).isSome = true → m'.links.sent = m.links.sent ++
            if j < max then [.radio (.paging s.ue pdu)] else p.reports) := by
  obtain ⟨x, guti, clients, target, known, -, resolved, accepted, done⟩ | ⟨⟨fault, failed⟩, -⟩ :=
    start_outcome payload uri session
  · generalize Api.transferLocation n.context.origin x.name s.smRef = made at done
    rw [done] at started
    obtain ⟨same, rfl⟩ := Prod.mk.inj started
    cases same
    refine ⟨Ngap.Paging.octets { guti, tai := x.tai }, ⟨id, s.psi, location, target, payload⟩,
      rfl, rfl, rfl, ?_, fun k => ?_⟩
    · cases resolved <;> rfl
    · have key : n.context.sessionKey id = some (s.ue, s.psi) := sessionKey_of_some session
      have start := spent_park clients ⟨id, s.psi, location, target, payload⟩ known enabled accepted
      obtain ⟨spent, opened⟩ := start.run (ordered_park clients (.of_intact intact joined) key)
        (opened.offer (x := .radio (.paging s.ue _))) waits k
      exact ⟨spent, fun g => ⟨spent.isSome_live? g, fun live => (spent.expired opened live).2⟩⟩
  · rw [started] at failed
    cases failed

end

set_option maxRecDepth 4000 in
/-- The hypotheses are satisfiable: a release is given up with the third expiry, although the leg of
another UE is reported gone in between. -/
theorem start_budget_release :
    let n : Node := { context := .oneSession }
    let n₁ := ((start 1 (.release none [3]) (some "http://10.0.0.7/releases")).exec n).2
    let location := Api.transferLocation n.context.origin "imsi-1" none
    let es : List Event := [.timer .t3513 1 1, .released 2, .timer .t3513 1 2, .timer .t3513 1 3]
    (n.context.Intact ∧ n.context.Joined ∧ n.context.timers.configs.t3513.enabled = true ∧
      n.links.Open ∧
      (start 1 (.release none [3]) (some "http://10.0.0.7/releases")).exec n = (.ok location, n₁) ∧
      ∀ k (e : Event), es[k]? = some e → (∃ g, e = .timer .t3513 1 g) ∨
        e.addressee? (Event.stateAt es n₁ k).context ≠ some 1) ∧
    ∃ pdu p, p.location = location ∧ p.target.map (·.uri) = some "http://10.0.0.7/releases" ∧
      Spent n 1 pdu p 2 3 (Event.stateAt es n₁ 4) := by
  intro n n₁ location es
  obtain ⟨intact, joined, enabled⟩ := Event.run_ready provisioned_oneSession {} {} []
  have opened : n.links.Open := ⟨fun _ => rfl, fun _ => rfl⟩
  have started : (start 1 (.release none [3]) (some "http://10.0.0.7/releases")).exec n =
      (.ok location, n₁) := by rfl
  have session : n.context.sessions.get? 1 = some { psi := 5, ue := 1 } := by rfl
  have waits : ∀ k (e : Event), es[k]? = some e → (∃ g, e = .timer .t3513 1 g) ∨
      e.addressee? (Event.stateAt es n₁ k).context ≠ some 1
    | 0, _, rfl => .inl ⟨1, rfl⟩
    | 1, _, rfl => .inr (by simp [Event.addressee?])
    | 2, _, rfl => .inl ⟨2, rfl⟩
    | 3, _, rfl => .inl ⟨3, rfl⟩
  have count : Event.expiries 1 es n₁ 4 = 3 := by decide
  refine ⟨⟨intact, joined, enabled, opened, started, waits⟩, ?_⟩
  obtain ⟨pdu, p, -, -, is, target, spent⟩ :=
    start_budget intact joined enabled opened session started waits
  exact ⟨pdu, p, is, target, count ▸ (spent 4).1⟩

end Paging
end Amf
