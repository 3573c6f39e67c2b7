import Amf.Proofs.Abiding
import Mathlib.Data.List.ReduceOption

/-!
# The budget of a deregistration request

A UE that is asked to deregister is asked again, with the same octets, each time T3522 expires, on the
leg that it has by then, as often as the settings allow (`Deregistration.notify_budget`). Its leg may
be replaced in between, and whatever else happens makes no difference (`Event.handle_abides`). Only
expiries that count are numbered here; `max` is the most retries.

| expiries | leg at the last one | requests so far | T3522 | request |
| --- | --- | --- | --- | --- |
| none | | 1 | runs | kept |
| `j`, up to `max` | there | `1 + j` | runs | kept |
| `max + 1` | there | `1 + max` | does not run | gone |
| `j`, up to `max + 1` | none | `j` | does not run | |
-/

namespace Amf

open Context Procedure

variable {A : Act → Prop} {n n' : Node} {u v k g max : Nat} {l : Leg} {nas : Octets}
  {had : List (Option Leg)}

/-! ## States before a request -/

/-- The radio network takes every message from now on. -/
def Node.Heeds (n : Node) : Prop := ∀ i, n.links.radioOffered ≤ i → n.links.radioAccepts i = true

theorem Node.Heeds.accepts (h : n.Heeds) (m : RadioMessage) : n.links.accepts (.radio m) = true :=
  h _ le_rfl

theorem Node.Heeds.offer (h : n.Heeds) (m : Outbound) : (n.offer m).Heeds := by
  cases m with
  | radio => exact fun i later => h i (Nat.le_of_succ_le later)
  | peer => exact h

theorem Node.Heeds.offerAll {ms : List Outbound} (h : n.Heeds) : (n.offerAll ms).Heeds := by
  induction ms generalizing n with
  | nil => exact h
  | cons m ms ih => exact ih (h.offer m)

theorem Node.Heeds.of_links (h : n.Heeds) (same : n'.links = n.links) : n'.Heeds := by
  unfold Heeds
  rw [same]
  exact h

/-- The context is in order, what sessions hold back asks nobody to deregister, and the radio network
takes every message. -/
structure Node.Steady (n : Node) : Prop where
  ordered : n.context.Ordered
  held : n.context.HoldsSetups
  heeds : n.Heeds

theorem Chain.steady (chain : Chain A n n') (h : n.Steady) : n'.Steady := by
  refine ⟨?_, chain.holdsSetups h.held, ?_⟩
  · exact chain.keeps (P := fun m => m.context.Ordered) (fun _ _ _ _ step => step.ordered) h.ordered
  · obtain ⟨ms, links⟩ := chain.hands
    exact h.heeds.offerAll.of_links links

/-- What sessions hold back asks nobody to deregister, and T3522 may be started. -/
structure Context.Poised (c : Context) : Prop where
  held : c.HoldsSetups
  enabled : c.timers.configs.t3522.enabled = true

theorem Chain.configs (chain : Chain A n n') :
    n'.context.timers.configs = n.context.timers.configs :=
  chain.keeps (P := fun m => m.context.timers.configs = n.context.timers.configs)
    (fun _ _ _ _ step same => ((step.sameIn fun _ _ _ => rfl :
      Timers.SameIn (fun _ _ => false) _ _).configs).trans same) rfl

theorem Chain.poised (chain : Chain A n n') (h : n.context.Poised) : n'.context.Poised :=
  ⟨chain.holdsSetups h.held, chain.configs ▸ h.enabled⟩

theorem Node.Begins.poised (begins : n.Begins n') (h : n.context.Poised) : n'.context.Poised := by
  cases begins with
  | nothing => exact h
  | @park u =>
    refine ⟨h.held, ?_⟩
    show (n.context.timers.start .t3513 u).configs.t3522.enabled = true
    rw [Timers.configs_start]
    exact h.enabled
  | answer u =>
    rw [Node.context_answer]
    exact ⟨h.held, h.enabled⟩

namespace Operation

/-- **Every operation leaves a context poised**, but for those that do not count legs. -/
theorem poised (o : Operation) (counts : o.countsLegs = true) (h : n.context.Poised) :
    (o.apply n).context.Poised := by
  cases o with
  | removeUe | onLegs => cases counts
  | addUe => exact of_addUe (P := Poised) h ⟨h.held, h.enabled⟩
  | setSupi v supi =>
    show (n.context.setSupi v supi).Poised
    unfold Context.setSupi
    split <;> exact ⟨h.held, h.enabled⟩
  | setGuti v guti =>
    show (n.context.setGuti v guti).Poised
    unfold Context.setGuti
    split <;> exact ⟨h.held, h.enabled⟩
  | addSession v psi =>
    refine of_addSession (P := Poised) h fun _ _ => ⟨fun id s pdu there held => ?_, h.enabled⟩
    change (n.context.sessions.insert _ { psi, ue := v }).get? id = some s at there
    rw [Table.get?_insert] at there
    split at there
    · cases there
      cases held
    · exact h.held id s pdu there held
  | removeSession id =>
    refine ⟨h.held.of_within ?_, ?_⟩
    · show Table.Within _ _ (n.context.removeSession id).sessions
      rw [sessions_removeSession]
      exact Table.within_erase Session.allows_letsGo.self
    · show (n.context.removeSession id).timers.configs.t3522.enabled = true
      rw [timers_removeSession]
      exact h.enabled
  | handle | perform | page | answer =>
    exact of_drives (P := fun m => m.context.Poised) rfl fun begins chain =>
      chain.poised (begins.poised h)

/-- After operations that count legs, from a context that was set up, everything is ready for a
request. -/
theorem run_poised {config : Config} {c : Context} (provisioned : Provisioned config c)
    (metrics : Metrics) (links : Links) {os : List Operation} (counts : ∀ o ∈ os, o.countsLegs = true) :
    let n := run os { context := c, metrics, links }
    n.context.Ordered ∧ n.context.Poised := by
  intro n
  have poised : c.Poised := by
    refine ⟨fun id s pdu there held => ?_, provisioned.fresh.enabled .t3522⟩
    rw [(provisioned.fresh.sessions id s there).2] at held
    cases held
  have kept : n.context.Coherent ∧ n.context.Joined ∧ n.context.Poised :=
    run_keeps_of_forall (P := fun n => n.context.Coherent ∧ n.context.Joined ∧ n.context.Poised)
      (fun o _ counts ⟨coherent, joined, poised⟩ => ⟨o.coherent coherent,
        o.joined counts coherent.registered joined, o.poised counts poised⟩)
      counts ⟨provisioned.coherent, provisioned.fresh.joined, poised⟩
  exact ⟨.of_intact kept.1.intact kept.2.1, kept.2.2⟩

end Operation

/-! ## One timer -/

namespace Timers

variable {ts : Timers} {kind : TimerKind} {r : Nat}

theorem Runs.isRunning (h : ts.Runs kind u r g) : ts.isRunning kind u = true := by
  have mem : ⟨kind, u, r, g⟩ ∈ ts.runningOf kind u := h.only ▸ List.mem_singleton_self _
  exact isRunning_iff.2 ⟨_, (List.mem_filter.1 mem).1, rfl, rfl⟩

theorem isRunning_of_runningOf (idle : ts.runningOf kind u = []) : ts.isRunning kind u = false := by
  rw [Bool.eq_false_iff, ne_eq, isRunning_iff]
  rintro ⟨t, mem, is⟩
  exact List.filter_eq_nil_iff.1 idle t mem ((t.is_iff kind u).2 is)

end Timers

/-! ## The expiries of a request -/

namespace Deregistration

/-- How far a request has come, by the legs that its UE had at the expiries that counted, in order. -/
inductive Tried (c : Context) (u : Nat) (nas : Octets) (max : Nat) : List (Option Leg) → Prop
  /-- The next expiry is waited for. -/
  | waiting {legs : List Leg} {g : Nat} (left : legs.length ≤ max)
      (request : c.requestOf u = some (some nas))
      (timer : c.timers.Runs .t3522 u legs.length g) : Tried c u nas max (legs.map some)
  /-- The retries were used up. -/
  | ended {legs : List Leg} (spent : legs.length = max + 1) (request : c.requestOf u = some none)
      (timer : c.timers.runningOf .t3522 u = []) : Tried c u nas max (legs.map some)
  /-- There was no leg at the last expiry. -/
  | lost {legs : List Leg} (left : legs.length ≤ max) (timer : c.timers.runningOf .t3522 u = []) :
      Tried c u nas max (legs.map some ++ [none])

/-- The requests that leave again, at expiries with these legs. -/
def repeats (nas : Octets) (max : Nat) (had : List (Option Leg)) : List Outbound :=
  (had.reduceOption.take max).map fun l => l.message (.downlinkNas nas)

section
variable {legs : List Leg}

theorem repeats_map_some :
    repeats nas max (legs.map some) = (legs.take max).map fun l => l.message (.downlinkNas nas) := by
  unfold repeats List.reduceOption
  rw [List.filterMap_map, Function.id_comp, List.filterMap_some]

theorem repeats_nil : repeats nas max [] = [] := congrArg (List.map _) List.take_nil

/-- Nothing leaves without a leg. -/
theorem repeats_concat_none : repeats nas max (had ++ [none]) = repeats nas max had := by
  unfold repeats
  rw [List.reduceOption_append, List.reduceOption_cons_of_none, List.reduceOption_nil,
    List.append_nil]

/-- One more leaves while retries are left. -/
theorem repeats_concat_of_lt (left : legs.length < max) :
    repeats nas max ((legs ++ [l]).map some) =
      repeats nas max (legs.map some) ++ [l.message (.downlinkNas nas)] := by
  have more : (legs ++ [l]).length ≤ max := by simpa using Nat.succ_le_of_lt left
  rw [repeats_map_some, repeats_map_some, List.take_of_length_le more,
    List.take_of_length_le left.le, List.map_append]
  rfl

/-- Nothing leaves without retries. -/
theorem repeats_concat_of_eq (full : legs.length = max) :
    repeats nas max ((legs ++ [l]).map some) = repeats nas max (legs.map some) := by
  rw [repeats_map_some, repeats_map_some, List.take_append_of_le_length full.ge]

end

theorem Tried.of_abides (h : Tried n.context u nas max had) (abides : n.Abides u n') :
    Tried n'.context u nas max had := by
  cases h with
  | waiting left request timer =>
    exact .waiting left (abides.request.trans request) (timer.of_same abides.timer)
  | ended spent request timer =>
    exact .ended spent (abides.request.trans request) (abides.timer.running.trans timer)
  | lost left timer => exact .lost left (abides.timer.running.trans timer)

section
variable {legs : List Leg} {r : Nat} (timer : n.context.timers.Runs .t3522 u r g)
include timer

/-- An expiry with retries left sends the request once more, on the leg that the UE has then. -/
theorem expired_of_leg (left : r < n.context.timers.configs.t3522.maxRetries)
    (request : n.context.requestOf u = some (some nas)) (asks : nas[4]? = some 0x47)
    (joined : n.context.Joined) (heeds : n.Heeds) (leg : n.context.legOf? u = some (k, l)) :
    let n' := ((expired u g).exec n).2
    n'.context.requestOf u = some (some nas) ∧
      (∃ g', n'.context.timers.Runs .t3522 u (r + 1) g') ∧
      n.requestsSince u n' = [l.message (.downlinkNas nas)] := by
  obtain ⟨ts, retried, runs⟩ := timer.expire_of_lt left
  have done := exec_expired_of_retry retried request
  rw [leg] at done
  rw [done]
  have accepted : n.links.accepts (l.message (.downlinkNas nas)) = true :=
    heeds.accepts (.toLeg l.gnb l.ids _)
  refine ⟨request, ⟨_, runs⟩, ?_⟩
  refine (Node.requestsSince_of_sent (Links.sent_offer_of_accepted accepted)).trans ?_
  exact List.filter_cons_of_pos ((Outbound.asks_message joined leg).trans (decide_eq_true asks))

/-- An expiry with retries left but without a leg stops the timer. -/
theorem expired_of_legless (left : r < n.context.timers.configs.t3522.maxRetries)
    (request : n.context.requestOf u = some (some nas)) (legless : n.context.legOf? u = none) :
    let n' := ((expired u g).exec n).2
    n'.context.timers.runningOf .t3522 u = [] ∧ n.requestsSince u n' = [] := by
  obtain ⟨ts, retried, -⟩ := timer.expire_of_lt left
  have done := exec_expired_of_retry retried request
  rw [legless] at done
  rw [done]
  exact ⟨Timers.runningOf_stop, Node.requestsSince_of_links rfl⟩

/-- An expiry without retries left ends the request. -/
theorem expired_of_spent (spent : n.context.timers.configs.t3522.maxRetries ≤ r)
    (request : n.context.requestOf u = some (some nas)) :
    let n' := ((expired u g).exec n).2
    n'.context.requestOf u = some none ∧ n'.context.timers.runningOf .t3522 u = [] ∧
      n.requestsSince u n' = [] := by
  rw [exec_expired_of_exhausted (timer.expire_of_le spent)]
  obtain ⟨x, there, -⟩ := Option.map_eq_some_iff.1 request
  refine ⟨?_, Timers.runningOf_stop, Node.requestsSince_of_links rfl⟩
  show ((n.context.ues.modify u _).get? u).map _ = _
  rw [Table.get?_modify_self, there]
  rfl

end

/-- **An expiry that counts sends the request once more**, on the leg that the UE has then, while
retries are left; the one after that ends it, and so does one without a leg. -/
theorem Tried.expired (h : Tried n.context u nas max had) (joined : n.context.Joined)
    (heeds : n.Heeds) (settings : n.context.timers.configs.t3522.maxRetries = max)
    (asks : nas[4]? = some 0x47) (due : (n.context.timers.live? .t3522 u g).isSome = true) :
    let had' := had ++ [(n.context.legOf? u).map (·.2)]
    let n' := ((expired u g).exec n).2
    Tried n'.context u nas max had' ∧
      repeats nas max had' = repeats nas max had ++ n.requestsSince u n' := by
  have runs : n.context.timers.runningOf .t3522 u ≠ [] := by
    intro idle
    rw [Timers.live?_of_not_running idle] at due
    cases due
  cases h with
  | ended _ _ idle | lost _ idle => exact absurd idle runs
  | @waiting legs _ left request timer =>
    obtain rfl := timer.isSome_live?.1 due
    subst settings
    cases leg : n.context.legOf? u with
    | none =>
      simp only [Option.map_none, repeats_concat_none]
      obtain more | spent := Nat.lt_or_ge legs.length n.context.timers.configs.t3522.maxRetries
      · obtain ⟨idle, nothing⟩ := expired_of_legless timer more request leg
        exact ⟨.lost left idle, by rw [nothing, List.append_nil]⟩
      · obtain ⟨-, idle, nothing⟩ := expired_of_spent timer spent request
        exact ⟨.lost left idle, by rw [nothing, List.append_nil]⟩
    | some has =>
      have had' : legs.map some ++ [some has.2] = (legs ++ [has.2]).map some := by
        rw [List.map_append]
        rfl
      have length : (legs ++ [has.2]).length = legs.length + 1 := List.length_append
      simp only [Option.map_some, had']
      obtain more | spent := Nat.lt_or_ge legs.length n.context.timers.configs.t3522.maxRetries
      · obtain ⟨request', ⟨g', timer'⟩, one⟩ := expired_of_leg timer more request asks joined heeds leg
        exact ⟨.waiting (length ▸ more) request' (length.symm ▸ timer'),
          by rw [one, repeats_concat_of_lt more]⟩
      · have full : legs.length = n.context.timers.configs.t3522.maxRetries := le_antisymm left spent
        obtain ⟨request', idle, nothing⟩ := expired_of_spent timer spent request
        exact ⟨.ended (length.trans (congrArg (· + 1) full)) request' idle,
          by rw [nothing, List.append_nil, repeats_concat_of_eq full]⟩

section
variable {c : Context}

theorem Tried.length_le (h : Tried c u nas max had) (full : none ∉ had) : had.length ≤ 1 + max := by
  cases h with
  | waiting left => rw [List.length_map]; omega
  | ended spent => rw [List.length_map]; omega
  | lost => exact absurd (List.mem_append_right _ (List.mem_singleton_self none)) full

/-- While retries are left, the timer runs and the request is kept. -/
theorem Tried.waits (h : Tried c u nas max had) (full : none ∉ had) (left : had.length ≤ max) :
    c.timers.isRunning .t3522 u = true ∧ c.requestOf u = some (some nas) := by
  cases h with
  | waiting _ request timer => exact ⟨timer.isRunning, request⟩
  | ended spent =>
    rw [List.length_map] at left
    omega
  | lost => exact absurd (List.mem_append_right _ (List.mem_singleton_self none)) full

/-- With the retries, the timer and the request go. -/
theorem Tried.ends (h : Tried c u nas max had) (full : none ∉ had) (spent : had.length = 1 + max) :
    c.timers.isRunning .t3522 u = false ∧ c.requestOf u = some none := by
  cases h with
  | waiting left =>
    rw [List.length_map] at spent
    omega
  | ended _ request timer => exact ⟨Timers.isRunning_of_runningOf timer, request⟩
  | lost => exact absurd (List.mem_append_right _ (List.mem_singleton_self none)) full

/-- An expiry without a leg is the last one. -/
theorem Tried.eq_nil_of_none {before later : List (Option Leg)}
    (h : Tried c u nas max (before ++ none :: later)) :
    later = [] ∧ c.timers.runningOf .t3522 u = [] := by
  generalize is : before ++ none :: later = had at h
  have absent : ∀ (legs : List Leg) (init : List (Option Leg)),
      before ++ none :: init ≠ legs.map some := by
    intro legs init is
    obtain ⟨l, -, some⟩ := List.mem_map.1 (is ▸ List.mem_append_right before List.mem_cons_self)
    cases some
  cases h with
  | waiting | ended => exact absurd is (absent _ _)
  | lost left idle =>
    refine ⟨?_, idle⟩
    obtain rfl | ⟨init, o, rfl⟩ := List.eq_nil_or_concat later
    · rfl
    · rw [List.concat_eq_append, ← List.cons_append, ← List.append_assoc] at is
      exact absurd (List.append_inj_left' is rfl) (absent _ _)

end

end Deregistration

/-! ## Runs -/

namespace Event

variable {es : List Event} {e : Event} {i : Nat}

/-- The numbers of the events, among the first of a run, that are expiries of the request to a UE and
count. -/
def due (u : Nat) (es : List Event) (n : Node) (k : Nat) : List Nat :=
  (List.range k).filter fun i => es[i]?.any fun e => e.isDue u (stateAt es n i)

/-- The legs that the UE had at these expiries, in order. -/
def dueLegs (u : Nat) (es : List Event) (n : Node) (k : Nat) : List (Option Leg) :=
  (due u es n k).map fun i => ((stateAt es n i).context.legOf? u).map (·.2)

/-- The requests to deregister that have left at the first events of a run, but for those to the legs
that other UEs had then. -/
def requests (u : Nat) (es : List Event) (n : Node) (k : Nat) : List Outbound :=
  (List.range k).flatMap fun i => (stateAt es n i).requestsSince u (stateAt es n (i + 1))

theorem requests_succ : requests u es n (k + 1) =
    requests u es n k ++ (stateAt es n k).requestsSince u (stateAt es n (k + 1)) := by
  unfold requests
  rw [List.range_succ, List.flatMap_append, List.flatMap_singleton]

theorem dueLegs_succ : dueLegs u es n (k + 1) = dueLegs u es n k ++
    if es[k]?.any fun e => e.isDue u (stateAt es n k) then
      [((stateAt es n k).context.legOf? u).map (·.2)] else [] := by
  unfold dueLegs due
  rw [List.range_succ, List.filter_append, List.map_append, List.filter_singleton]
  generalize es[k]?.any _ = due
  cases due <;> rfl

theorem dueLegs_add (u : Nat) (es : List Event) (n : Node) (k j : Nat) :
    ∃ later, dueLegs u es n (k + j) = dueLegs u es n k ++ later := by
  induction j with
  | zero => exact ⟨[], (List.append_nil _).symm⟩
  | succ j ih =>
    obtain ⟨later, is⟩ := ih
    rw [← Nat.add_assoc, dueLegs_succ, is, List.append_assoc]
    exact ⟨_, rfl⟩

/-- The legs at the expiries before one, at this one, and at those after it. -/
theorem dueLegs_of_mem (mem : i ∈ due u es n k) : ∃ later, dueLegs u es n k =
    dueLegs u es n i ++ ((stateAt es n i).context.legOf? u).map (·.2) :: later := by
  obtain ⟨below, is⟩ := List.mem_filter.1 mem
  obtain ⟨j, rfl⟩ := Nat.exists_eq_add_of_le (Nat.succ_le_of_lt (List.mem_range.1 below))
  obtain ⟨later, after⟩ := dueLegs_add u es n (i + 1) j
  rw [dueLegs_succ, if_pos is, List.append_assoc] at after
  exact ⟨later, after⟩

/-- An expiry that is due is one of T3522 that counts. -/
theorem exists_of_isDue (due : e.isDue u n = true) :
    ∃ g, e = .timer .t3522 u g ∧ (n.context.timers.live? .t3522 u g).isSome = true := by
  unfold isDue at due
  split at due
  · rename_i v g
    obtain ⟨is, live⟩ := Bool.and_eq_true_iff.1 due
    obtain rfl := of_decide_eq_true is
    exact ⟨g, rfl, live⟩
  · cases due

end Event

namespace Deregistration

variable {n₁ : Node} {es : List Event} {d : Document.Deregistration}

/-- **What a run makes of a request**, if it asks the UE for nothing else and does not detach it. -/
theorem Tried.run (start : Tried n₁.context u nas max []) (steady : n₁.Steady)
    (settings : n₁.context.timers.configs.t3522.maxRetries = max) (asks : nas[4]? = some 0x47)
    (free : ∀ i (e : Event), es[i]? = some e → ¬e.Deregisters (Event.stateAt es n₁ i) u ∧
      ¬e.Detaches (Event.stateAt es n₁ i) u) (k : Nat) :
    Tried (Event.stateAt es n₁ k).context u nas max (Event.dueLegs u es n₁ k) ∧
      Event.requests u es n₁ k = repeats nas max (Event.dueLegs u es n₁ k) := by
  have kept : ((Event.stateAt es n₁ k).Steady ∧
      (Event.stateAt es n₁ k).context.timers.configs.t3522.maxRetries = max) ∧
      Tried (Event.stateAt es n₁ k).context u nas max (Event.dueLegs u es n₁ k) ∧
        Event.requests u es n₁ k = repeats nas max (Event.dueLegs u es n₁ k) := by
    induction k with
    | zero => exact ⟨⟨steady, settings⟩, start, repeats_nil.symm⟩
    | succ k ih =>
      obtain ⟨⟨steady, settings⟩, tried, sent⟩ := ih
      rw [Event.requests_succ, Event.dueLegs_succ, sent]
      cases there : es[k]? with
      | none =>
        rw [Event.stateAt_succ_of_none there, Node.requestsSince_of_links rfl, List.append_nil]
        simp only [Option.any_none, Bool.false_eq_true, if_false, List.append_nil, and_true]
        exact ⟨⟨steady, settings⟩, tried⟩
      | some e =>
        have chain := e.handle_chain (Event.stateAt es n₁ k)
        rw [Event.stateAt_succ there, Option.any_some]
        refine ⟨⟨chain.steady steady, chain.configs ▸ settings⟩, ?_⟩
        cases due : e.isDue u (Event.stateAt es n₁ k) with
        | true =>
          obtain ⟨g, rfl, live⟩ := Event.exists_of_isDue due
          obtain ⟨tried', more⟩ := tried.expired steady.ordered.joined steady.heeds settings asks live
          exact ⟨tried', more.symm⟩
        | false =>
          obtain ⟨free, undetached⟩ := free k e there
          have abides := Event.handle_abides steady.ordered steady.held free undetached due
          rw [abides.requestsSince_eq_nil]
          simp only [Bool.false_eq_true, if_false, List.append_nil, and_true]
          exact tried.of_abides abides
  exact kept.2

/-! ## The start of a request -/

/-- The request that a notification makes a UE get. -/
def request (x : Ue) (reason : Document.DeregistrationReason) : Octets :=
  Nas.Deregistration.octets {
    access := x.access
    reregister := reason = .reregistrationRequired
    cause := some .servicesNotAllowed }

theorem asks_request (x : Ue) (reason : Document.DeregistrationReason) :
    (request x reason)[4]? = some 0x47 := rfl

/-- **A UE that is asked has a leg, on which the request was accepted**; the request is kept, its timer
started, and the UE marked. -/
theorem exists_of_notify (done : (notify u d).exec n = (.ok .explicit, n₁)) :
    ∃ x reason k l m, n.context.ues.get? u = some x ∧ d.reason = some reason ∧
      n.context.legOf? u = some (k, l) ∧ m = l.message (.downlinkNas (request x reason)) ∧
      n.links.accepts m = true ∧
      Subscription.Ends x (((n.offer m).change (·.guardRequest u (request x reason))).change
        (·.note u .explicit)) (.ok ()) n₁ := by
  obtain ⟨fault, failed⟩ | marked | ⟨x, reason, there, given, asks, same⟩ := notify_cases u d n
  · rw [failed] at done
    cases done
  · rw [marked, exec_bind_pure] at done
    obtain ⟨-, -, other⟩ := Subscription.map_eq_ok_iff.1 (Prod.mk.inj done).1
    cases other
  · obtain ⟨⟨k, l⟩, leg⟩ :=
      Option.isSome_iff_exists.1 (Context.connection_eq_connected.1 asks.2.2)
    obtain ⟨m, message⟩ : ∃ m, m = l.message (.downlinkNas (request x reason)) := ⟨_, rfl⟩
    have asked : (Delivery.deregister u (reason = .reregistrationRequired)
        (some .servicesNotAllowed)).exec n = if n.links.accepts m then
          (.ok (), (n.offer m).change (·.guardRequest u (request x reason)))
        else (.error (.send (.transportClosed "NGAP")), n.offer m) :=
      message ▸ Subscription.exec_deregister _ _ there leg
    rw [same] at done
    by_cases accepted : n.links.accepts m = true
    · rw [if_pos accepted] at asked
      rw [exec_bind_of_ok asked, exec_bind_pure] at done
      obtain ⟨outcome, rfl⟩ := Prod.mk.inj done
      obtain ⟨⟨⟩, marked, -⟩ := Subscription.map_eq_ok_iff.1 outcome
      have kept : (n.context.guardRequest u (request x reason)).ues.get? u =
          some { x with deregistrationMessage := some (request x reason) } :=
        Table.get?_modify_of_some there
      have ends := Subscription.ends_mark (n := (n.offer m).change
        (·.guardRequest u (request x reason))) (x := x) kept rfl
      rw [marked] at ends
      exact ⟨x, reason, k, l, m, there, given, leg, message, accepted, ends⟩
    · rw [if_neg accepted] at asked
      rw [exec_bind_of_error asked] at done
      cases done

/-- **A request that starts has the whole budget**, and has left once. -/
theorem tried_of_notify (max : Nat) (joined : n.context.Joined)
    (enabled : n.context.timers.configs.t3522.enabled = true)
    (done : (notify u d).exec n = (.ok .explicit, n₁)) :
    ∃ x reason k l, n.context.ues.get? u = some x ∧ d.reason = some reason ∧
      n.context.legOf? u = some (k, l) ∧
      n.requestsSince u n₁ = [l.message (.downlinkNas (request x reason))] ∧
      Tried n₁.context u (request x reason) max [] := by
  obtain ⟨x, reason, k, l, m, there, given, leg, message, accepted, ends⟩ := exists_of_notify done
  have guarded := (Subscription.Settled.refl n.context).guardRequest u (request x reason)
  have marked := guarded.note u .explicit
  have settled : Subscription.Settled n.context n₁.context := Subscription.Settled.of_ends marked ends
  have abides : ((n.offer m).change (·.guardRequest u (request x reason))).Abides u n₁ :=
    (Node.abides_note u .explicit).trans (Subscription.abides_ends ends)
      fun v => (settled.legOf? v).trans (marked.legOf? v).symm
  refine ⟨x, reason, k, l, there, given, leg, ?_, ?_⟩
  · rw [← message]
    refine abides.requestsSince_of_accepted rfl accepted ?_
    rw [Outbound.asks_congr settled.legOf?, message, Outbound.asks_message joined leg]
    rfl
  · have kept : (n.context.guardRequest u (request x reason)).requestOf u =
        some (some (request x reason)) := by
      show ((n.context.ues.modify u _).get? u).map _ = _
      rw [Table.get?_modify_self, there]
      rfl
    have runs : (n.context.timers.start .t3522 u).Runs .t3522 u 0 _ := Timers.runs_start enabled
    have start : Tried n₁.context u (request x reason) max (([] : List Leg).map some) :=
      .waiting (Nat.zero_le max) (abides.request.trans kept) (runs.of_same abides.timer)
    exact start

/-- What has come of a request that started on a leg, after the first events of a run. -/
structure Repeated (u : Nat) (nas : Octets) (max : Nat) (first : Leg) (n n₁ : Node) (es : List Event)
    (k : Nat) : Prop where
  /-- The request and what repeats it have the same octets, each on the leg that the UE had then. -/
  sent : n.requestsSince u n₁ ++ Event.requests u es n₁ k =
    ((first :: (Event.dueLegs u es n₁ k).reduceOption).take (1 + max)).map
      fun l => l.message (.downlinkNas nas)
  bounded : (n.requestsSince u n₁ ++ Event.requests u es n₁ k).length ≤ 1 + max
  /-- With a leg at every expiry, each expiry repeats the request, but the last one. -/
  number : none ∉ Event.dueLegs u es n₁ k → (Event.dueLegs u es n₁ k).length ≤ 1 + max ∧
    (n.requestsSince u n₁ ++ Event.requests u es n₁ k).length =
      1 + min (Event.dueLegs u es n₁ k).length max
  waiting : none ∉ Event.dueLegs u es n₁ k → (Event.dueLegs u es n₁ k).length ≤ max →
    (Event.stateAt es n₁ k).context.timers.isRunning .t3522 u = true ∧
      (Event.stateAt es n₁ k).context.requestOf u = some (some nas)
  ended : none ∉ Event.dueLegs u es n₁ k → (Event.dueLegs u es n₁ k).length = 1 + max →
    (n.requestsSince u n₁ ++ Event.requests u es n₁ k).length = 1 + max ∧
      (Event.stateAt es n₁ k).context.timers.isRunning .t3522 u = false ∧
      (Event.stateAt es n₁ k).context.requestOf u = some none
  /-- At the first expiry without a leg the timer stops, and nothing leaves from then on. -/
  lost : ∀ i ∈ Event.due u es n₁ k, (Event.stateAt es n₁ i).context.legOf? u = none →
    (Event.stateAt es n₁ k).context.timers.isRunning .t3522 u = false ∧
      Event.requests u es n₁ k = Event.requests u es n₁ i

/-- **A request leaves as often as its budget allows.** -/
theorem Tried.repeated {first : Leg}
    (start : n.requestsSince u n₁ = [first.message (.downlinkNas nas)])
    (run : ∀ k, Tried (Event.stateAt es n₁ k).context u nas max (Event.dueLegs u es n₁ k) ∧
      Event.requests u es n₁ k = repeats nas max (Event.dueLegs u es n₁ k)) (k : Nat) :
    Repeated u nas max first n n₁ es k := by
  obtain ⟨tried, again⟩ := run k
  have sent : n.requestsSince u n₁ ++ Event.requests u es n₁ k =
      ((first :: (Event.dueLegs u es n₁ k).reduceOption).take (1 + max)).map
        fun l => l.message (.downlinkNas nas) := by
    rw [start, again, Nat.add_comm 1 max, List.take_succ_cons]
    rfl
  have length := congrArg List.length sent
  rw [List.length_map, List.length_take, List.length_cons] at length
  have number : none ∉ Event.dueLegs u es n₁ k →
      (n.requestsSince u n₁ ++ Event.requests u es n₁ k).length =
        1 + min (Event.dueLegs u es n₁ k).length max := by
    intro full
    have some := mt List.reduceOption_length_lt_iff.1 full
    have all := (Event.dueLegs u es n₁ k).reduceOption_length_le
    omega
  refine ⟨sent, by omega, fun full => ⟨tried.length_le full, number full⟩, tried.waits,
    fun full spent => ⟨?_, tried.ends full spent⟩, fun i mem legless => ?_⟩
  · have := number full
    omega
  · obtain ⟨later, legs⟩ := Event.dueLegs_of_mem mem
    rw [legless, Option.map_none] at legs
    rw [legs] at tried again
    obtain ⟨rfl, idle⟩ := tried.eq_nil_of_none
    rw [again, repeats_concat_none, (run i).2]
    exact ⟨Timers.isRunning_of_runningOf idle, rfl⟩

/-- **The budget of a deregistration request**, in a context that was set up. Wherever T3522 runs, after
any operations, the request to be repeated is kept, so that no expiry lacks it. And let a UE be asked to
deregister, and events follow in any order, while the radio network takes every message, none of which
asks the UE again or detaches it. Then the request and what repeats it leave with the same octets, each
on the leg that the UE has at that moment, at most once more than there are retries. If the UE has a leg
at every expiry that counts, each of them repeats the request until there are no retries left; the next
one ends it, and then the timer does not run and no request is kept. At the first expiry without a leg
the timer stops, and nothing more leaves. -/
theorem notify_budget {config : Config} {c : Context} (provisioned : Provisioned config c)
    (metrics : Metrics) (links : Links) :
    let start : Node := { context := c, metrics, links }
    (∀ os u, let n := Operation.run os start
      (n.context.timers.isRunning .t3522 u = true → ∃ nas, n.context.requestOf u = some (some nas)) ∧
        ∀ g name, ((expired u g).exec n).1 ≠ .error (.send (.notBuilt name))) ∧
    ∀ (before : List Operation) (u : Nat) (d : Document.Deregistration) (n₁ : Node) (es : List Event),
      let n := Operation.run before start
      (∀ o ∈ before, o.countsLegs = true) → n.Heeds → (notify u d).exec n = (.ok .explicit, n₁) →
      (∀ i (e : Event), es[i]? = some e → ¬e.Deregisters (Event.stateAt es n₁ i) u ∧
        ¬e.Detaches (Event.stateAt es n₁ i) u) →
      ∃ x reason leg first, n.context.ues.get? u = some x ∧ d.reason = some reason ∧
        n.context.legOf? u = some (leg, first) ∧ ∀ k, Repeated u (request x reason)
          n.context.timers.configs.t3522.maxRetries first n n₁ es k := by
  intro start
  refine ⟨fun os u => ?_, fun before u d n₁ es counts heeds done free => ?_⟩
  · have guarded := Operation.run_guarded provisioned.fresh metrics links os
    exact ⟨guarded u, expired_ne_notBuilt guarded u⟩
  · obtain ⟨ordered, poised⟩ := Operation.run_poised provisioned metrics links counts
    have chain : Chain (fun _ => True) (Operation.run before start) n₁ := by
      have chain : Chain (fun _ => True) _ ((notify u d).exec (Operation.run before start)).2 :=
        notify_chain (fun _ => trivial) trivial trivial fun _ => trivial
      rwa [done] at chain
    obtain ⟨x, reason, k, l, there, given, leg, sent, tried⟩ :=
      tried_of_notify (Operation.run before start).context.timers.configs.t3522.maxRetries
        ordered.joined poised.enabled done
    refine ⟨x, reason, k, l, there, given, leg, Tried.repeated sent fun k => ?_⟩
    exact tried.run (chain.steady ⟨ordered, poised.held, heeds⟩) (by rw [chain.configs])
      (asks_request x reason) free k

/-- The hypotheses are satisfiable: a UE gets a new leg between the first and the second of five
expiries, and has then been asked as often as its budget allows. -/
theorem notify_budget_replaced :
    let before : List Operation := [.handle (.connected 1 3 7 .nr)]
    let n := Operation.run before { context := .oneSession }
    let d : Document.Deregistration := { reason := some .subscriptionWithdrawn, access := .threeGpp }
    let n₁ := ((notify 1 d).exec n).2
    let es : List Event := [.timer .t3522 1 1, .connected 1 4 9 .nr, .timer .t3522 1 2,
      .timer .t3522 1 3, .timer .t3522 1 4, .timer .t3522 1 5]
    ((∀ o ∈ before, o.countsLegs = true) ∧ n.Heeds ∧ (notify 1 d).exec n = (.ok .explicit, n₁) ∧
      ∀ i (e : Event), es[i]? = some e → ¬e.Deregisters (Event.stateAt es n₁ i) 1 ∧
        ¬e.Detaches (Event.stateAt es n₁ i) 1) ∧
    ∃ nas first, Repeated 1 nas 4 first n n₁ es 6 ∧
      (n.requestsSince 1 n₁ ++ Event.requests 1 es n₁ 6).length = 5 ∧
      (Event.stateAt es n₁ 6).context.timers.isRunning .t3522 1 = false ∧
      (Event.stateAt es n₁ 6).context.requestOf 1 = some none := by
  intro before n d n₁ es
  have counts : ∀ o ∈ before, o.countsLegs = true := by simp [before, Operation.countsLegs]
  have heeds : n.Heeds := fun _ _ => rfl
  have done : (notify 1 d).exec n = (.ok .explicit, n₁) := Prod.ext (by rfl) rfl
  have free : ∀ i (e : Event), es[i]? = some e → ¬e.Deregisters (Event.stateAt es n₁ i) 1 ∧
      ¬e.Detaches (Event.stateAt es n₁ i) 1 := by
    intro i e there
    have quiet : ∀ r, e ≠ .request r := by
      rintro r rfl
      have mem := List.mem_of_getElem? there
      simp [es] at mem
    constructor
    · rintro ⟨r, is, -⟩
      exact quiet r is
    · rintro ⟨r, ⟨is, -⟩, -⟩
      exact quiet r is
  obtain ⟨x, reason, leg, first, -, -, -, repeated⟩ :=
    (notify_budget provisioned_oneSession {} {}).2 before 1 d n₁ es counts heeds done free
  have full : none ∉ Event.dueLegs 1 es n₁ 6 := by decide +kernel
  have spent : (Event.dueLegs 1 es n₁ 6).length = 1 + 4 := by decide +kernel
  exact ⟨⟨counts, heeds, done, free⟩, request x reason, first, repeated 6,
    (repeated 6).ended full spent⟩

end Deregistration
end Amf
