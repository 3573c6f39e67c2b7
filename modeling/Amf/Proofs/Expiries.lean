import Amf.Proofs.Timers
import Mathlib.Data.Multiset.Filter
import Mathlib.Data.Multiset.MapFold

/-!
# Expiries in flight

Whoever takes over the scheduled expiries delivers them after their time and in any order, when their
timers may long have been stopped, started anew or retried. Generations tell which expiries still
count: each timer that runs has exactly one undelivered expiry, the one that carries its generation,
and an expiry that counts for no timer never will (`Timing.run_lawful`). So from one start of a timer
to the next its expiries ask for its retries in order, and then once for nothing more.

| operation | undelivered expiries |
| --- | --- |
| `start`, if enabled | one more, of a new generation |
| `stop`, `stopAll` | as before |
| `take` | as before, but in flight |
| `deliver`, live, retries left | the one goes, and one of a new generation comes |
| `deliver`, live, no retries left | the one goes |
| `deliver`, stale | the one goes, and no timer changes |
-/

namespace Amf

/-- The timers of all UEs with the expiries that were taken over and are still to be delivered. -/
structure Timing where
  timers : Timers := {}
  inFlight : Multiset ScheduledExpiry := 0

/-- What is done to timers. -/
inductive TimerOperation where
  | start (kind : TimerKind) (ue : Nat)
  | stop (kind : TimerKind) (ue : Nat)
  | stopAll (ue : Nat)
  /-- The scheduled expiries are taken over. -/
  | take
  /-- An expiry in flight is delivered. -/
  | deliver (e : ScheduledExpiry)
  deriving DecidableEq

/-- The operation starts or stops the timer of a kind and a UE. -/
def TimerOperation.Sets (kind : TimerKind) (ue : Nat) : TimerOperation → Prop
  | start k u => k = kind ∧ u = ue
  | stop k u => k = kind ∧ u = ue
  | stopAll u => u = ue
  | _ => False

/-- The expiry carries the kind, the UE and the generation of a timer. -/
def ScheduledExpiry.Carries (e : ScheduledExpiry) (t : RunningTimer) : Prop :=
  t.kind = e.kind ∧ t.ue = e.ue ∧ t.generation = e.generation

instance (t : RunningTimer) : DecidablePred fun e : ScheduledExpiry => e.Carries t := fun e =>
  inferInstanceAs (Decidable (t.kind = e.kind ∧ t.ue = e.ue ∧ t.generation = e.generation))

/-- The expiry counts for a timer that runs. -/
def ScheduledExpiry.Counts (e : ScheduledExpiry) (ts : Timers) : Prop := ∃ t ∈ ts.running, e.Carries t

namespace Timing

/-- The expiries that have not been delivered. -/
def undelivered (s : Timing) : Multiset ScheduledExpiry := s.timers.scheduled + s.inFlight

/-- The state after an operation; an expiry that is not in flight cannot be delivered. -/
def apply (s : Timing) : TimerOperation → Timing
  | .start kind ue => { s with timers := s.timers.start kind ue }
  | .stop kind ue => { s with timers := s.timers.stop kind ue }
  | .stopAll ue => { s with timers := s.timers.stopAll ue }
  | .take => ⟨s.timers.takeScheduled.2, s.inFlight + s.timers.takeScheduled.1⟩
  | .deliver e =>
    if e ∈ s.inFlight then
      ⟨(s.timers.expire e.kind e.ue e.generation).2, s.inFlight.erase e⟩
    else s

/-- The state after operations, in order. -/
def run (os : List TimerOperation) (s : Timing) : Timing := os.foldl apply s

/-- What an operation makes the timer of a kind and a UE ask for, if it delivers an expiry of this
timer that is not stale. -/
def result (s : Timing) (kind : TimerKind) (ue : Nat) : TimerOperation → Option Expiry
  | .deliver e =>
    if e ∈ s.inFlight ∧ e.kind = kind ∧ e.ue = ue then (s.timers.expire kind ue e.generation).1
    else none
  | _ => none

/-- What the timer of a kind and a UE asks for during operations, in order. -/
def results (kind : TimerKind) (ue : Nat) : List TimerOperation → Timing → List Expiry
  | [], _ => []
  | o :: os, s => (s.result kind ue o).toList ++ results kind ue os (s.apply o)

/-- What a timer asks for from a given number of retries on. -/
def remaining (max retries : Nat) : List Expiry :=
  (List.range' (retries + 1) (max - retries)).map .retry ++ [.exhausted]

theorem remaining_of_le {max r : Nat} (spent : max ≤ r) : remaining max r = [.exhausted] := by
  unfold remaining
  rw [Nat.sub_eq_zero_of_le spent]
  rfl

theorem remaining_of_lt {max r : Nat} (left : r < max) :
    remaining max r = .retry (r + 1) :: remaining max (r + 1) := by
  unfold remaining
  rw [show max - r = max - (r + 1) + 1 by omega, List.range'_succ]
  rfl

variable {s s' : Timing} {ts : Timers} {o : TimerOperation} {os : List TimerOperation}
  {e e' : ScheduledExpiry} {t t' : RunningTimer} {kind : TimerKind} {ue g r : Nat}

/-! ## Timers that run -/

theorem eq_of_slots (slots : ts.slots.Nodup) (mem : t ∈ ts.running) (mem' : t' ∈ ts.running)
    (ofKind : t.kind = t'.kind) (ofUe : t.ue = t'.ue) : t = t' :=
  List.inj_on_of_nodup_map slots mem mem' (Prod.ext ofKind ofUe)

theorem mem_running_stop :
    t ∈ (ts.stop kind ue).running ↔ t ∈ ts.running ∧ ¬(t.kind = kind ∧ t.ue = ue) := by
  unfold Timers.stop
  rw [List.mem_filter, t.not_is_iff]

/-- **A delivery is stale, or its timer is stopped or retried.** -/
theorem expire_counts (e : ScheduledExpiry) (ts : Timers) :
    (¬e.Counts ts ∧ ts.expire e.kind e.ue e.generation = (none, ts)) ∨
    ∃ t ∈ ts.running, e.Carries t ∧
      (((ts.configs.of e.kind).maxRetries ≤ t.retries ∧
        ts.expire e.kind e.ue e.generation = (some .exhausted, ts.stop e.kind e.ue)) ∨
      (t.retries < (ts.configs.of e.kind).maxRetries ∧
        ts.expire e.kind e.ue e.generation = (some (.retry (t.retries + 1)),
          { ts.schedule e.kind e.ue with
            running := ts.running.map fun u => if u.is e.kind e.ue then
              { t with retries := t.retries + 1, generation := ts.nextGeneration } else u }))) := by
  unfold Timers.expire
  cases live : ts.live? e.kind e.ue e.generation with
  | none =>
    refine .inl ⟨fun ⟨t, mem, ofKind, ofUe, ofGeneration⟩ => ?_, rfl⟩
    have := List.find?_eq_none.1 live t mem
    simp [ofKind, ofUe, ofGeneration] at this
  | some t =>
    have is := List.find?_some live
    simp only [Bool.and_eq_true, RunningTimer.is_iff, decide_eq_true_eq] at is
    refine .inr ⟨t, List.mem_of_find?_eq_some live, ⟨is.1.1, is.1.2, is.2⟩, ?_⟩
    simp only
    split
    · rename_i spent
      exact .inl ⟨spent, rfl⟩
    · rename_i left
      exact .inr ⟨Nat.lt_of_not_le left, rfl⟩

/-! ## Sound states -/

/-- Each timer that runs has an undelivered expiry, and generations are used once. -/
structure Sound (s : Timing) : Prop where
  slots : s.timers.slots.Nodup
  enabled : ∀ t ∈ s.timers.running, (s.timers.configs.of t.kind).enabled = true
  carried : ∀ t ∈ s.timers.running, ∃ e ∈ s.undelivered, e.Carries t
  generations : (s.undelivered.map (·.generation)).Nodup
  below : ∀ e ∈ s.undelivered, e.generation < s.timers.nextGeneration

theorem sound_of_configs (configs : TimerConfigs) : Sound { timers := { configs } } where
  slots := List.nodup_nil
  enabled _ mem := nomatch mem
  carried _ mem := nomatch mem
  generations := Multiset.nodup_zero
  below _ mem := absurd mem (Multiset.notMem_zero _)

/-- A running timer has one undelivered expiry only. -/
theorem Sound.countP_undelivered (h : s.Sound) (mem : t ∈ s.timers.running) :
    s.undelivered.countP (·.Carries t) = 1 := by
  obtain ⟨e, there, carries⟩ := h.carried t mem
  have only : s.undelivered.filter (·.Carries t) = {e} := by
    refine (Multiset.Nodup.ext (h.generations.of_map.filter _) (Multiset.nodup_singleton e)).2 ?_
    intro e'
    rw [Multiset.mem_filter, Multiset.mem_singleton]
    constructor
    · rintro ⟨there', carries'⟩
      exact Multiset.inj_on_of_nodup_map h.generations e' there' e there
        (carries'.2.2.symm.trans carries.2.2)
    · rintro rfl
      exact ⟨there, carries⟩
  rw [Multiset.countP_eq_card_filter, only, Multiset.card_singleton]

/-- Some timers stop running, and at most expiries that count for none of the others go. -/
theorem Sound.of_fewer (h : s.Sound) (slots : s'.timers.slots.Nodup)
    (fewer : s'.undelivered ≤ s.undelivered)
    (kept : ∀ t ∈ s'.timers.running, t ∈ s.timers.running ∧
      ∀ e ∈ s.undelivered, e.Carries t → e ∈ s'.undelivered)
    (next : s'.timers.nextGeneration = s.timers.nextGeneration)
    (configs : s'.timers.configs = s.timers.configs) : s'.Sound where
  slots := slots
  enabled t mem := configs ▸ h.enabled t (kept t mem).1
  carried t mem := by
    obtain ⟨e, there, carries⟩ := h.carried t (kept t mem).1
    exact ⟨e, (kept t mem).2 e there carries, carries⟩
  generations := Multiset.nodup_of_le (Multiset.map_le_map fewer) h.generations
  below e there := next ▸ h.below e (Multiset.mem_of_le fewer there)

/-- A timer comes under the next generation, with an expiry of its own. -/
theorem Sound.of_next (h : s.Sound) (e : ScheduledExpiry) (t' : RunningTimer)
    (slots : s'.timers.slots.Nodup) (carries : e.Carries t')
    (fresh : e.generation = s.timers.nextGeneration)
    (enabled : (s.timers.configs.of t'.kind).enabled = true)
    (running : ∀ t ∈ s'.timers.running, t = t' ∨ t ∈ s.timers.running)
    (more : s'.undelivered = e ::ₘ s.undelivered)
    (next : s'.timers.nextGeneration = s.timers.nextGeneration + 1)
    (configs : s'.timers.configs = s.timers.configs) : s'.Sound where
  slots := slots
  enabled t mem := by
    rw [configs]
    obtain rfl | old := running t mem
    · exact enabled
    · exact h.enabled t old
  carried t mem := by
    rw [more]
    obtain rfl | old := running t mem
    · exact ⟨e, Multiset.mem_cons_self _ _, carries⟩
    · obtain ⟨e', there, carries'⟩ := h.carried t old
      exact ⟨e', Multiset.mem_cons_of_mem there, carries'⟩
  generations := by
    rw [more, Multiset.map_cons, Multiset.nodup_cons]
    refine ⟨fun used => ?_, h.generations⟩
    obtain ⟨e', there, same⟩ := Multiset.mem_map.1 used
    exact absurd (h.below e' there) (by omega)
  below e' there := by
    rw [more, Multiset.mem_cons] at there
    rw [next]
    obtain rfl | old := there
    · omega
    · exact Nat.lt_succ_of_lt (h.below e' old)

theorem undelivered_of_scheduled {ts' : Timers} {inFlight : Multiset ScheduledExpiry}
    (more : ts'.scheduled = ts.scheduled ++ [e]) :
    undelivered ⟨ts', inFlight⟩ = e ::ₘ undelivered ⟨ts, inFlight⟩ := by
  unfold undelivered
  simp only
  rw [more, ← Multiset.coe_add, Multiset.coe_singleton, Multiset.add_assoc, Multiset.singleton_add,
    Multiset.add_cons]

/-- An expiry in flight is delivered, and no timer that it counts for goes on running. -/
theorem Sound.delivered (h : s.Sound) (there : e ∈ s.inFlight) (slots : ts.slots.Nodup)
    (kept : ∀ t ∈ ts.running, t ∈ s.timers.running ∧ ¬e.Carries t)
    (scheduled : ts.scheduled = s.timers.scheduled)
    (next : ts.nextGeneration = s.timers.nextGeneration) (configs : ts.configs = s.timers.configs) :
    Sound ⟨ts, s.inFlight.erase e⟩ := by
  have erased : undelivered ⟨ts, s.inFlight.erase e⟩ = s.undelivered.erase e := by
    unfold undelivered
    rw [Multiset.erase_add_right_pos _ there, scheduled]
  refine h.of_fewer slots (erased ▸ Multiset.erase_le e _) (fun t mem => ?_) next configs
  refine ⟨(kept t mem).1, fun e' there' carries => erased ▸ (Multiset.mem_erase_of_ne ?_).2 there'⟩
  rintro rfl
  exact (kept t mem).2 carries

/-! ## Operations keep states sound -/

theorem Sound.stop (h : s.Sound) (kind : TimerKind) (ue : Nat) :
    Sound { s with timers := s.timers.stop kind ue } :=
  h.of_fewer (h.slots.sublist Timers.sublist_slots_stop) le_rfl
    (fun _ mem => ⟨(mem_running_stop.1 mem).1, fun _ there _ => there⟩) rfl rfl

theorem Sound.stopAll (h : s.Sound) (ue : Nat) :
    Sound { s with timers := s.timers.stopAll ue } :=
  h.of_fewer (h.slots.sublist (Timers.slots_stopAll ▸ List.filter_sublist)) le_rfl
    (fun _ mem => ⟨List.mem_of_mem_filter mem, fun _ there _ => there⟩) rfl rfl

theorem Sound.start (h : s.Sound) (kind : TimerKind) (ue : Nat) :
    Sound { s with timers := s.timers.start kind ue } := by
  cases enabled : (s.timers.configs.of kind).enabled with
  | false => rwa [Timers.start_of_disabled enabled]
  | true =>
    have slots : (s.timers.start kind ue).slots.Nodup := by
      rw [Timers.slots_start enabled]
      exact List.nodup_append.2 ⟨h.slots.filter _, List.nodup_singleton _, by simp⟩
    unfold Timers.start at slots ⊢
    rw [if_pos enabled] at slots ⊢
    refine (h.stop kind ue).of_next
      ⟨kind, ue, s.timers.nextGeneration, (s.timers.configs.of kind).millis⟩
      ⟨kind, ue, 0, s.timers.nextGeneration⟩ slots ⟨rfl, rfl, rfl⟩ rfl enabled (fun t mem => ?_)
      (undelivered_of_scheduled rfl) rfl rfl
    obtain old | new := List.mem_append.1 mem
    · exact .inr old
    · exact .inl (List.mem_singleton.1 new)

theorem Sound.take (h : s.Sound) : (s.apply .take).Sound := by
  have same : (s.apply .take).undelivered = s.undelivered := by
    unfold undelivered apply Timers.takeScheduled
    rw [Multiset.coe_nil, Multiset.zero_add, Multiset.add_comm]
  exact h.of_fewer h.slots same.le (fun t mem => ⟨mem, fun e there _ => same ▸ there⟩) rfl rfl

theorem Sound.deliver (h : s.Sound) (e : ScheduledExpiry) : (s.apply (.deliver e)).Sound := by
  unfold apply
  simp only
  split
  · rename_i there
    have stopped : Sound ⟨s.timers.stop e.kind e.ue, s.inFlight.erase e⟩ := by
      refine h.delivered there (h.slots.sublist Timers.sublist_slots_stop) (fun t mem => ?_) rfl rfl rfl
      exact ⟨(mem_running_stop.1 mem).1, fun carries =>
        (mem_running_stop.1 mem).2 ⟨carries.1, carries.2.1⟩⟩
    obtain ⟨stale, is⟩ | ⟨t, mem, carries, ⟨spent, is⟩ | ⟨left, is⟩⟩ := expire_counts e s.timers
    · rw [is]
      exact h.delivered there h.slots (fun t mem => ⟨mem, fun carries => stale ⟨t, mem, carries⟩⟩)
        rfl rfl rfl
    · rw [is]
      exact stopped
    · have slots := Timers.slots_of_expire_retry is
      rw [is]
      refine stopped.of_next
        ⟨e.kind, e.ue, s.timers.nextGeneration, (s.timers.configs.of e.kind).millis⟩
        { t with retries := t.retries + 1, generation := s.timers.nextGeneration }
        (slots ▸ h.slots) ⟨carries.1, carries.2.1, rfl⟩ rfl (h.enabled t mem) (fun u mem' => ?_)
        (undelivered_of_scheduled rfl) rfl rfl
      obtain ⟨old, was, rfl⟩ := List.mem_map.1 mem'
      split
      · exact .inl rfl
      · rename_i other
        refine .inr (mem_running_stop.2 ⟨was, fun same => other ?_⟩)
        rwa [RunningTimer.is_iff]
  · exact h

/-- **Every operation keeps a state sound.** -/
theorem Sound.apply (h : s.Sound) (o : TimerOperation) : (s.apply o).Sound := by
  cases o with
  | start kind ue => exact h.start kind ue
  | stop kind ue => exact h.stop kind ue
  | stopAll ue => exact h.stopAll ue
  | take => exact h.take
  | deliver e => exact h.deliver e

theorem Sound.run (h : s.Sound) (os : List TimerOperation) : (run os s).Sound := by
  induction os generalizing s with
  | nil => exact h
  | cons o os ih => exact ih (h.apply o)

/-! ## Stale expiries -/

@[simp] theorem configs_apply : (s.apply o).timers.configs = s.timers.configs := by
  cases o with
  | start kind ue => exact Timers.configs_start
  | deliver e =>
    unfold apply
    simp only
    split
    · exact Timers.configs_of_expire rfl
    · rfl
  | _ => rfl

/-- A timer that runs after an operation ran before it, or runs under the generation that was next. -/
theorem running_apply (mem : t ∈ (s.apply o).timers.running) :
    t ∈ s.timers.running ∨ t.generation = s.timers.nextGeneration := by
  cases o with
  | start kind ue =>
    change t ∈ (s.timers.start kind ue).running at mem
    unfold Timers.start at mem
    split at mem
    · obtain old | new := List.mem_append.1 mem
      · exact .inl (List.mem_of_mem_filter old)
      · exact .inr (List.mem_singleton.1 new ▸ rfl)
    · exact .inl mem
  | stop kind ue => exact .inl (List.mem_of_mem_filter mem)
  | stopAll ue => exact .inl (List.mem_of_mem_filter mem)
  | take => exact .inl mem
  | deliver e =>
    unfold apply at mem
    simp only at mem
    split at mem
    · obtain ⟨-, is⟩ | ⟨u, -, -, ⟨-, is⟩ | ⟨-, is⟩⟩ := expire_counts e s.timers <;> rw [is] at mem
      · exact .inl mem
      · exact .inl (List.mem_of_mem_filter mem)
      · obtain ⟨old, was, rfl⟩ := List.mem_map.1 mem
        split
        · exact .inr rfl
        · exact .inl was
    · exact .inl mem

theorem nextGeneration_apply : s.timers.nextGeneration ≤ (s.apply o).timers.nextGeneration := by
  cases o with
  | start kind ue =>
    change _ ≤ (s.timers.start kind ue).nextGeneration
    unfold Timers.start
    split
    · exact Nat.le_succ _
    · exact Nat.le_refl _
  | deliver e =>
    unfold apply
    simp only
    split
    · obtain ⟨-, is⟩ | ⟨u, -, -, ⟨-, is⟩ | ⟨-, is⟩⟩ := expire_counts e s.timers
      · rw [is]
      · exact Nat.le_of_eq (congrArg (·.2.nextGeneration) is).symm
      · exact Nat.le_of_lt (Nat.lt_of_lt_of_eq (Nat.lt_succ_self _)
          (congrArg (·.2.nextGeneration) is).symm)
    · exact Nat.le_refl _
  | _ => exact Nat.le_refl _

/-- **An expiry that counts for no timer never will.** -/
theorem not_counts_run (used : e.generation < s.timers.nextGeneration) (stale : ¬e.Counts s.timers)
    (os : List TimerOperation) : ¬e.Counts (run os s).timers := by
  induction os generalizing s with
  | nil => exact stale
  | cons o os ih =>
    refine ih (Nat.lt_of_lt_of_le used nextGeneration_apply) fun ⟨t, mem, carries⟩ => ?_
    obtain old | fresh := running_apply mem
    · exact stale ⟨t, old, carries⟩
    · exact absurd (carries.2.2.symm.trans fresh) (Nat.ne_of_lt used)

/-! ## What a timer asks for -/

/-- The timer of a kind and a UE runs, after a number of retries. -/
def RunsAfter (ts : Timers) (kind : TimerKind) (ue retries : Nat) : Prop :=
  ∃ t ∈ ts.running, t.kind = kind ∧ t.ue = ue ∧ t.retries = retries

theorem RunsAfter.isRunning (h : RunsAfter ts kind ue r) : ts.isRunning kind ue = true :=
  let ⟨t, mem, ofKind, ofUe, _⟩ := h
  Timers.isRunning_iff.2 ⟨t, mem, ofKind, ofUe⟩

/-- A timer goes on running as it does if an operation neither sets it nor delivers its expiries. -/
theorem running_apply_of_other (mem : t ∈ s.timers.running) (free : ¬o.Sets t.kind t.ue)
    (other : ∀ e, o = .deliver e → ¬(t.kind = e.kind ∧ t.ue = e.ue)) :
    t ∈ (s.apply o).timers.running := by
  cases o with
  | start kind ue =>
    change t ∈ (s.timers.start kind ue).running
    unfold Timers.start
    split
    · exact List.mem_append_left _ (mem_running_stop.2 ⟨mem, fun is => free ⟨is.1.symm, is.2.symm⟩⟩)
    · exact mem
  | stop kind ue => exact mem_running_stop.2 ⟨mem, fun is => free ⟨is.1.symm, is.2.symm⟩⟩
  | stopAll ue => exact List.mem_filter.2 ⟨mem, decide_eq_true fun is => free is.symm⟩
  | take => exact mem
  | deliver e =>
    have apart := other e rfl
    unfold apply
    simp only
    split
    · obtain ⟨-, is⟩ | ⟨u, -, -, ⟨-, is⟩ | ⟨-, is⟩⟩ := expire_counts e s.timers <;> rw [is]
      · exact mem
      · exact mem_running_stop.2 ⟨mem, apart⟩
      · refine List.mem_map.2 ⟨t, mem, if_neg fun is => apart ?_⟩
        rwa [RunningTimer.is_iff] at is
    · exact mem

/-- A timer that does not run is not made to run but by starting it. -/
theorem isRunning_of_apply (free : ¬o.Sets kind ue)
    (runs : (s.apply o).timers.isRunning kind ue = true) : s.timers.isRunning kind ue = true := by
  obtain ⟨t, mem, ofKind, ofUe⟩ := Timers.isRunning_iff.1 runs
  have slot : (kind, ue) ∈ (s.apply o).timers.slots := List.mem_map.2 ⟨t, mem, by rw [ofKind, ofUe]⟩
  have old : (kind, ue) ∈ s.timers.slots := by
    cases o with
    | start k u =>
      change (kind, ue) ∈ (s.timers.start k u).slots at slot
      cases enabled : (s.timers.configs.of k).enabled with
      | false => rwa [Timers.start_of_disabled enabled] at slot
      | true =>
        rw [Timers.slots_start enabled] at slot
        obtain old | new := List.mem_append.1 slot
        · exact List.mem_of_mem_filter old
        · cases List.mem_singleton.1 new
          exact absurd ⟨rfl, rfl⟩ free
    | stop k u => exact Timers.sublist_slots_stop.subset slot
    | stopAll u =>
      change (kind, ue) ∈ (s.timers.stopAll u).slots at slot
      rw [Timers.slots_stopAll] at slot
      exact List.mem_of_mem_filter slot
    | take => exact slot
    | deliver e =>
      unfold apply at slot
      simp only at slot
      split at slot
      · exact (Timers.slots_of_expire rfl).subset slot
      · exact slot
  obtain ⟨t, mem, is⟩ := List.mem_map.1 old
  exact Timers.isRunning_iff.2 ⟨t, mem, (Prod.mk.inj is).1, (Prod.mk.inj is).2⟩

/-- **What an operation makes a timer ask for** that runs and is not set: nothing, or its next retry,
or, after the last one, to be given up. -/
theorem result_cases (h : s.Sound) (runs : RunsAfter s.timers kind ue r) (free : ¬o.Sets kind ue) :
    (s.result kind ue o = none ∧ RunsAfter (s.apply o).timers kind ue r) ∨
    (r < (s.timers.configs.of kind).maxRetries ∧ s.result kind ue o = some (.retry (r + 1)) ∧
      RunsAfter (s.apply o).timers kind ue (r + 1)) ∨
    ((s.timers.configs.of kind).maxRetries ≤ r ∧ s.result kind ue o = some .exhausted ∧
      (s.apply o).timers.isRunning kind ue = false) := by
  obtain ⟨t, mem, rfl, rfl, rfl⟩ := runs
  by_cases mine : ∃ e ∈ s.inFlight, o = .deliver e ∧ e.kind = t.kind ∧ e.ue = t.ue
  · obtain ⟨e, there, rfl, ofKind, ofUe⟩ := mine
    unfold result apply
    simp only
    rw [if_pos ⟨there, ofKind, ofUe⟩, if_pos there, ← ofKind, ← ofUe]
    obtain ⟨-, is⟩ | ⟨u, mem', carries, counts⟩ := expire_counts e s.timers
    · rw [is]
      exact .inl ⟨rfl, t, mem, ofKind.symm, ofUe.symm, rfl⟩
    · obtain rfl := eq_of_slots h.slots mem' mem (carries.1.trans ofKind) (carries.2.1.trans ofUe)
      obtain ⟨spent, is⟩ | ⟨left, is⟩ := counts
      · rw [is]
        refine .inr (.inr ⟨spent, rfl, Bool.eq_false_iff.2 fun runs => ?_⟩)
        exact (Timers.isRunning_stop.1 runs).1 ⟨rfl, rfl⟩
      · rw [is]
        refine .inr (.inl ⟨left, rfl, _, List.mem_map.2 ⟨u, mem, if_pos ?_⟩, carries.1, carries.2.1,
          rfl⟩)
        rw [RunningTimer.is_iff]
        exact ⟨carries.1, carries.2.1⟩
  · refine .inl ⟨?_, t, ?_, rfl, rfl, rfl⟩
    · cases o with
      | deliver e => exact if_neg fun is => mine ⟨e, is.1, rfl, is.2⟩
      | _ => rfl
    · by_cases flies : ∃ e, o = .deliver e ∧ e ∉ s.inFlight
      · obtain ⟨e, rfl, away⟩ := flies
        unfold apply
        simp only
        rwa [if_neg away]
      · refine running_apply_of_other mem free fun e is same => ?_
        by_cases there : e ∈ s.inFlight
        · exact mine ⟨e, there, is, same.1.symm, same.2.symm⟩
        · exact flies ⟨e, is, there⟩

/-- A timer that does not run asks for nothing. -/
theorem result_of_not_isRunning (rests : s.timers.isRunning kind ue = false) :
    s.result kind ue o = none := by
  cases o with
  | deliver e =>
    unfold result
    simp only
    split
    · rename_i is
      cases asks : s.timers.expire kind ue e.generation with
      | mk answer ts =>
        cases answer with
        | none => rfl
        | some x =>
          rw [Timers.isRunning_of_expire asks] at rests
          cases rests
    · rfl
  | _ => rfl

theorem results_of_not_isRunning (rests : s.timers.isRunning kind ue = false)
    (free : ∀ o ∈ os, ¬o.Sets kind ue) :
    results kind ue os s = [] ∧ (run os s).timers.isRunning kind ue = false := by
  induction os generalizing s with
  | nil => exact ⟨rfl, rests⟩
  | cons o os ih =>
    have rests' : (s.apply o).timers.isRunning kind ue = false := by
      rw [← Bool.not_eq_true] at rests ⊢
      exact fun runs => rests (isRunning_of_apply (free o List.mem_cons_self) runs)
    obtain ⟨nothing, after⟩ := ih rests' fun o mem => free o (List.mem_cons_of_mem _ mem)
    refine ⟨?_, after⟩
    unfold results
    rw [result_of_not_isRunning rests, nothing]
    rfl

/-- **A timer asks for its retries in order, and then to be given up**, until it is set again, and
runs until then. -/
theorem results_of_runsAfter (h : s.Sound) (runs : RunsAfter s.timers kind ue r)
    (free : ∀ o ∈ os, ¬o.Sets kind ue) :
    results kind ue os s <+: remaining (s.timers.configs.of kind).maxRetries r ∧
      ((run os s).timers.isRunning kind ue = true ↔ .exhausted ∉ results kind ue os s) := by
  induction os generalizing s r with
  | nil => exact ⟨List.nil_prefix, iff_of_true runs.isRunning List.not_mem_nil⟩
  | cons o os ih =>
    have free' : ∀ o ∈ os, ¬o.Sets kind ue := fun o mem => free o (List.mem_cons_of_mem _ mem)
    unfold results
    obtain ⟨nothing, runs'⟩ | ⟨left, retried, runs'⟩ | ⟨spent, exhausted, rests⟩ :=
      result_cases h runs (free o List.mem_cons_self)
    · rw [nothing]
      exact configs_apply ▸ ih (h.apply o) runs' free'
    · obtain ⟨inOrder, running⟩ := ih (h.apply o) runs' free'
      rw [retried, remaining_of_lt left]
      refine ⟨List.prefix_cons_inj _ |>.2 (configs_apply ▸ inOrder), running.trans ?_⟩
      simp
    · obtain ⟨nothing, rests'⟩ := results_of_not_isRunning rests free'
      rw [exhausted, nothing, remaining_of_le spent]
      refine ⟨List.prefix_rfl, iff_of_false ?_ ?_⟩
      · exact Bool.eq_false_iff.1 rests'
      · simp

/-! ## The laws of expiries -/

/-- How a timer goes on from a start, during operations that do not set it again. -/
structure Retried (s : Timing) (kind : TimerKind) (ue : Nat) (os : List TimerOperation) : Prop where
  /-- It asks for the retries in order, and directly after the last one to be given up, once. -/
  inOrder : results kind ue os (s.apply (.start kind ue)) <+:
    (List.range' 1 (s.timers.configs.of kind).maxRetries).map .retry ++ [.exhausted]
  /-- It runs until it is given up. -/
  running : (run os (s.apply (.start kind ue))).timers.isRunning kind ue = true ↔
    (s.timers.configs.of kind).enabled = true ∧
      .exhausted ∉ results kind ue os (s.apply (.start kind ue))

/-- The laws of expiries in a state and in those that follow. -/
structure Lawful (s : Timing) : Prop where
  /-- Each timer that runs has exactly one undelivered expiry. -/
  one : ∀ t ∈ s.timers.running, s.undelivered.countP (·.Carries t) = 1
  /-- No two undelivered expiries are of the same generation. -/
  distinct : (s.undelivered.map (·.generation)).Nodup
  below : ∀ e ∈ s.undelivered, e.generation < s.timers.nextGeneration
  /-- An expiry that carries the generation of its timer is answered. -/
  live : ∀ e : ScheduledExpiry, e.Counts s.timers →
    (s.timers.expire e.kind e.ue e.generation).1 ≠ none
  /-- Every other expiry is not, and leaves the timers as they are. -/
  stale : ∀ e : ScheduledExpiry, ¬e.Counts s.timers →
    s.timers.expire e.kind e.ue e.generation = (none, s.timers)
  /-- A stale expiry, delivered or not, stays stale. -/
  never : ∀ e : ScheduledExpiry, e.generation < s.timers.nextGeneration → ¬e.Counts s.timers →
    ∀ os, ¬e.Counts (run os s).timers
  retried : ∀ kind ue os, (∀ o ∈ os, ¬o.Sets kind ue) → s.Retried kind ue os

theorem Sound.retried (h : s.Sound) (free : ∀ o ∈ os, ¬o.Sets kind ue) : s.Retried kind ue os := by
  cases enabled : (s.timers.configs.of kind).enabled with
  | true =>
    have runs : RunsAfter (s.apply (.start kind ue)).timers kind ue 0 := by
      refine ⟨⟨kind, ue, 0, s.timers.nextGeneration⟩, ?_, rfl, rfl, rfl⟩
      change _ ∈ (s.timers.start kind ue).running
      unfold Timers.start
      rw [if_pos enabled]
      exact List.mem_append_right _ (List.mem_singleton.2 rfl)
    obtain ⟨inOrder, running⟩ := results_of_runsAfter (h.start kind ue) runs free
    exact ⟨Timers.configs_start ▸ inOrder, running.trans (and_iff_right enabled).symm⟩
  | false =>
    have rests : (s.apply (.start kind ue)).timers.isRunning kind ue = false := by
      change (s.timers.start kind ue).isRunning kind ue = false
      rw [Timers.start_of_disabled enabled, ← Bool.not_eq_true, Timers.isRunning_iff]
      rintro ⟨t, mem, rfl, -⟩
      rw [h.enabled t mem] at enabled
      cases enabled
    obtain ⟨nothing, rests'⟩ := results_of_not_isRunning rests free
    refine ⟨nothing ▸ List.nil_prefix, ?_⟩
    rw [rests', enabled]
    exact iff_of_false nofun fun both => nomatch both.1

theorem Sound.lawful (h : s.Sound) : s.Lawful where
  one _ := h.countP_undelivered
  distinct := h.generations
  below := h.below
  live e counts := by
    obtain ⟨stale, -⟩ | ⟨t, -, -, ⟨-, is⟩ | ⟨-, is⟩⟩ := expire_counts e s.timers
    · exact absurd counts stale
    · rw [is]
      exact Option.some_ne_none _
    · rw [is]
      exact Option.some_ne_none _
  stale e stale := by
    obtain ⟨-, is⟩ | ⟨t, mem, carries, -⟩ := expire_counts e s.timers
    · exact is
    · exact absurd ⟨t, mem, carries⟩ stale
  never _ := not_counts_run
  retried _ _ _ := h.retried

/-- **Expiries are lawful in every state**, whatever timers were started and stopped and whatever
expiries were taken over and delivered, in whatever order. -/
theorem run_lawful (configs : TimerConfigs) (os : List TimerOperation) :
    (run os { timers := { configs } }).Lawful :=
  ((sound_of_configs configs).run os).lawful

/-- The expiry of a timer that was started anew is stale. -/
example :
    let e : ScheduledExpiry := ⟨.t3513, 7, 1, 2000⟩
    let s := run [.start .t3513 7, .take, .start .t3513 7] {}
    e ∈ s.inFlight ∧ s.timers.isRunning .t3513 7 = true ∧ results .t3513 7 [.deliver e] s = [] := by
  decide

end Timing
end Amf
