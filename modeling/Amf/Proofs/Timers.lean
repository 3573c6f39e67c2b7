import Amf.Timer

/-!
# Running timers

Which timers run after an operation on the timers of all UEs, that those of other kinds and UEs are as
before (`Timers.SameIn`), and that none changes the settings.

| operation | timers of its kind and UE | other timers |
| --- | --- | --- |
| `start`, if enabled | run | as before |
| `stop` | do not run | as before |
| `stopAll` | do not run, of either kind | as before |
| `expire`, live, retries left | run | as before |
| `expire`, live, no retries left | do not run | as before |
-/

namespace Amf

@[simp] theorem RunningTimer.is_iff (t : RunningTimer) (kind : TimerKind) (ue : Nat) :
    t.is kind ue = true ↔ t.kind = kind ∧ t.ue = ue := by
  simp [RunningTimer.is]

theorem RunningTimer.not_is_iff (t : RunningTimer) (kind : TimerKind) (ue : Nat) :
    (!t.is kind ue) = true ↔ ¬(t.kind = kind ∧ t.ue = ue) := by
  rw [Bool.not_eq_true', ← Bool.not_eq_true, t.is_iff]

namespace Timers

variable {ts ts' : Timers} {kind k : TimerKind} {ue u g i : Nat}

theorem isRunning_iff : ts.isRunning kind ue = true ↔ ∃ t ∈ ts.running, t.kind = kind ∧ t.ue = ue := by
  simp [isRunning]

theorem isRunning_start (enabled : (ts.configs.of kind).enabled = true) :
    (ts.start kind ue).isRunning k u = true ↔ (k = kind ∧ u = ue) ∨ ts.isRunning k u = true := by
  unfold start
  rw [if_pos enabled, isRunning_iff, isRunning_iff]
  simp only [stop, List.mem_append, List.mem_filter, List.mem_singleton]
  constructor
  · rintro ⟨t, ⟨mem, _⟩ | rfl, rfl, rfl⟩
    · exact .inr ⟨t, mem, rfl, rfl⟩
    · exact .inl ⟨rfl, rfl⟩
  · rintro (⟨rfl, rfl⟩ | ⟨t, mem, rfl, rfl⟩)
    · exact ⟨_, .inr rfl, rfl, rfl⟩
    · by_cases same : t.kind = kind ∧ t.ue = ue
      · exact ⟨_, .inr rfl, same.1.symm, same.2.symm⟩
      · exact ⟨t, .inl ⟨mem, (t.not_is_iff kind ue).2 same⟩, rfl, rfl⟩

theorem isRunning_stop :
    (ts.stop kind ue).isRunning k u = true ↔ ¬(k = kind ∧ u = ue) ∧ ts.isRunning k u = true := by
  rw [isRunning_iff, isRunning_iff]
  simp only [stop, List.mem_filter]
  constructor
  · rintro ⟨t, ⟨mem, other⟩, rfl, rfl⟩
    exact ⟨(t.not_is_iff kind ue).1 other, t, mem, rfl, rfl⟩
  · rintro ⟨other, t, mem, rfl, rfl⟩
    exact ⟨t, ⟨mem, (t.not_is_iff kind ue).2 other⟩, rfl, rfl⟩

theorem isRunning_stopAll :
    (ts.stopAll ue).isRunning k u = true ↔ u ≠ ue ∧ ts.isRunning k u = true := by
  rw [isRunning_iff, isRunning_iff]
  simp only [stopAll, List.mem_filter]
  constructor
  · rintro ⟨t, ⟨mem, other⟩, rfl, rfl⟩
    exact ⟨by simpa using other, t, mem, rfl, rfl⟩
  · rintro ⟨other, t, mem, rfl, rfl⟩
    exact ⟨t, ⟨mem, by simpa using other⟩, rfl, rfl⟩

/-! ## Expiries -/

/-- **What an expiry does**: nothing if it is stale, and else its timer runs and is retried or
stopped. -/
theorem expire_cases (ts : Timers) (kind : TimerKind) (ue g : Nat) :
    ts.expire kind ue g = (none, ts) ∨
    (∃ t ∈ ts.running, t.kind = kind ∧ t.ue = ue ∧ (ts.configs.of kind).maxRetries ≤ t.retries ∧
      ts.expire kind ue g = (some .exhausted, ts.stop kind ue)) ∨
    (∃ t ∈ ts.running, t.kind = kind ∧ t.ue = ue ∧
      ts.expire kind ue g = (some (.retry (t.retries + 1)), { ts.schedule kind ue with
        running := ts.running.map fun r => if r.is kind ue then
          { t with retries := t.retries + 1, generation := ts.nextGeneration } else r })) := by
  unfold expire
  cases live : ts.live? kind ue g with
  | none => exact .inl rfl
  | some t =>
    have mem := List.mem_of_find?_eq_some live
    have is := List.find?_some live
    simp only [Bool.and_eq_true, RunningTimer.is_iff] at is
    simp only
    split
    · rename_i spent
      exact .inr (.inl ⟨t, mem, is.1.1, is.1.2, spent, rfl⟩)
    · exact .inr (.inr ⟨t, mem, is.1.1, is.1.2, rfl⟩)

/-- A stale expiry leaves the timers as they are. -/
theorem eq_of_expire_none (h : ts.expire kind ue g = (none, ts')) : ts' = ts := by
  obtain stale | ⟨t, _, _, _, _, spent⟩ | ⟨t, _, _, _, retried⟩ := expire_cases ts kind ue g
  · rw [stale] at h
    exact (Prod.mk.inj h).2.symm
  · rw [spent] at h
    cases h
  · rw [retried] at h
    cases h

/-- An expiry that counts is one of a timer that runs. -/
theorem isRunning_of_expire {e : Expiry} (h : ts.expire kind ue g = (some e, ts')) :
    ts.isRunning kind ue = true := by
  rw [isRunning_iff]
  obtain stale | ⟨t, mem, ofKind, ofUe, _⟩ | ⟨t, mem, ofKind, ofUe, _⟩ := expire_cases ts kind ue g
  · rw [stale] at h
    cases h
  · exact ⟨t, mem, ofKind, ofUe⟩
  · exact ⟨t, mem, ofKind, ofUe⟩

/-- A timer that has no retries left is stopped. -/
theorem eq_of_expire_exhausted (h : ts.expire kind ue g = (some .exhausted, ts')) :
    ts' = ts.stop kind ue := by
  obtain stale | ⟨t, _, _, _, _, spent⟩ | ⟨t, _, _, _, retried⟩ := expire_cases ts kind ue g
  · rw [stale] at h
    cases h
  · rw [spent] at h
    exact (Prod.mk.inj h).2.symm
  · rw [retried] at h
    cases h

/-- A retry leaves the same timers running. -/
theorem isRunning_of_expire_retry (h : ts.expire kind ue g = (some (.retry i), ts')) :
    ts'.isRunning k u = ts.isRunning k u := by
  obtain stale | ⟨t, _, _, _, _, spent⟩ | ⟨t, mem, ofKind, ofUe, retried⟩ :=
    expire_cases ts kind ue g
  · rw [stale] at h
    cases h
  · rw [spent] at h
    cases h
  · rw [retried] at h
    rw [← (Prod.mk.inj h).2, Bool.eq_iff_iff]
    simp only [isRunning, List.any_map]
    rw [List.any_eq_true, List.any_eq_true]
    refine exists_congr fun r => and_congr_right fun _ => ?_
    simp only [Function.comp]
    split
    · rename_i same
      rw [RunningTimer.is_iff] at same ⊢
      rw [RunningTimer.is_iff, ofKind, ofUe, same.1, same.2]
    · rfl

/-- An expiry leaves the timers of the other kind running. -/
theorem isRunning_of_expire_of_ne {e : Option Expiry} (h : ts.expire kind ue g = (e, ts'))
    (other : k ≠ kind) : ts'.isRunning k u = ts.isRunning k u := by
  match e, h with
  | none, h => rw [eq_of_expire_none h]
  | some (.retry i), h => exact isRunning_of_expire_retry h
  | some .exhausted, h =>
    rw [eq_of_expire_exhausted h, Bool.eq_iff_iff, isRunning_stop]
    exact and_iff_right fun is => other is.1

/-! ## Slots -/

/-- The kind and the UE of each timer that runs. -/
def slots (ts : Timers) : List (TimerKind × Nat) := ts.running.map fun t => (t.kind, t.ue)

/-- The timers of a kind and a UE, by their slots. -/
theorem count_slots : ts.slots.count (kind, ue) = ts.running.countP (·.is kind ue) := by
  unfold slots
  rw [List.count, List.countP_map]
  refine List.countP_congr fun t _ => ?_
  rw [Function.comp, beq_iff_eq, Prod.mk.injEq, t.is_iff]

theorem slots_stop : (ts.stop kind ue).slots = ts.slots.filter (· ≠ (kind, ue)) := by
  unfold slots stop
  rw [List.filter_map]
  refine congrArg (List.map _) (List.filter_congr fun t _ => ?_)
  rw [Bool.eq_iff_iff, t.not_is_iff, Function.comp, decide_eq_true_eq, ne_eq, Prod.mk.injEq]

theorem sublist_slots_stop : (ts.stop kind ue).slots.Sublist ts.slots :=
  slots_stop ▸ List.filter_sublist

theorem slots_stopAll : (ts.stopAll ue).slots = ts.slots.filter (·.2 ≠ ue) := by
  unfold slots stopAll
  rw [List.filter_map]
  rfl

theorem slots_start (enabled : (ts.configs.of kind).enabled = true) :
    (ts.start kind ue).slots = ts.slots.filter (· ≠ (kind, ue)) ++ [(kind, ue)] := by
  rw [← slots_stop]
  unfold start slots
  rw [if_pos enabled]
  exact List.map_append

theorem start_of_disabled (disabled : (ts.configs.of kind).enabled = false) :
    ts.start kind ue = ts := by
  unfold start
  rw [disabled]
  rfl

/-- A retry takes the slot of the timer that is retried. -/
theorem slots_of_expire_retry (h : ts.expire kind ue g = (some (.retry i), ts')) :
    ts'.slots = ts.slots := by
  obtain stale | ⟨t, _, _, _, _, spent⟩ | ⟨t, mem, ofKind, ofUe, retried⟩ :=
    expire_cases ts kind ue g
  · rw [stale] at h
    cases h
  · rw [spent] at h
    cases h
  · rw [retried] at h
    rw [← (Prod.mk.inj h).2]
    unfold slots
    rw [List.map_map]
    refine List.map_congr_left fun r _ => ?_
    simp only [Function.comp]
    split
    · rename_i same
      rw [RunningTimer.is_iff] at same
      rw [ofKind, ofUe, same.1, same.2]
    · rfl

/-- An expiry leaves at most the slots that were taken. -/
theorem slots_of_expire {e : Option Expiry} (h : ts.expire kind ue g = (e, ts')) :
    ts'.slots.Sublist ts.slots := by
  match e, h with
  | none, h => exact eq_of_expire_none h ▸ .refl _
  | some (.retry i), h => exact slots_of_expire_retry h ▸ .refl _
  | some .exhausted, h =>
    rw [eq_of_expire_exhausted h]
    exact sublist_slots_stop

/-! ## Settings -/

@[simp] theorem configs_start : (ts.start kind ue).configs = ts.configs := by
  unfold start
  split <;> rfl

theorem configs_of_expire {e : Option Expiry} (h : ts.expire kind ue g = (e, ts')) :
    ts'.configs = ts.configs := by
  have same : (ts.expire kind ue g).2.configs = ts.configs := by
    obtain is | ⟨t, _, _, _, _, is⟩ | ⟨t, _, _, _, is⟩ := expire_cases ts kind ue g <;> rw [is] <;> rfl
  rw [h] at same
  exact same

/-! ## Timers of some kinds and UEs -/

/-- The timers of some kinds and UEs are as before, and so are the expiries scheduled for them; and
the settings are the same. -/
structure SameIn (p : TimerKind → Nat → Bool) (ts ts' : Timers) : Prop where
  running : (ts'.running.filter fun t => p t.kind t.ue) = ts.running.filter fun t => p t.kind t.ue
  scheduled : (ts'.scheduled.filter fun e => p e.kind e.ue) =
    ts.scheduled.filter fun e => p e.kind e.ue
  configs : ts'.configs = ts.configs

namespace SameIn

variable {p : TimerKind → Nat → Bool} {ts'' : Timers}

theorem refl : SameIn p ts ts := ⟨rfl, rfl, rfl⟩

theorem trans (first : SameIn p ts ts') (second : SameIn p ts' ts'') : SameIn p ts ts'' :=
  ⟨second.running.trans first.running, second.scheduled.trans first.scheduled,
    second.configs.trans first.configs⟩

theorem of_eq (same : ts' = ts) : SameIn p ts ts' := same ▸ refl

/-- A timer that runs elsewhere is none of those that are stopped. -/
theorem stop (other : p kind ue = false) : SameIn p ts (ts.stop kind ue) := by
  refine ⟨?_, rfl, rfl⟩
  show List.filter _ (ts.running.filter _) = _
  rw [List.filter_filter]
  refine List.filter_congr fun t _ => ?_
  cases is : t.is kind ue with
  | false => exact Bool.and_true _
  | true =>
    obtain ⟨rfl, rfl⟩ := (t.is_iff kind ue).1 is
    rw [other]
    rfl

theorem stopAll (other : ∀ k, p k ue = false) : SameIn p ts (ts.stopAll ue) := by
  refine ⟨?_, rfl, rfl⟩
  show List.filter _ (ts.running.filter _) = _
  rw [List.filter_filter]
  refine List.filter_congr fun t _ => ?_
  by_cases is : t.ue = ue
  · rw [is, other]
    rfl
  · rw [decide_eq_true is, Bool.and_true]

/-- An expiry that is scheduled elsewhere makes no difference. -/
theorem schedule (other : p kind ue = false) : SameIn p ts (ts.schedule kind ue) := by
  refine ⟨rfl, ?_, rfl⟩
  show List.filter _ (ts.scheduled ++ [_]) = _
  rw [List.filter_append, List.filter_cons_of_neg (by simp [other]), List.filter_nil, List.append_nil]

theorem start (other : p kind ue = false) : SameIn p ts (ts.start kind ue) := by
  unfold Timers.start
  split
  · refine trans ((stop other).trans (schedule other)) ⟨?_, rfl, rfl⟩
    show List.filter _ ((ts.stop kind ue).running ++ [_]) = _
    rw [List.filter_append, List.filter_cons_of_neg (by simp [other]), List.filter_nil, List.append_nil]
    rfl
  · exact refl

theorem expire {e : Option Expiry} (expiry : ts.expire kind ue g = (e, ts'))
    (other : p kind ue = false) : SameIn p ts ts' := by
  obtain stale | ⟨t, -, -, -, -, spent⟩ | ⟨t, -, ofKind, ofUe, retried⟩ := expire_cases ts kind ue g
  · rw [stale] at expiry
    cases expiry
    exact refl
  · rw [spent] at expiry
    cases expiry
    exact stop other
  · rw [retried] at expiry
    cases expiry
    refine (schedule other).trans ⟨?_, rfl, rfl⟩
    -- The timer that is retried is of that kind and UE, before and after.
    show List.filter _ (ts.running.map _) = ts.running.filter _
    rw [List.filter_map]
    have fixed : ∀ r ∈ ts.running.filter (fun r => p r.kind r.ue), (if r.is kind ue then
        { t with retries := t.retries + 1, generation := ts.nextGeneration } else r) = r := by
      intro r mem
      refine if_neg fun is => ?_
      obtain ⟨rfl, rfl⟩ := (r.is_iff kind ue).1 is
      rw [(List.mem_filter.1 mem).2] at other
      cases other
    refine Eq.trans ?_ ((List.map_congr_left fixed).trans (List.map_id'' (fun _ => rfl) _))
    refine congrArg _ (List.filter_congr fun r _ => ?_)
    simp only [Function.comp]
    split
    · rename_i is
      obtain ⟨rfl, rfl⟩ := (r.is_iff kind ue).1 is
      rw [ofKind, ofUe]
    · rfl

end SameIn

end Timers
end Amf
