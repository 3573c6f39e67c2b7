import Amf.Proofs.Budget

/-!
# Deregistration requests are guarded

A UE that is asked to deregister is asked again when T3522 expires, with the request that is kept for
it. Wherever T3522 runs there is such a request (`Context.Guarded`), whatever was done before
(`Operation.run_guarded`), so no expiry lacks it.

| act of the UE | request | T3522 |
| --- | --- | --- |
| `deregister` | kept | started |
| `expireRequest`, retries left | as before | as before |
| `expireRequest`, none left | none | stopped |
| `detach` | none | stopped |
| any other | as before | as before |
-/

namespace Amf

open Context

variable {a : Act} {n n' : Node} {u : Nat}

/-! ## One timer -/

/-- Timers that are the same run together. -/
theorem Timers.SameIn.isRunning {p : TimerKind → Nat → Bool} {ts ts' : Timers} {kind : TimerKind}
    (same : SameIn p ts ts') (is : p kind u = true) :
    ts'.isRunning kind u = ts.isRunning kind u := by
  have kept : ∀ t : RunningTimer, t.kind = kind ∧ t.ue = u → (t ∈ ts'.running ↔ t ∈ ts.running) := by
    rintro t ⟨rfl, rfl⟩
    have filtered := congrArg (t ∈ ·) same.running
    simpa only [List.mem_filter, is, and_true, eq_iff_iff] using filtered
  rw [Bool.eq_iff_iff, Timers.isRunning_iff, Timers.isRunning_iff]
  exact exists_congr fun t => and_congr_left fun is => kept t is

namespace Context

variable {c c' : Context}

/-- The deregistration request that is kept for a UE, if the UE is known. -/
def requestOf (c : Context) (u : Nat) : Option (Option Octets) :=
  (c.ues.get? u).map (·.deregistrationMessage)

/-- Wherever T3522 runs for a UE, the request to be repeated is kept. -/
def Guarded (c : Context) : Prop :=
  ∀ u, c.timers.isRunning .t3522 u = true → ∃ nas, c.requestOf u = some (some nas)

/-- Where T3522 runs it ran before, for a request that is still kept. -/
theorem Guarded.of_fewer (h : c.Guarded) (fewer : ∀ u, c'.timers.isRunning .t3522 u = true →
    c.timers.isRunning .t3522 u = true ∧ c'.requestOf u = c.requestOf u) : c'.Guarded := by
  intro u running
  obtain ⟨before, same⟩ := fewer u running
  rw [same]
  exact h u before

theorem Guarded.of_same (h : c.Guarded)
    (timers : ∀ u, c'.timers.isRunning .t3522 u = c.timers.isRunning .t3522 u)
    (request : ∀ u, c'.requestOf u = c.requestOf u) : c'.Guarded :=
  h.of_fewer fun u running => ⟨timers u ▸ running, request u⟩

theorem Guarded.of_names (names : c.Names c') (h : c.Guarded) : c'.Guarded := by
  refine h.of_same (fun u => ?_) (names.map_ues fun _ _ _ => rfl)
  cases names <;> rfl

end Context

/-! ## Steps -/

namespace Step

/-- **A request is kept as it is** by every act that does not turn T3522 of its UE. -/
theorem requestOf_eq (step : Step a n n') (other : ¬a.Times .t3522 u) :
    n'.context.requestOf u = n.context.requestOf u := by
  have elsewhere : ∀ {c : Context} {v : Nat} {f : Ue → Ue}, (v = u → a.Times .t3522 u) →
      (c.modifyUe v f).requestOf u = c.requestOf u :=
    fun own => Table.map_get?_modify_of_ne fun is => other (own is.symm)
  cases step with
  | deregister | forgetRequest => exact elsewhere fun is => ⟨rfl, is⟩
  | detach =>
    rw [Node.context_change, Node.context_uncountLeg, detach_eq]
    exact (elsewhere (c := n.context.withoutLeg _) fun is => is).trans
      (map_ues_withoutLeg fun _ _ => rfl)
  | park | mark | setPolicy => exact Table.map_get?_modify fun _ => rfl
  | giveUp =>
    rw [Node.context_offerAll]
    exact Table.map_get?_modify fun _ => rfl
  | remove session =>
    rw [Node.context_uncount, Node.context_change, removeSession_of_some session]
    exact Table.map_get?_modify fun _ => rfl
  | connect _ room => exact Node.map_ues_connect room (fun _ _ => rfl) fun _ => rfl
  | disconnect =>
    exact (map_ues_removeLeg fun _ _ => rfl).trans (map_ues_deassociate fun _ _ => rfl)
  | repeatNothing _ lost => obtain ⟨-, rfl⟩ | ⟨-, rfl⟩ := lost <;> rfl
  | _ => rfl

/-- An act that turns T3522 of no UE leaves every request guarded. -/
theorem guarded_of_other (step : Step a n n') (other : ∀ u, ¬a.Times .t3522 u)
    (h : n.context.Guarded) : n'.context.Guarded := by
  have same : Timers.SameIn (fun kind _ => kind = .t3522) n.context.timers n'.context.timers := by
    refine step.sameIn fun kind u times => decide_eq_false ?_
    rintro rfl
    exact other u times
  exact h.of_same (fun u => same.isRunning (decide_eq_true rfl)) fun u => step.requestOf_eq (other u)

/-- **Every step leaves requests guarded.** -/
theorem guarded (step : Step a n n') (h : n.context.Guarded) : n'.context.Guarded := by
  cases a with
  | deregister u =>
    cases step with
    | @deregister _ _ nas known =>
      intro v running
      by_cases is : v = u
      · subst is
        obtain ⟨x, known⟩ := Table.contains_iff.1 known
        refine ⟨nas, ?_⟩
        show ((n.context.ues.modify v _).get? v).map _ = _
        rw [Table.get?_modify_self, known]
        rfl
      · -- The timers of other UEs run on, if T3522 may be started or not.
        have same : Timers.SameIn (fun _ w => w = v) n.context.timers
            (n.context.timers.start .t3522 u) := .start (decide_eq_false (Ne.symm is))
        obtain ⟨kept, request⟩ := h v ((same.isRunning (decide_eq_true rfl)) ▸ running)
        exact ⟨kept, (Table.map_get?_modify_of_ne is).trans request⟩
  | expireRequest u =>
    cases step with
    | @expireRequest _ _ _ e timers expiry =>
      refine h.of_fewer fun v running => ⟨?_, rfl⟩
      cases e with
      | retry i => exact Timers.isRunning_of_expire_retry expiry ▸ running
      | exhausted =>
        change timers.isRunning .t3522 v = true at running
        rw [Timers.eq_of_expire_exhausted expiry, Timers.isRunning_stop] at running
        exact running.2
    | stopRequest => exact h.of_fewer fun v running => ⟨(Timers.isRunning_stop.1 running).2, rfl⟩
    | forgetRequest stopped =>
      refine h.of_fewer fun v running => ⟨running, Table.map_get?_modify_of_ne ?_⟩
      rintro rfl
      exact absurd (stopped.symm.trans running) Bool.false_ne_true
  | detach u =>
    cases step with
    | detach =>
      rw [Node.context_change, Node.context_uncountLeg, detach_eq]
      refine h.of_fewer fun v running => ?_
      obtain ⟨other, before⟩ := Timers.isRunning_stopAll.1 running
      exact ⟨before, (Table.map_get?_modify_of_ne other).trans (map_ues_withoutLeg fun _ _ => rfl)⟩
  | _ => exact step.guarded_of_other (fun _ times => by simp [Act.Times] at times) h

end Step

theorem Chain.guarded {A : Act → Prop} (chain : Chain A n n') (h : n.context.Guarded) :
    n'.context.Guarded :=
  chain.keeps (P := fun m => m.context.Guarded) (fun _ _ _ _ step => step.guarded) h

/-! ## Operations -/

theorem Node.Begins.guarded (begins : n.Begins n') (h : n.context.Guarded) : n'.context.Guarded := by
  cases begins with
  | nothing => exact h
  | @park u =>
    have same : Timers.SameIn (fun kind _ => kind = .t3522) n.context.timers
        (n.context.timers.start .t3513 u) := .start rfl
    exact h.of_same (fun _ => same.isRunning rfl) fun _ => Table.map_get?_modify fun _ => rfl
  | answer u =>
    have same : Timers.SameIn (fun kind _ => kind = .t3522) n.context.timers
        (n.context.timers.stop .t3513 u) := .stop rfl
    rw [Node.context_answer]
    exact h.of_same (fun _ => same.isRunning rfl) fun _ => Table.map_get?_modify fun _ => rfl

namespace Operation

/-- **Every operation leaves requests guarded.** -/
theorem guarded (o : Operation) (registered : n.context.Registered) (h : n.context.Guarded) :
    (o.apply n).context.Guarded := by
  cases o with
  | addUe =>
    refine of_addUe (P := Guarded) h (h.of_fewer fun v running => ⟨running, ?_⟩)
    obtain ⟨nas, kept⟩ := h v running
    refine congrArg _ (Table.get?_insert_of_ne ?_)
    rintro rfl
    unfold requestOf at kept
    rw [registered.new] at kept
    cases kept
  | removeUe v =>
    show (n.context.removeUe v).Guarded
    cases there : n.context.ues.get? v with
    | none =>
      rw [removeUe_of_none there]
      exact h
    | some x =>
      rw [removeUe_of_some there]
      refine h.of_fewer fun w running => ?_
      obtain ⟨other, before⟩ := Timers.isRunning_stopAll.1 running
      exact ⟨before, congrArg _ (Table.get?_erase_of_ne other)⟩
  | setSupi v supi => exact h.of_names names_setSupi
  | setGuti v guti => exact h.of_names names_setGuti
  | addSession v psi =>
    exact of_addSession (P := Guarded) h fun _ known =>
      h.of_same (fun _ => rfl) fun _ => Table.map_get?_insert known rfl
  | removeSession id =>
    show (n.context.removeSession id).Guarded
    cases session : n.context.sessions.get? id with
    | none =>
      rw [removeSession_of_none session]
      exact h
    | some s =>
      rw [removeSession_of_some session]
      exact h.of_same (fun _ => rfl) fun _ => Table.map_get?_modify fun _ => rfl
  | onLegs o =>
    have timers : (o.apply n.context).timers = n.context.timers := o.same.timers
    exact h.of_same (fun v => congrArg (·.isRunning .t3522 v) timers) (o.map_ues fun _ _ => rfl)
  | handle | perform | page | answer =>
    exact of_drives (P := fun m => m.context.Guarded) rfl fun begins chain =>
      chain.guarded (begins.guarded h)

/-- **After any operations, every request is guarded**, from any context in which nothing has
happened. -/
theorem run_guarded {c : Context} (fresh : c.Fresh) (metrics : Metrics) (links : Links)
    (os : List Operation) : (run os { context := c, metrics, links }).context.Guarded := by
  have start : c.Registered ∧ c.Guarded := by
    refine ⟨fun u known => ?_, fun u running => ?_⟩
    · obtain ⟨x, there⟩ := Table.contains_iff.1 known
      exact (fresh.ues u x there).1
    · rw [fresh.isRunning] at running
      cases running
  exact (run_keeps (P := fun n => n.context.Registered ∧ n.context.Guarded)
    (fun o _ h => ⟨o.registered h.1, o.guarded h.1 h.2⟩) os start).2

end Operation

/-! ## Expiries -/

namespace Deregistration

open Procedure

variable {g i : Nat} {nas : Octets} {ts : Timers}

/-- A request that is kept is sent again as it is, on the leg that its UE has by then. -/
theorem exec_repeat (kept : n.context.requestOf u = some (some nas)) :
    (Delivery.repeatDeregistration u).exec n = match n.context.legOf? u with
      | none => (.error (.send (.noLeg u)), n)
      | some (_, l) => (verdict n (l.message (.downlinkNas nas)),
          n.offer (l.message (.downlinkNas nas))) := by
  obtain ⟨x, there, kept⟩ := Option.map_eq_some_iff.1 kept
  unfold Delivery.repeatDeregistration
  rw [exec_bind_of_ok (exec_ue_of_some there), kept, exec_bind_of_ok (exec_need_some _ _ _)]
  unfold legOf
  rw [exec_bind, exec_context_bind]
  cases n.context.legOf? u with
  | none => rfl
  | some has => exact exec_emitOn has.2 _ n

/-- An expiry of T3522 that does not count does nothing. -/
theorem exec_expired_of_none (stale : n.context.timers.live? .t3522 u g = none) :
    (expired u g).exec n = (.ok (), n) := by
  unfold expired
  rw [exec_context_bind, Timers.expire_eq_none_iff.2 stale]
  rfl

/-- While there are retries left, the request leaves once more; without a leg, T3522 stops. -/
theorem exec_expired_of_retry (expiry : n.context.timers.expire .t3522 u g = (some (.retry i), ts))
    (kept : n.context.requestOf u = some (some nas)) :
    (expired u g).exec n = match n.context.legOf? u with
      | none => (.ok (), n.change (·.withTimers (ts.stop .t3522 u)))
      | some (_, l) => (verdict n (l.message (.downlinkNas nas)),
          (n.change (·.withTimers ts)).offer (l.message (.downlinkNas nas))) := by
  have again := exec_repeat (n := n.change (·.withTimers ts)) kept
  have same : (n.change (·.withTimers ts)).context.legOf? u = n.context.legOf? u := rfl
  rw [same] at again
  unfold expired
  rw [exec_context_bind, expiry, exec_change_bind]
  show (tryCatch (Delivery.repeatDeregistration u) _ : Procedure Unit).exec
    (n.change (·.withTimers ts)) = _
  rw [exec_tryCatch, again]
  cases n.context.legOf? u with
  | none => rfl
  | some has =>
    unfold verdict
    by_cases accepted : n.links.accepts (has.2.message (.downlinkNas nas)) = true
    · simp [accepted]
    · simp [accepted]

/-- Without retries left, the request is given up. -/
theorem exec_expired_of_exhausted
    (expiry : n.context.timers.expire .t3522 u g = (some .exhausted, ts)) :
    (expired u g).exec n = (.ok (), (n.change (·.withTimers ts)).change
      (·.modifyUe u fun x => { x with deregistrationMessage := none })) := by
  unfold expired
  rw [exec_context_bind, expiry]
  rfl

/-- **No expiry of T3522 lacks the request that it repeats**, where requests are guarded. -/
theorem expired_ne_notBuilt (h : n.context.Guarded) (u g : Nat) (name : String) :
    ((expired u g).exec n).1 ≠ .error (.send (.notBuilt name)) := by
  cases expiry : n.context.timers.expire .t3522 u g with
  | mk e ts =>
    match e, expiry with
    | none, expiry =>
      rw [Timers.eq_of_expire_none expiry] at expiry
      rw [exec_expired_of_none (Timers.expire_eq_none_iff.1 expiry)]
      exact nofun
    | some (.retry i), expiry =>
      obtain ⟨nas, kept⟩ := h u (Timers.isRunning_of_expire expiry)
      rw [exec_expired_of_retry expiry kept]
      cases n.context.legOf? u with
      | none => exact nofun
      | some has =>
        simp only [verdict]
        split <;> exact nofun
    | some .exhausted, expiry =>
      rw [exec_expired_of_exhausted expiry]
      exact nofun

end Deregistration
end Amf
