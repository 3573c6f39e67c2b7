import Amf.Proofs.Course
import Amf.Proofs.Provisioned

/-!
# Parked transfers are attended to

A transfer that is parked is never stranded (`Event.parked_attended`): its UE has no leg, is paged,
and the timer of the paging runs, so either a connection or an expiry will take the transfer. And a
timer of a paging runs only as long as there is a message to page with, whatever is refused by the
transports.

| act | parked | timer | paging message |
| --- | --- | --- | --- |
| `park` | yes | started | kept |
| `repeatPaging` | as before | as before | as before |
| `giveUp`, `connect`, `detach` | no | stopped | none |
| `remove` | as before, or no | as before | as before |
| any other | as before | as before | as before |
-/

namespace Amf
namespace Context

variable {c c' : Context} {u v : Nat}

/-- The paging message of a UE, if the UE is known. -/
def pagingOf (c : Context) (u : Nat) : Option (Option Octets) := (c.ues.get? u).map (·.pagingMessage)

/-- The timer of the paging of a UE runs. -/
def isPaged (c : Context) (u : Nat) : Bool := c.timers.isRunning .t3513 u

/-- **What is parked is attended to**: its UE has no leg and its paging is guarded, and every paging
that is guarded has its message. -/
structure Attended (c : Context) : Prop where
  parked : ∀ u p, c.parked.get? u = some p → c.legOf? u = none ∧ c.isPaged u = true
  paged : ∀ u, c.isPaged u = true → ∃ pdu, c.pagingOf u = some (some pdu)
  /-- Legs are told apart, so a new one is a leg of no other UE. -/
  numbered : c.Numbered
  /-- The timer is started when it is asked for. -/
  enabled : ∀ kind, (c.timers.configs.of kind).enabled = true

/-- No transfer is parked anew, and UEs, timers and paging messages are as before. -/
structure LeavesPaging (c c' : Context) : Prop where
  parked : ∀ u p, c'.parked.get? u = some p → c.parked.get? u = some p
  paged : ∀ u, c'.isPaged u = c.isPaged u
  pagingOf : ∀ u, c'.pagingOf u = c.pagingOf u
  configs : c'.timers.configs = c.timers.configs

theorem Attended.of_leaves (leaves : LeavesPaging c c') (numbered : c'.Numbered)
    (idle : ∀ u, c.legOf? u = none → c'.legOf? u = none) (h : Attended c) : Attended c' := by
  refine ⟨fun u p hp => ?_, fun u hu => ?_, numbered, leaves.configs ▸ h.enabled⟩
  · obtain ⟨unused, guarded⟩ := h.parked u p (leaves.parked u p hp)
    rw [leaves.paged]
    exact ⟨idle u unused, guarded⟩
  · rw [leaves.paged] at hu
    rw [leaves.pagingOf]
    exact h.paged u hu

/-- The paging of one UE ends, and what is parked for it goes; all others are as before. -/
structure EndsPaging (u : Nat) (c c' : Context) : Prop where
  parked : c'.parked = c.parked.erase u
  paged : ∀ v, c'.isPaged v = true ↔ v ≠ u ∧ c.isPaged v = true
  pagingOf : ∀ v, v ≠ u → c'.pagingOf v = c.pagingOf v
  configs : c'.timers.configs = c.timers.configs

theorem Attended.of_ends (ends : EndsPaging u c c') (numbered : c'.Numbered)
    (idle : ∀ v, v ≠ u → c.legOf? v = none → c'.legOf? v = none) (h : Attended c) : Attended c' := by
  refine ⟨fun v p hp => ?_, fun v hv => ?_, numbered, ends.configs ▸ h.enabled⟩
  · rw [ends.parked, Table.get?_erase] at hp
    split at hp
    · cases hp
    · rename_i other
      obtain ⟨unused, guarded⟩ := h.parked v p hp
      exact ⟨idle v other unused, (ends.paged v).2 ⟨other, guarded⟩⟩
  · obtain ⟨other, guarded⟩ := (ends.paged v).1 hv
    rw [ends.pagingOf v other]
    exact h.paged v guarded

theorem pagingOf_modifyUe_of_ne {f : Ue → Ue} (other : v ≠ u) :
    (c.modifyUe u f).pagingOf v = c.pagingOf v :=
  Table.map_get?_modify_of_ne other

/-- A UE that is paged keeps the message. -/
theorem pagingOf_park {pdu : Octets} {p : Parked} {x : Ue} (hx : c.ues.get? u = some x) :
    (c.park u pdu p).pagingOf u = some (some pdu) := by
  show ((c.ues.modify u _).get? u).map _ = _
  rw [Table.get?_modify_self, hx]
  rfl

theorem ends_quitPaging : EndsPaging u c (c.quitPaging u (c.timers.stop .t3513 u)) := by
  refine ⟨rfl, fun v => ?_, fun v other => pagingOf_modifyUe_of_ne other, rfl⟩
  show (c.timers.stop .t3513 u).isRunning .t3513 v = true ↔ _
  rw [Timers.isRunning_stop]
  exact and_congr_left fun _ => not_congr (and_iff_right rfl)

theorem ends_detach : EndsPaging u c (Relocation.detach c u) := by
  rw [detach_eq]
  refine ⟨rfl, fun v => Timers.isRunning_stopAll, fun v other => ?_, rfl⟩
  exact (pagingOf_modifyUe_of_ne (c := c.withoutLeg u) other).trans (map_ues_withoutLeg fun _ _ => rfl)

theorem ends_connect {n : Node} {k : Nat} {gnb ran : UInt64} {rat : RatType}
    (room : n.context.addLeg gnb ran = some (k, c)) :
    EndsPaging u n.context (n.connect c u k rat).context := by
  have added := same_addLeg room
  have served : c.SameButLegs ((c.freeLeg u).serve u k rat) := same_freeLeg.trans same_serve
  have paging : ∀ v, ((c.freeLeg u).serve u k rat).pagingOf v = n.context.pagingOf v := by
    intro v
    obtain ⟨-, -, is⟩ := addLeg_eq_some_iff.1 room
    refine (map_ues_serve fun _ _ => rfl).trans ((map_ues_freeLeg fun _ _ => rfl).trans ?_)
    rw [is]
    rfl
  have ends := ends_quitPaging (u := u) (c := (c.freeLeg u).serve u k rat)
  rw [Node.context_connect]
  rw [served.timers] at ends
  refine ⟨?_, fun v => ?_, fun v other => (ends.pagingOf v other).trans (paging v), ?_⟩
  · rw [← Node.context_connect]
    exact Node.parked_connect room
  · refine (ends.paged v).trans ?_
    unfold isPaged
    rw [served.timers, added.timers]
  · rw [ends.configs, served.timers, added.timers]

end Context

/-- The act starts the paging of a UE or ends one. -/
def Act.turnsPaging : Act → Bool
  | .park .. | .giveUp _ | .connect _ | .detach _ => true
  | _ => false

namespace Step

open Context

variable {a : Act} {n n' : Node}

/-- **Every other act leaves pagings alone**, and parks nothing. -/
theorem leavesPaging (step : Step a n n') (other : a.turnsPaging = false)
    (attended : n.context.Attended) : LeavesPaging n.context n'.context := by
  cases step with
  | park | giveUp | connect | detach => cases other
  | tell | ask | refusePaging | setUp | holdSetup | confirm | confirmIdle | confirmHeld | holdCommand |
    dropCommand | record | answerSetup => exact ⟨fun _ _ hp => hp, fun _ => rfl, fun _ => rfl, rfl⟩
  | mark | setPolicy | forgetRequest =>
    exact ⟨fun _ _ hp => hp, fun _ => rfl, fun _ => Table.map_get?_modify fun _ => rfl, rfl⟩
  | deregister =>
    refine ⟨fun _ _ hp => hp, fun v => ?_, fun _ => Table.map_get?_modify fun _ => rfl,
      Timers.configs_start⟩
    rw [Bool.eq_iff_iff]
    exact (Timers.isRunning_start (attended.enabled _)).trans (or_iff_right fun is => nomatch is.1)
  | expireRequest expiry =>
    exact ⟨fun _ _ hp => hp, fun _ => Timers.isRunning_of_expire_of_ne expiry nofun, fun _ => rfl,
      Timers.configs_of_expire expiry⟩
  | stopRequest =>
    refine ⟨fun _ _ hp => hp, fun v => ?_, fun _ => rfl, rfl⟩
    rw [Bool.eq_iff_iff]
    exact Timers.isRunning_stop.trans (and_iff_right fun is => nomatch is.1)
  | repeatPaging expiry | repeatRefused expiry =>
    exact ⟨fun _ _ hp => hp, fun _ => Timers.isRunning_of_expire_retry expiry, fun _ => rfl,
      Timers.configs_of_expire expiry⟩
  | @repeatNothing _ u _ _ _ _ expiry lost =>
    -- The timer that expires runs, so the UE is known and has its paging message.
    obtain ⟨pdu, kept⟩ := attended.paged u (Timers.isRunning_of_expire expiry)
    obtain ⟨unknown, -⟩ | ⟨empty, -⟩ := lost
    · unfold pagingOf at kept
      rw [unknown] at kept
      cases kept
    · unfold pagingOf at kept
      rw [empty] at kept
      cases kept
  | disconnect =>
    refine ⟨fun u p hp => ?_, fun u => ?_, fun u => ?_, ?_⟩
    · exact same_disconnect.parked ▸ hp
    · exact congrArg (·.isRunning .t3513 u) same_disconnect.timers
    · exact (map_ues_removeLeg fun _ _ => rfl).trans (map_ues_deassociate fun _ _ => rfl)
    · exact congrArg (·.configs) same_disconnect.timers
  | remove session =>
    rw [Node.context_uncount, Node.context_change, removeSession_of_some session]
    exact ⟨fun u p hp => get?_of_unpark hp, fun _ => rfl, fun _ => Table.map_get?_modify fun _ => rfl,
      rfl⟩

/-- **What ends the paging of a UE ends no other.** -/
theorem endsPaging {u : Nat} (step : Step a n n')
    (ends : a = .giveUp u ∨ a = .connect u ∨ a = .detach u) :
    EndsPaging u n.context n'.context := by
  obtain rfl | rfl | rfl := ends
  · cases step with
    | giveUp expiry =>
      rw [Node.context_offerAll, Node.context_change, Timers.eq_of_expire_exhausted expiry]
      exact ends_quitPaging
  · cases step with
    | connect known room => exact ends_connect room
  · cases step with
    | detach =>
      rw [Node.context_change, Node.context_uncountLeg]
      exact ends_detach

/-- A UE is paged after a step that pages one if it is that one, or was paged before. -/
theorem isPaged_park {u v : Nat} {p : Parked} (step : Step (.park u p) n n')
    (attended : n.context.Attended) :
    n'.context.isPaged v = true ↔ v = u ∨ n.context.isPaged v = true := by
  cases step with
  | park =>
    exact (Timers.isRunning_start (attended.enabled .t3513)).trans (or_congr_left (and_iff_right rfl))

/-- **Every step keeps what is parked attended to.** -/
theorem attended (step : Step a n n') (h : n.context.Attended) : n'.context.Attended := by
  have numbered := step.numbered h.numbered
  have unused : ∀ v, a ≠ .connect v → n.context.legOf? v = none → n'.context.legOf? v = none :=
    fun v other => step.idle h.numbered other
  cases turns : a.turnsPaging with
  | false =>
    refine h.of_leaves (step.leavesPaging turns h) numbered fun u => unused u ?_
    rintro rfl
    cases turns
  | true =>
    have ended : ∀ u, a = .giveUp u ∨ a = .connect u ∨ a = .detach u → n'.context.Attended := by
      intro u ends
      refine h.of_ends (step.endsPaging ends) numbered fun v other => unused v ?_
      rintro rfl
      obtain is | is | is := ends <;> cases is
      exact other rfl
    cases a with
    | giveUp u => exact ended u (.inl rfl)
    | connect u => exact ended u (.inr (.inl rfl))
    | detach u => exact ended u (.inr (.inr rfl))
    | park u p =>
      have running : ∀ v, n'.context.isPaged v = true ↔ v = u ∨ n.context.isPaged v = true :=
        fun v => step.isPaged_park h
      cases step with
      | @park _ _ s _ _ _ _ _ _ session ue known idle resolved =>
        refine ⟨fun v q hq => ?_, fun v hv => ?_, numbered, ?_⟩
        · change (n.context.parked.insert s.ue _).get? v = some q at hq
          rw [Table.get?_insert] at hq
          split at hq
          · rename_i is
            subst is
            exact ⟨unused _ nofun idle, (running _).2 (.inl rfl)⟩
          · obtain ⟨waits, guarded⟩ := h.parked v q hq
            exact ⟨unused v nofun waits, (running v).2 (.inr guarded)⟩
        · by_cases is : v = s.ue
          · subst is
            exact ⟨_, pagingOf_park ue⟩
          · obtain same | guarded := (running v).1 hv
            · exact absurd same is
            · obtain ⟨pdu, kept⟩ := h.paged v guarded
              exact ⟨pdu, (Table.map_get?_modify_of_ne is).trans kept⟩
        · show ∀ kind, ((n.context.timers.start .t3513 s.ue).configs.of kind).enabled = true
          rw [Timers.configs_start]
          exact h.enabled
    | _ => cases turns

end Step

/-- Nothing is parked before the first event. -/
theorem Context.Fresh.attended {c : Context} (h : c.Fresh) : c.Attended := by
  refine ⟨fun u p hp => ?_, fun u hu => ?_, h.numbered, h.enabled⟩
  · rw [h.parked] at hp
    cases hp
  · unfold isPaged at hu
    rw [h.isRunning] at hu
    cases hu

namespace Event

/-- **No parked transfer is stranded.** After any events, from any context that was set up and
whatever the transports refuse, the UE of a parked transfer is known and idle, its T3513 runs and
its paging message is kept. And whenever T3513 runs for a UE, its paging message is kept, so that an
expiry with retries left always finds a message to repeat. -/
theorem parked_attended {config : Config} {c : Context} (provisioned : Provisioned config c)
    (metrics : Metrics) (links : Links) (es : List Event) (u : Nat) :
    let n := run es { context := c, metrics, links }
    (∀ p, n.context.parked.get? u = some p → ∃ x, n.context.ues.get? u = some x ∧
      n.context.connection u = .idle ∧ n.context.timers.isRunning .t3513 u = true ∧
        x.pagingMessage.isSome = true) ∧
    (n.context.timers.isRunning .t3513 u = true → ∃ x, n.context.ues.get? u = some x ∧
      x.pagingMessage.isSome = true) ∧
    ∀ g i timers, n.context.timers.expire .t3513 u g = (some (.retry i), timers) →
      ∃ x pdu, n.context.ues.get? u = some x ∧ x.pagingMessage = some pdu := by
  intro n
  have h : n.context.Attended :=
    run_keeps (P := fun n => n.context.Attended) (fun _ _ _ step => step.attended) es
      provisioned.fresh.attended
  have paged : ∀ v, n.context.timers.isRunning .t3513 v = true →
      ∃ x pdu, n.context.ues.get? v = some x ∧ x.pagingMessage = some pdu := by
    intro v running
    obtain ⟨pdu, kept⟩ := h.paged v running
    obtain ⟨x, hx, message⟩ := Option.map_eq_some_iff.1 kept
    exact ⟨x, pdu, hx, message⟩
  refine ⟨fun p hp => ?_, fun running => ?_, fun g i timers expiry => ?_⟩
  · obtain ⟨idle, running⟩ := h.parked u p hp
    obtain ⟨x, pdu, hx, message⟩ := paged u running
    refine ⟨x, hx, ?_, running, by rw [message]; rfl⟩
    unfold Context.connection
    rw [idle]
    rfl
  · obtain ⟨x, pdu, hx, message⟩ := paged u running
    exact ⟨x, hx, by rw [message]; rfl⟩
  · exact paged u (Timers.isRunning_of_expire expiry)

set_option maxRecDepth 4000 in
/-- The hypothesis is satisfiable: a setup for an idle UE is parked, and attended to. -/
theorem parked_attended_setUp :
    let n := run [.request .setUp] { context := .oneSession }
    n.context.parked.contains 1 = true ∧
    (∀ p, n.context.parked.get? 1 = some p → ∃ x, n.context.ues.get? 1 = some x ∧
      n.context.connection 1 = .idle ∧ n.context.timers.isRunning .t3513 1 = true ∧
        x.pagingMessage.isSome = true) ∧
    (n.context.timers.isRunning .t3513 1 = true → ∃ x, n.context.ues.get? 1 = some x ∧
      x.pagingMessage.isSome = true) ∧
    ∀ g i timers, n.context.timers.expire .t3513 1 g = (some (.retry i), timers) →
      ∃ x pdu, n.context.ues.get? 1 = some x ∧ x.pagingMessage = some pdu :=
  ⟨by decide, parked_attended provisioned_oneSession {} {} [.request .setUp] 1⟩

end Event
end Amf
