import Amf.Proofs.Handover
import Amf.Proofs.Isolation

/-!
# Messages that are not held too long

A session holds a command back until its UE is established, and a setup request until it is
confirmed. The event that brings this about lets the message go, so nothing is held back any longer
than that (`Operation.run_timely`), whatever the transports accept.

| what happens | commands held back | setup requests held back |
| --- | --- | --- |
| a transfer comes before the UE is established | one more | as before |
| a setup comes before the session is confirmed | as before | one more |
| a setup is answered, and the UE is established | those of the UE leave | as before |
| a session is confirmed | as before | that of the session leaves |
| the UE gets a new leg, or gives its leg up | as before, and the UE is not established | as before |
| another AMF takes the UE over | those of the UE are dropped | those of the UE are dropped |

A UE becomes established by the answer on its own leg alone, since no two UEs use the same leg
(`Context.Unshared`).
-/

namespace Amf

open Procedure

/-! ## Legs of different UEs -/

namespace Context

variable {c c' : Context} {u v k id : Nat}

/-- No two UEs use the same leg. -/
def Unshared (c : Context) : Prop :=
  ∀ u v k, (c.ues.get? u).bind (·.leg) = some k → (c.ues.get? v).bind (·.leg) = some k → u = v

/-- A UE that uses a leg has used it before. -/
theorem Unshared.of_uses (h : c.Unshared)
    (uses : ∀ u k, (c'.ues.get? u).bind (·.leg) = some k → (c.ues.get? u).bind (·.leg) = some k) :
    c'.Unshared :=
  fun u v k hu hv => h u v k (uses u k hu) (uses v k hv)

theorem Paired.unshared (h : c.Paired) : c.Unshared :=
  fun u v k hu hv => Option.some.inj (((h u k).1 hu).symm.trans ((h v k).1 hv))

end Context

/-- **Only a UE that connects uses a leg anew**, and that leg is new. -/
theorem Step.unshared {a : Act} {n n' : Node} (step : Step a n n') (numbered : n.context.Numbered)
    (h : n.context.Unshared) : n'.context.Unshared := by
  cases changes : a.changesLegs with
  | false => exact h.of_uses fun _ _ => Context.uses_of_within (step.drops changes).ues
  | true =>
    cases step with
    | setUp | holdSetup => exact h
    | connect _ room =>
      obtain ⟨-, new, -⟩ := Context.addLeg_eq_some_iff.1 room
      intro v w j hv hw
      obtain ⟨rfl, is⟩ | before := Node.uses_connect room hv <;>
        obtain ⟨rfl, is'⟩ | before' := Node.uses_connect room hw
      · rfl
      · have below := numbered.lt_of_uses before'
        omega
      · have below := numbered.lt_of_uses before
        omega
      · exact h v w j before before'
    | _ => cases changes

/-! ## UEs that become established -/

/-- The leg is answered exactly if the other one is. -/
def Leg.SameAnswer (l l' : Leg) : Prop := l'.setupAnswered = l.setupAnswered

theorem Leg.allows_sameAnswer : Leg.Allows Leg.SameAnswer :=
  ⟨fun _ => rfl, fun _ _ _ first second => second.trans first, fun _ _ _ => rfl⟩

theorem Ue.fixed_securityValid : Ue.Fixed Ue.securityValid := by constructor <;> intros <;> rfl

namespace Context

variable {c c' c'' : Context} {u v k id : Nat} {l : Leg}

/-- No UE becomes established. -/
def Recedes (c c' : Context) : Prop := ∀ v, c'.established v = true → c.established v = true

theorem Recedes.refl : c.Recedes c := fun _ => id

theorem Recedes.trans (first : c.Recedes c') (second : c'.Recedes c'') : c.Recedes c'' :=
  fun v h => first v (second v h)

theorem Recedes.not_established (h : c.Recedes c') (unready : c.established v = false) :
    c'.established v = false := by
  rw [← Bool.not_eq_true] at unready ⊢
  exact fun ready => unready (h v ready)

/-- UEs keep their keys, and give their legs up at most; legs are not answered. -/
theorem Recedes.of_within
    (valid : ∀ v, (c'.ues.get? v).map (·.securityValid) = (c.ues.get? v).map (·.securityValid))
    (ues : Table.Within Ue.KeepsLeg c.ues c'.ues)
    (legs : Table.Within Leg.SameAnswer c.legs c'.legs) : c.Recedes c' := by
  intro v ready
  obtain ⟨keys, k, l, leg, answered⟩ := established_iff.1 ready
  obtain ⟨uses, there⟩ := legOf?_eq_some_iff.1 leg
  obtain ⟨l₀, before, same⟩ := legs k l there
  exact established_iff.2 ⟨(valid v).symm.trans keys, k, l₀,
    legOf?_eq_some_iff.2 ⟨uses_of_within ues uses, before⟩, same.symm.trans answered⟩

end Context

namespace Node

variable {n : Node} {c : Context} {u v k : Nat} {gnb ran : UInt64} {rat : RatType}

/-- A UE that is established on another leg than the new one was so before. -/
theorem exists_of_established_connect (room : n.context.addLeg gnb ran = some (k, c))
    (ready : (n.connect c u k rat).context.established v = true) :
    n.context.established v = true ∧ ∃ j l, j ≠ k ∧
      (n.connect c u k rat).context.legOf? v = some (j, l) := by
  obtain ⟨keys, j, l, leg, answered⟩ := Context.established_iff.1 ready
  obtain ⟨uses, there⟩ := Context.legOf?_eq_some_iff.1 leg
  obtain ⟨-, same⟩ | ⟨other, l₀, before, same⟩ := within_connect Leg.allows_sameAnswer room there
  · have unanswered : l.setupAnswered = false := same
    rw [unanswered] at answered
    cases answered
  · obtain ⟨-, is⟩ | uses := uses_connect room uses
    · exact absurd is other
    · rw [map_ues_connect room Ue.fixed_securityValid.leg fun x =>
        Ue.fixed_securityValid.paging x none] at keys
      exact ⟨Context.established_iff.2 ⟨keys, j, l₀, Context.legOf?_eq_some_iff.2 ⟨uses, before⟩,
        same.symm.trans answered⟩, j, l, other, leg⟩

/-- A UE that connects is not established on its new leg. -/
theorem unestablished_connect (h : n.context.Numbered) (known : n.context.ues.contains u = true)
    (room : n.context.addLeg gnb ran = some (k, c)) :
    (n.connect c u k rat).context.established u = false := by
  rw [← Bool.not_eq_true]
  intro ready
  obtain ⟨-, j, l, other, leg⟩ := exists_of_established_connect room ready
  obtain ⟨l', new, -⟩ : ∃ l', (n.connect c u k rat).context.legOf? u = some (k, l') ∧ _ :=
    legOf?_connect h known room
  rw [new] at leg
  cases leg
  exact other rfl

end Node

/-- **Only a setup that is answered establishes a UE.** -/
theorem Step.recedes {a : Act} {n n' : Node} (step : Step a n n')
    (unanswered : ∀ u, a ≠ .answerSetup u) : n.context.Recedes n'.context := by
  have valid := step.map_ues Ue.fixed_securityValid
  have allows := Leg.allows_sameAnswer
  by_cases changes : a.changesLegs = true
  · cases step with
    | setUp | holdSetup =>
      exact .of_within valid (.refl Ue.KeepsLeg.refl) (Table.within_modify allows.self fun _ => rfl)
    | connect _ room => exact fun v ready => (Node.exists_of_established_connect room ready).1
    | _ => cases changes
  · have ues := (step.drops (Bool.eq_false_iff.2 changes)).ues
    refine .of_within valid ues ?_
    cases step with
    | setUp | holdSetup | connect => exact absurd rfl changes
    | @answerSetup _ u => exact absurd rfl (unanswered u)
    | remove session =>
      rw [Node.context_uncount, Node.context_change, Context.removeSession_of_some session]
      exact .refl allows.self
    | repeatNothing _ lost => obtain ⟨-, rfl⟩ | ⟨-, rfl⟩ := lost <;> exact .refl allows.self
    | giveUp =>
      rw [Node.context_offerAll]
      exact .refl allows.self
    | disconnect =>
      exact .trans allows.compose (Context.within_deassociate allows) (Context.within_removeLeg allows)
    | detach =>
      rw [Node.context_change, Node.context_uncountLeg, Context.detach_eq]
      exact Context.within_withoutLeg allows
    | _ => exact .refl allows.self

/-! ## Sessions that hold nothing too long -/

namespace Context

variable {c c' : Context} {u v k id : Nat}

/-- **Nothing is held back too long**: no command once the UE is established, and no setup request
once the session is confirmed. -/
structure Timely (c : Context) : Prop where
  command : ∀ id s, c.sessions.get? id = some s → c.established s.ue = true → s.heldCommand = none
  setup : ∀ id s, c.sessions.get? id = some s → s.confirmed = true → s.heldSetup = none

end Context

/-- A session of the same UE holds nothing back that is overdue, unless the former one does. -/
structure Session.Eases (s t : Session) : Prop where
  ue : t.ue = s.ue
  command : s.heldCommand = none → t.heldCommand = none
  setup : (s.confirmed = true → s.heldSetup = none) → t.confirmed = true → t.heldSetup = none

namespace Session.Eases

theorem refl (s : Session) : s.Eases s := ⟨rfl, id, id⟩

theorem trans (s t r : Session) (first : s.Eases t) (second : t.Eases r) : s.Eases r :=
  ⟨second.ue.trans first.ue, fun h => second.command (first.command h),
    fun h => second.setup (first.setup h)⟩

end Session.Eases

namespace Context

variable {c c' : Context} {id : Nat} {f g : Session → Session}

/-- What is left is in time if no UE becomes established. -/
theorem Timely.of_within (h : c.Timely) (recedes : c.Recedes c')
    (within : Table.Within Session.Eases c.sessions c'.sessions) : c'.Timely := by
  refine ⟨fun id t there ready => ?_, fun id t there => ?_⟩
  · obtain ⟨s, before, eases⟩ := within id t there
    rw [eases.ue] at ready
    exact eases.command (h.command id s before (recedes _ ready))
  · obtain ⟨s, before, eases⟩ := within id t there
    exact eases.setup (h.setup id s before)

theorem Timely.of_sessions (h : c.Timely) (recedes : c.Recedes c')
    (sessions : c'.sessions = c.sessions) : c'.Timely :=
  h.of_within recedes (sessions ▸ .refl Session.Eases.refl)

/-- A session changes so that it holds nothing too long. -/
theorem Timely.modifySession (h : c.Timely) (same : ∀ s, (f s).ue = s.ue)
    (command : ∀ s, c.sessions.get? id = some s → c.established s.ue = true →
      (f s).heldCommand = none)
    (setup : ∀ s, c.sessions.get? id = some s → (f s).confirmed = true → (f s).heldSetup = none) :
    (c.modifySession id f).Timely := by
  refine ⟨fun j t there ready => ?_, fun j t there => ?_⟩ <;>
    change (c.sessions.modify id f).get? j = some t at there <;> rw [Table.get?_modify] at there <;>
    split at there
  · rename_i is
    obtain ⟨s, before, rfl⟩ := Option.map_eq_some_iff.1 there
    rw [same] at ready
    exact command s (is ▸ before) ready
  · exact h.command j t there ready
  · rename_i is
    obtain ⟨s, before, rfl⟩ := Option.map_eq_some_iff.1 there
    exact setup s (is ▸ before)
  · exact h.setup j t there

theorem modifySession_modifySession :
    (c.modifySession id f).modifySession id g = c.modifySession id (g ∘ f) :=
  congrArg (fun sessions => { c with sessions }) Table.modify_modify

end Context

/-- **A step holds nothing too long**, if it answers no setup and holds no command back for a UE that
is established. -/
theorem Step.timely {a : Act} {n n' : Node} (step : Step a n n') (unready : a.Unready n.context)
    (unanswered : ∀ u, a ≠ .answerSetup u) (h : n.context.Timely) : n'.context.Timely := by
  have recedes := step.recedes unanswered
  cases step with
  | answerSetup => exact absurd rfl (unanswered _)
  | @holdSetup _ id k s _ _ _ _ session _ _ unconfirmed =>
    have marked : (n.context.markSetup k).Timely := h.of_sessions recedes rfl
    refine Context.Timely.modifySession marked (fun _ => rfl) (marked.command id) fun t there done => ?_
    have confirmed : s.confirmed = true := by
      rw [Option.some.inj (session.symm.trans there)]
      exact done
    rw [unconfirmed] at confirmed
    cases confirmed
  | @confirm _ id _ _ _ session held =>
    refine Context.Timely.modifySession h (fun _ => rfl) (h.command id) fun t there _ => ?_
    rw [← Option.some.inj (session.symm.trans there)]
    exact held
  | @confirmIdle _ id | @confirmHeld _ id =>
    -- Between the two changes the session is confirmed and still holds its request.
    show Context.Timely ((n.context.modifySession id _).modifySession id _)
    rw [Context.modifySession_modifySession]
    exact h.modifySession (fun _ => rfl) (h.command id) fun _ _ _ => rfl
  | @holdCommand _ u id =>
    refine Context.Timely.modifySession h (fun _ => rfl) (fun s there ready => ?_) (h.setup id)
    rw [unready s there] at ready
    cases ready
  | @dropCommand _ id =>
    exact Context.Timely.modifySession h (fun _ => rfl) (fun _ _ _ => rfl) (h.setup id)
  | @record _ _ _ i =>
    refine h.of_within recedes (Table.within_modify .refl fun s => ?_)
    cases i <;> exact ⟨rfl, id, id⟩
  | remove =>
    refine h.of_within recedes ?_
    rw [Node.context_uncount, Node.context_change, Context.sessions_removeSession]
    exact Table.within_erase .refl
  | detach =>
    refine h.of_within recedes ?_
    rw [Node.context_change, Node.context_uncountLeg, Context.detach_eq]
    exact Context.within_letGoAll .refl .trans (fun _ => ⟨rfl, fun _ => rfl, fun _ _ => rfl⟩) _ _
  | repeatNothing _ lost => obtain ⟨-, rfl⟩ | ⟨-, rfl⟩ := lost <;> exact h.of_sessions recedes rfl
  | giveUp =>
    rw [Node.context_offerAll] at recedes ⊢
    exact h.of_sessions recedes rfl
  | connect _ room => exact h.of_sessions recedes (Node.same_connect room).sessions
  | disconnect => exact h.of_sessions recedes Context.same_disconnect.sessions
  | _ => exact h.of_sessions recedes rfl

/-- An act that holds no command back for an established UE does not do so later either, while no UE
becomes established and no session is added. -/
theorem Act.Unready.of_recedes {a : Act} {c c' : Context} (h : a.Unready c) (recedes : c.Recedes c')
    (fewer : ∀ id key, c'.sessionKey id = some key → c.sessionKey id = some key) : a.Unready c' := by
  cases a with
  | holdCommand id =>
    intro t there
    obtain ⟨s, before, same, -⟩ :=
      Context.exists_of_sessionKey (fewer id _ (Context.sessionKey_of_some there))
    have unready := h s before
    rw [same] at unready
    exact recedes.not_established unready
  | _ => trivial

/-- **A chain of such acts holds nothing too long**, since no UE becomes established in it. -/
theorem Chain.timely {A : Act → Prop} {n n' : Node} (chain : Chain A n n')
    (unready : ∀ a, A a → a.Unready n.context) (unanswered : ∀ a, A a → ∀ u, a ≠ .answerSetup u)
    (h : n.context.Timely) : n'.context.Timely := by
  have kept := chain.keeps_of_fewer (P := fun m => m.context.Timely ∧ n.context.Recedes m.context)
    (fun a m m' may fewer step ⟨timely, recedes⟩ =>
      ⟨step.timely ((unready a may).of_recedes recedes fewer) (unanswered a may) timely,
        recedes.trans (step.recedes (unanswered a may))⟩)
    ⟨h, .refl⟩
  exact kept.1

/-! ## Commands that leave -/

/-- The context with the first setup of a leg answered. -/
def Context.markAnswered (c : Context) (leg : Nat) : Context :=
  c.modifyLeg leg fun l => { l with setupAnswered := true }

/-- The table without the commands that sessions hold back. -/
def Context.withoutCommands (sessions : Table Session) (ids : List Nat) : Table Session :=
  ids.foldl (fun t id => t.modify id fun s => { s with heldCommand := none }) sessions

theorem Context.get?_withoutCommands {j : Nat} : ∀ (ids : List Nat) (t : Table Session),
    (withoutCommands t ids).get? j =
      (t.get? j).map fun s => if j ∈ ids then { s with heldCommand := none } else s
  | [], t => by
    simp only [List.not_mem_nil, if_false, Option.map_id']
    rfl
  | id :: ids, t => by
    refine (get?_withoutCommands ids _).trans ?_
    rw [Table.get?_modify]
    by_cases is : j = id
    · rw [if_pos is, Option.map_map]
      refine congrArg (fun f => (t.get? j).map f) (funext fun s => ?_)
      simp only [is, List.mem_cons_self, if_true, Function.comp_apply]
      split <;> rfl
    · rw [if_neg is]
      simp only [List.mem_cons, is, false_or]

namespace Event

open Context

theorem context_releaseCommands : ∀ (ids : List Nat) (n : Node),
    ((releaseCommands ids).exec n).2.context =
      { n.context with sessions := withoutCommands n.context.sessions ids }
  | [], _ => rfl
  | id :: ids, n => by
    refine (context_releaseCommands ids ((Delivery.releaseCommand id).exec n).2).trans ?_
    rw [Delivery.context_releaseCommand]
    rfl

/-- The first setup on a leg is answered, and the commands of its UE are gone if that establishes the
UE. -/
theorem context_setupAnswered {n : Node} {u k : Nat} {l : Leg} {x : Ue}
    (known : n.context.ues.get? u = some x) (leg : n.context.legOf? u = some (k, l)) :
    ((setupAnswered u).handle n).2.context =
      if (n.context.markAnswered k).established u then
        { n.context.markAnswered k with
          sessions := withoutCommands n.context.sessions x.sessions }
      else n.context.markAnswered k := by
  show ((establish u).exec n).2.context = _
  unfold establish
  rw [exec_context_bind, leg]
  simp only [exec_change_bind, exec_context_bind]
  split
  · rename_i ready
    have ready : (n.context.markAnswered k).established u = true := ready
    rw [if_pos ready]
    split
    · rename_i unknown
      have unknown : n.context.ues.get? u = none := unknown
      rw [known] at unknown
      cases unknown
    · rename_i y there
      have there : n.context.ues.get? u = some y := there
      cases known.symm.trans there
      exact context_releaseCommands x.sessions _
  · rename_i unready
    have unready : ¬(n.context.markAnswered k).established u = true := unready
    rw [if_neg unready]
    rfl

theorem handle_setupAnswered_of_none {n : Node} {u : Nat} (idle : n.context.legOf? u = none) :
    ((setupAnswered u).handle n).2 = n := by
  show ((establish u).exec n).2 = n
  unfold establish
  rw [exec_context_bind, idle]
  rfl

end Event

namespace Context

variable {c : Context} {u v k : Nat} {l : Leg}

/-- An answer on the leg of a UE establishes no other UE. -/
theorem established_of_markAnswered (unshared : c.Unshared) (leg : c.legOf? u = some (k, l))
    (other : v ≠ u) (ready : (c.markAnswered k).established v = true) : c.established v = true := by
  obtain ⟨keys, j, m, leg', answered⟩ := established_iff.1 ready
  obtain ⟨uses', there⟩ := legOf?_eq_some_iff.1 leg'
  have uses : (c.ues.get? v).bind (·.leg) = some j := uses'
  have apart : j ≠ k := by
    rintro rfl
    exact other (unshared v u j uses (legOf?_eq_some_iff.1 leg).1)
  have before : c.legs.get? j = some m := (Table.get?_modify_of_ne apart).symm.trans there
  exact established_iff.2 ⟨keys, j, m, legOf?_eq_some_iff.2 ⟨uses, before⟩, answered⟩

/-- An answer that does not establish the UE leaves everything in time. -/
theorem Timely.markAnswered (h : c.Timely) (unshared : c.Unshared) (leg : c.legOf? u = some (k, l))
    (unready : (c.markAnswered k).established u = false) : (c.markAnswered k).Timely := by
  refine h.of_sessions (fun v ready => ?_) rfl
  refine established_of_markAnswered unshared leg ?_ ready
  rintro rfl
  rw [unready] at ready
  cases ready

/-- Once the commands of the UE are gone, the answer leaves everything in time. -/
theorem Timely.answered {x : Ue} (h : c.Timely) (unshared : c.Unshared) (listed : c.Listed)
    (known : c.ues.get? u = some x) (leg : c.legOf? u = some (k, l)) :
    Timely { c.markAnswered k with sessions := withoutCommands c.sessions x.sessions } := by
  refine ⟨fun id t there ready => ?_, fun id t there confirmed => ?_⟩ <;>
    change (withoutCommands c.sessions x.sessions).get? id = some t at there <;>
    rw [get?_withoutCommands] at there <;>
    obtain ⟨s, before, rfl⟩ := Option.map_eq_some_iff.1 there
  · split
    · rfl
    · rename_i unlisted
      rw [if_neg unlisted] at ready
      -- A session of the UE would be listed.
      have other : s.ue ≠ u := by
        rintro rfl
        obtain ⟨ids, list, mem⟩ := listed.owner id s.ue s.psi (sessionKey_of_some before)
        rw [sessionIds_of_some known] at list
        cases list
        exact unlisted mem
      exact h.command id s before (established_of_markAnswered unshared leg other ready)
  · split at confirmed
    · rw [if_pos ‹_›]
      exact h.setup id s before confirmed
    · rw [if_neg ‹_›]
      exact h.setup id s before confirmed

end Context

/-! ## Events -/

namespace Event

variable {n : Node} {e : Event} {a : Act}

/-- **Once a UE is established, its sessions hold no commands back**, and the answer on its leg changes
nothing for other UEs. -/
theorem setupAnswered_timely (listed : n.context.Listed) (unshared : n.context.Unshared)
    (h : n.context.Timely) (u : Nat) : ((setupAnswered u).handle n).2.context.Timely := by
  cases leg : n.context.legOf? u with
  | none =>
    rw [handle_setupAnswered_of_none leg]
    exact h
  | some has =>
    obtain ⟨x, known, -⟩ := Option.bind_eq_some_iff.1 (Context.legOf?_eq_some_iff.1 leg).1
    rw [context_setupAnswered known leg]
    split
    · exact h.answered unshared listed known leg
    · rename_i unready
      exact h.markAnswered unshared leg (Bool.eq_false_iff.2 unready)

/-- **A UE that connects is not established**, so what is delivered to it may be held back. -/
theorem connected_timely {u : Nat} {gnb ran : UInt64} {rat : RatType} (coherent : n.context.Coherent)
    (numbered : n.context.Numbered) (h : n.context.Timely) :
    ((connected u gnb ran rat).handle n).2.context.Timely := by
  obtain same | ⟨m, step, chain⟩ := connected_chain u gnb ran rat n
  · rw [same]
    exact h
  · have unready : m.context.established u = false := by
      cases step with
      | connect known room => exact Node.unestablished_connect numbered known room
    refine chain.timely (fun a ⟨does, _⟩ => ?_) (fun a ⟨does, _⟩ v is => ?_)
      (step.timely trivial nofun h)
    · cases a with
      | holdCommand id =>
        intro s there
        have about : n.context.Holds u id := does.about (fun ⟨_, is, _⟩ => (nomatch is)) u rfl
        have key := Context.sessionKey_of_within step.sessions_within (Context.sessionKey_of_some there)
        rw [coherent.rostered.listed.owns coherent.owned about s.ue s.psi key]
        exact unready
      | _ => trivial
    · subst is
      cases does.may

/-- **An event leaves everything in time.** -/
theorem handle_timely (coherent : n.context.Coherent) (numbered : n.context.Numbered)
    (unshared : n.context.Unshared) (h : n.context.Timely) : (e.handle n).2.context.Timely := by
  have others : (∀ u, e ≠ setupAnswered u) → (∀ u, ¬e.Connects u) →
      (e.handle n).2.context.Timely := by
    intro unanswered unconnected
    refine (does_course e n).chain.timely (fun a does => ?_) (fun a does u is => ?_) h
    · cases a with
      | holdCommand id =>
        obtain request | ⟨u, connects⟩ := does.may
        · exact does.unready request
        · exact absurd connects (unconnected u)
      | _ => trivial
    · subst is
      exact unanswered u does.may
  cases e with
  | connected u gnb ran rat => exact connected_timely coherent numbered h
  | setupAnswered u => exact setupAnswered_timely coherent.rostered.listed unshared h u
  | _ => exact others nofun fun u ⟨_, _, _, is⟩ => (nomatch is)

end Event

/-! ## Runs -/

namespace Context

variable {c c' : Context} {u v : Nat} {x y : Ue}

/-- Stores and legs are in order, and nothing is held back too long. -/
structure Prompt (c : Context) : Prop where
  coherent : c.Coherent
  numbered : c.Numbered
  unshared : c.Unshared
  timely : c.Timely

/-- No session holds anything back. -/
def Vacant (c : Context) : Prop :=
  ∀ id s, c.sessions.get? id = some s → s.heldSetup = none ∧ s.heldCommand = none

theorem Vacant.timely (h : c.Vacant) : c.Timely :=
  ⟨fun id s there _ => (h id s there).2, fun id s there _ => (h id s there).1⟩

/-- A UE whose record changes is as established as before, if it keeps its keys and its leg. -/
theorem recedes_insert (known : c.ues.get? u = some x) (ues : c'.ues = c.ues.insert u y)
    (legs : c'.legs = c.legs) (valid : y.securityValid = x.securityValid) (leg : y.leg = x.leg) :
    c.Recedes c' := by
  intro v ready
  have same : c'.established v = c.established v :=
    established_congr (ues ▸ Table.map_get?_insert known valid)
      (by rw [legOf?_congr (ues ▸ Table.map_get?_insert known leg) legs])
  rw [← same]
  exact ready

end Context

/-- A UE that gets a name is as established as before. -/
theorem Context.Timely.of_names {c c' : Context} (names : c.Names c') (h : c.Timely) : c'.Timely := by
  cases names with
  | nothing => exact h
  | name known => exact h.of_sessions (recedes_insert known rfl rfl rfl rfl) rfl

/-- In a context that was set up no session holds anything back. -/
theorem Provisioned.vacant {config : Config} {c : Context} (h : Provisioned config c) : c.Vacant := by
  induction h with
  | start => exact fun id s there => (nomatch there)
  | addUe _ added ih =>
    obtain ⟨-, rfl⟩ := Context.eq_of_addUe added
    exact ih
  | setSupi _ u supi ih =>
    unfold Context.setSupi
    split <;> exact ih
  | setGuti _ u guti ih =>
    unfold Context.setGuti
    split <;> exact ih
  | @addSession c _ _ _ _ _ added ih =>
    obtain ⟨-, -, x, -, rfl⟩ := Context.eq_of_addSession added
    intro id s there
    change (c.sessions.insert _ _).get? id = some s at there
    rw [Table.get?_insert] at there
    split at there
    · cases there
      exact ⟨rfl, rfl⟩
    · exact ih id s there
  | describeUe _ _ _ ih => exact ih
  | @describeSession c _ id f describes ih =>
    intro j t there
    obtain ⟨s, before, same⟩ := Table.within_modify
      (R := fun s t => t.heldSetup = s.heldSetup ∧ t.heldCommand = s.heldCommand)
      (fun _ => ⟨rfl, rfl⟩) (fun s => (describes s).2) j t there
    rw [same.1, same.2]
    exact ih j s before

namespace Operation

open Context

variable {n : Node}

/-- What is added holds nothing back. -/
theorem timely_of_adds (o : Operation) (adds : o.adds = true) (h : n.context.Timely) :
    (o.apply n).context.Timely := by
  cases o with
  | addUe =>
    refine of_addUe (P := Timely) h (h.of_sessions (fun v ready => ?_) rfl)
    -- The new UE has no keys.
    obtain ⟨keys, k, l, leg, answered⟩ := established_iff.1 ready
    obtain ⟨uses, there⟩ := legOf?_eq_some_iff.1 leg
    change ((n.context.ues.insert _ _).get? v).map _ = _ at keys
    change ((n.context.ues.insert _ _).get? v).bind _ = _ at uses
    rw [Table.get?_insert] at keys uses
    split at keys
    · cases keys
    · rename_i other
      rw [if_neg other] at uses
      exact established_iff.2 ⟨keys, k, l, legOf?_eq_some_iff.2 ⟨uses, there⟩, answered⟩
  | setSupi u supi => exact h.of_names names_setSupi
  | setGuti u guti => exact h.of_names names_setGuti
  | addSession u psi =>
    refine of_addSession (P := Timely) h fun x known => ?_
    have recedes : n.context.Recedes { n.context with
        ues := n.context.ues.insert u { x with sessions := x.sessions ++ [n.context.nextSession] } } :=
      recedes_insert known rfl rfl rfl rfl
    refine ⟨fun id s there ready => ?_, fun id s there done => ?_⟩ <;>
      change (n.context.sessions.insert _ { psi, ue := u }).get? id = some s at there <;>
      rw [Table.get?_insert] at there <;> split at there
    · cases there
      rfl
    · exact h.command id s there (recedes _ ready)
    · cases there
      rfl
    · exact h.setup id s there done
  | _ => cases adds

/-- **Events, and what is added beside them, leave everything in time.** -/
theorem prompt (o : Operation) (regular : o.adds = true ∨ ∃ e, o = .handle e) (h : n.context.Prompt) :
    (o.apply n).context.Prompt := by
  have coherent := o.coherent h.coherent
  obtain adds | ⟨e, rfl⟩ := regular
  · have same := o.sameLinks adds h.coherent.registered
    exact ⟨coherent, same.numbered h.numbered,
      h.unshared.of_uses fun u k uses => (same.uses u).symm.trans uses, o.timely_of_adds adds h.timely⟩
  · have legs : (e.handle n).2.context.Numbered ∧ (e.handle n).2.context.Unshared :=
      (e.handle_chain n).keeps (P := fun m => m.context.Numbered ∧ m.context.Unshared)
        (fun _ _ _ _ step h => ⟨step.numbered h.1, step.unshared h.1 h.2⟩) ⟨h.numbered, h.unshared⟩
    exact ⟨coherent, legs.1, legs.2,
      Event.handle_timely h.coherent h.numbered h.unshared h.timely⟩

theorem run_prompt (h : n.context.Prompt) (os : List Operation)
    (regular : ∀ o ∈ os, o.adds = true ∨ ∃ e, o = .handle e) : (run os n).context.Prompt :=
  run_keeps_of_forall (P := fun n => n.context.Prompt) (fun o _ => o.prompt) regular h

/-- **No message is held past the event that should flush it.** From a context in which no session
holds anything back, events are dealt with in any order, and UEs and sessions added beside them,
whatever the transports accept. Then no session of an established UE holds a command back, and no
session that is confirmed a setup request.

That the stores are in order and no two UEs use the same leg is no condition on what has happened
before: it is so in a context that was set up (`Provisioned.coherent`, `Paired.unshared`), and stays so
(`Operation.prompt`). -/
theorem run_timely (coherent : n.context.Coherent) (numbered : n.context.Numbered)
    (unshared : n.context.Unshared) (vacant : n.context.Vacant) (os : List Operation)
    (regular : ∀ o ∈ os, o.adds = true ∨ ∃ e, o = .handle e) : (run os n).context.Timely :=
  (run_prompt ⟨coherent, numbered, unshared, vacant.timely⟩ os regular).timely

set_option maxRecDepth 4000 in
/-- The hypotheses are satisfiable: a UE with keys connects and is established, and a setup request
waits for its session to be confirmed, while the radio network refuses every message. -/
theorem run_timely_refused :
    let c := Context.oneSession.modifyUe 1 fun x =>
      { x with securityContext := true, keySet := { ksi := 0 } }
    let n : Node := { context := c, links := { radioAccepts := fun _ => false } }
    let os : List Operation := [.handle (.connected 1 3 7 .nr), .addSession 1 6,
      .handle (.request .setUp), .handle (.setupAnswered 1), .handle (.sessionConfirmed 1 5 "" "sm")]
    (c.Coherent ∧ c.Numbered ∧ c.Unshared ∧ c.Vacant ∧
        ∀ o ∈ os, o.adds = true ∨ ∃ e, o = .handle e) ∧
      (run os n).context.Timely ∧ (run os n).context.established 1 = true := by
  intro c n os
  have setUp : Provisioned default c :=
    .describeUe provisioned_oneSession 1 fun x => ⟨rfl, rfl, rfl, rfl, rfl⟩
  have unshared : c.Unshared := setUp.fresh.paired.unshared
  have regular : ∀ o ∈ os, o.adds = true ∨ ∃ e, o = .handle e := by
    simp [os, adds]
  exact ⟨⟨setUp.coherent, setUp.fresh.numbered, unshared, setUp.vacant, regular⟩,
    run_timely (n := n) setUp.coherent setUp.fresh.numbered unshared setUp.vacant os regular,
    by decide⟩

end Operation
end Amf
