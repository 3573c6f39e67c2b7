import Amf.Proofs.Course
import Amf.Proofs.Provisioned

/-!
# The store of parked transfers

What becomes of the parked transfers and of the sessions in each act (`Act.Alters`), and so in each
event (`Event.alters`): most leave both alone, and no event has two acts that do not. A transfer
that is parked for a UE is one for a session of that UE (`Context.Owned`), so it goes when its
session goes.

| act | parked transfers | sessions |
| --- | --- | --- |
| `park` | the one for the UE is put | as before |
| `giveUp`, `connect`, `detach` | the one for the UE is taken | as before |
| `remove` | the one for the session is taken | one less |
| any other | as before | as before |
-/

namespace Amf

open Context

namespace Context

variable {c c' c'' : Context} {u v id : Nat} {psi : UInt8} {p : Parked}

/-- Parked transfers and sessions are as before. -/
structure SameStore (c c' : Context) : Prop where
  parked : c'.parked = c.parked
  sessions : c.SameSessions c'

theorem SameStore.refl : SameStore c c := ⟨rfl, .of_eq rfl rfl⟩

theorem SameStore.trans (first : SameStore c c') (second : SameStore c' c'') : SameStore c c'' :=
  ⟨second.parked.trans first.parked, first.sessions.trans second.sessions⟩

/-- What is parked for a UE is for a session of the UE. -/
def Owned (c : Context) : Prop :=
  ∀ u p, c.parked.get? u = some p → c.sessionKey p.session = some (u, p.psi)

/-- A transfer goes with its session, and with no other. -/
theorem Owned.get?_unpark (h : c.Owned) (key : c.sessionKey id = some (u, psi))
    (parked : c.parked.get? v = some p) :
    (unpark c.parked u id).get? v = if p.session = id then none else some p := by
  have own := h v p parked
  unfold unpark
  by_cases is : p.session = id
  · rw [is, key] at own
    cases own
    rw [if_pos is, parked, Option.map_some, is, if_pos rfl, Table.get?_erase_self]
  · rw [if_neg is]
    split
    · rename_i taken
      have other : v ≠ u := by
        rintro rfl
        rw [parked] at taken
        exact is (Option.some.inj taken)
      rw [Table.get?_erase_of_ne other, parked]
    · exact parked

end Context

/-- What an act makes of the parked transfers and of the sessions. -/
def Act.Alters : Act → Context → Context → Prop
  | .park u p, c, c' =>
    c'.parked = c.parked.insert u p ∧ c.sessionKey p.session = some (u, p.psi) ∧ c.SameSessions c'
  | .giveUp u, c, c' | .connect u, c, c' | .detach u, c, c' =>
    c'.parked = c.parked.erase u ∧ c.SameSessions c'
  | .remove id, c, c' => ∃ u psi, c.sessionKey id = some (u, psi) ∧ c'.parked = unpark c.parked u id ∧
      ∀ j, c'.sessionKey j = if j = id then none else c.sessionKey j
  | _, c, c' => c.SameStore c'

variable {a : Act} {A : Act → Prop} {n n' : Node}

namespace Act.Alters

variable {c₁ c₂ c₃ c₄ : Context}

theorem of_quiet (quiet : a.quiet = true) (h : a.Alters c₁ c₂) : c₁.SameStore c₂ := by
  cases a with
  | park | giveUp | connect | remove | detach => cases quiet
  | _ => exact h

/-- What leaves the store alone before and after does not matter. -/
theorem between (loud : a.quiet = false) (before : c₁.SameStore c₂) (h : a.Alters c₂ c₃)
    (after : c₃.SameStore c₄) : a.Alters c₁ c₄ := by
  cases a with
  | park u p =>
    obtain ⟨parked, key, same⟩ := h
    refine ⟨?_, ?_, before.sessions.trans (same.trans after.sessions)⟩
    · rw [after.parked, parked, before.parked]
    · rw [← before.sessions.key, key]
  | giveUp | connect | detach =>
    obtain ⟨parked, same⟩ := h
    refine ⟨?_, before.sessions.trans (same.trans after.sessions)⟩
    rw [after.parked, parked, before.parked]
  | remove id =>
    obtain ⟨u, psi, key, parked, left⟩ := h
    refine ⟨u, psi, ?_, ?_, fun j => ?_⟩
    · rw [← before.sessions.key, key]
    · rw [after.parked, parked, before.parked]
    · rw [after.sessions.key, left, before.sessions.key]
  | _ => cases loud

/-- What is parked stays one for a session of its UE. -/
theorem owned (h : a.Alters c₁ c₂) (owned : c₁.Owned) : c₂.Owned := by
  have of_same : ∀ {u p}, c₁.SameSessions c₂ → c₁.parked.get? u = some p →
      c₂.sessionKey p.session = some (u, p.psi) := by
    intro u p same parked
    rw [same.key]
    exact owned u p parked
  intro v q parked'
  cases a with
  | park u p =>
    obtain ⟨parked, key, same⟩ := h
    rw [parked, Table.get?_insert] at parked'
    split at parked'
    · rename_i is
      cases parked'
      rw [same.key, is, key]
    · exact of_same same parked'
  | giveUp u | connect u | detach u =>
    obtain ⟨parked, same⟩ := h
    rw [parked] at parked'
    exact of_same same (Table.get?_of_erase parked')
  | remove id =>
    obtain ⟨u, psi, key, parked, left⟩ := h
    rw [parked] at parked'
    have stayed := get?_of_unpark parked'
    have other : q.session ≠ id := by
      intro is
      rw [owned.get?_unpark key stayed, if_pos is] at parked'
      cases parked'
    rw [left, if_neg other]
    exact owned v q stayed
  | _ =>
    have same : c₁.SameStore c₂ := h
    rw [same.parked] at parked'
    exact of_same same.sessions parked'

end Act.Alters

theorem alters_removeSession {c : Context} {id : Nat} {s : Session}
    (session : c.sessions.get? id = some s) : (Act.remove id).Alters c (c.removeSession id) := by
  refine ⟨_, _, sessionKey_of_some session, ?_, fun j => sessionKey_removeSession⟩
  rw [removeSession_of_some session]

/-- **What each step makes of the store**, and of the sessions. -/
theorem Step.alters (step : Step a n n') : a.Alters n.context n'.context := by
  have same := step.sameSessions
  cases step with
  | park session ue known idle resolved =>
    exact ⟨rfl, sessionKey_of_some session, same nofun⟩
  | giveUp =>
    refine ⟨?_, same nofun⟩
    rw [Node.context_offerAll]
    rfl
  | connect known room => exact ⟨Node.parked_connect room, same nofun⟩
  | detach =>
    refine ⟨?_, same nofun⟩
    rw [Node.context_change, Node.context_uncountLeg, detach_eq]
  | remove session => exact alters_removeSession session
  | repeatNothing _ lost =>
    refine ⟨?_, same nofun⟩
    obtain ⟨-, rfl⟩ | ⟨-, rfl⟩ := lost <;> rfl
  | disconnect => exact ⟨same_disconnect.parked, same nofun⟩
  | _ => exact ⟨rfl, same nofun⟩

theorem Chain.sameStore (chain : Chain (fun a => A a ∧ a.quiet) n n') :
    n.context.SameStore n'.context :=
  chain.keeps (P := fun m => n.context.SameStore m.context)
    (fun _ _ _ may step same => same.trans (step.alters.of_quiet may.2)) .refl

/-- **An event alters the store in one act at most.** -/
theorem Course.alters (course : Course A n n') : n.context.SameStore n'.context ∨
    ∃ a, A a ∧ a.quiet = false ∧ a.Alters n.context n'.context := by
  obtain chain | ⟨a, m, m', may, loud, before, step, after⟩ := course
  · exact .inl chain.sameStore
  · exact .inr ⟨a, may, loud, step.alters.between loud before.sameStore after.sameStore⟩

/-- Before the first event nothing is parked. -/
theorem Context.Fresh.owned {c : Context} (h : c.Fresh) : c.Owned := by
  intro u p parked
  rw [h.parked] at parked
  cases parked

end Amf
