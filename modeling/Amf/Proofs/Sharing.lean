import Amf.Proofs.Joined

/-!
# Legs that are shared

A UE notes its leg and a leg notes its UE, and a UE is put on a leg without a look at who is on it. The
UE that was on the leg still notes it then, and when that one leaves it takes the leg from the newcomer.
Each leg serves one UE (`Context.Sole`) exactly as long as no UE is put on the leg of another
(`Operation.sole_iff`); a UE that connects gets a leg of its own, so only an operation on legs does that.

| operation | leg of the UE | what the legs note |
| --- | --- | --- |
| `addLeg` | as before | the new one nobody |
| `removeLeg` | none, if it is this one | |
| `associate` | the given one | the given one the UE |
| `deassociate`, `removeUe` | none | its former leg nobody, whoever it served |
-/

namespace Amf

namespace Context

variable {c c' : Context} {u v j k : Nat} {l l' : Leg} {gnb ran : UInt64} {rat : RatType}

/-! ## Legs that serve one UE -/

/-- The leg of every UE serves that UE. -/
def Served (c : Context) : Prop := ∀ u k l, c.legOf? u = some (k, l) → l.ue = some u

/-- A leg serves one UE: that of a UE serves it and is the leg of no other, and a UE that leaves its leg
or goes takes nothing from the others. -/
structure Sole (c : Context) : Prop where
  served : c.Served
  apart : ∀ u v k l l', c.legOf? u = some (k, l) → c.legOf? v = some (k, l') → u = v
  deassociate : ∀ u v k l, v ≠ u → c.legOf? v = some (k, l) → (c.deassociate u).legOf? v = some (k, l)
  removeUe : ∀ u v k l, v ≠ u → c.legOf? v = some (k, l) → (c.removeUe u).legOf? v = some (k, l)

theorem Served.apart (h : c.Served) (leg : c.legOf? u = some (k, l)) (leg' : c.legOf? v = some (k, l')) :
    u = v := by
  have there := (legOf?_eq_some_iff.1 leg).2
  rw [(legOf?_eq_some_iff.1 leg').2] at there
  cases there
  exact Option.some.inj ((h u k l leg).symm.trans (h v k l leg'))

theorem SameLinks.served (same : c.SameLinks c') (h : c.Served) : c'.Served := by
  intro u k l' leg
  obtain ⟨uses, there⟩ := legOf?_eq_some_iff.1 leg
  obtain ⟨l, before, ends⟩ := same.leg there
  have serves : l'.ue = l.ue := congrArg (·.2.2) ends
  rw [serves]
  exact h u k l (legOf?_eq_some_iff.2 ⟨same.uses u ▸ uses, before⟩)

/-! ## UEs that leave -/

/-- A UE leaves its leg, and the leg notes nobody. -/
structure Leaves (u : Nat) (c c' : Context) : Prop where
  uses : ∀ v, (c'.ues.get? v).bind (·.leg) = if v = u then none else (c.ues.get? v).bind (·.leg)
  legs : c'.legs = match (c.ues.get? u).bind (·.leg) with
    | some k => c.legs.modify k fun l => { l with ue := none }
    | none => c.legs

theorem leaves_of_unknown (unknown : c.ues.get? u = none) : c.Leaves u c := by
  refine ⟨fun v => ?_, by rw [unknown]; rfl⟩
  split
  · rename_i is
    rw [is, unknown]
    rfl
  · rfl

theorem leaves_deassociate : c.Leaves u (c.deassociate u) := by
  unfold deassociate
  split
  · rename_i unknown
    exact leaves_of_unknown unknown
  · rename_i x known
    refine ⟨fun v => ?_, by rw [known]; rfl⟩
    show ((c.ues.insert u _).get? v).bind _ = _
    rw [Table.get?_insert]
    split <;> rfl

theorem leaves_removeUe : c.Leaves u (c.removeUe u) := by
  unfold removeUe
  split
  · rename_i unknown
    exact leaves_of_unknown unknown
  · rename_i x known
    refine ⟨fun v => ?_, by rw [known]; rfl⟩
    show ((c.ues.erase u).get? v).bind _ = _
    rw [Table.get?_erase]
    split <;> rfl

/-- **A UE that leaves takes nothing from the others**, if every leg serves the UE whose leg it is. -/
theorem Served.legOf?_of_leaves (h : c.Served) (leaves : c.Leaves u c') :
    c'.legOf? v = if v = u then none else c.legOf? v := by
  unfold legOf?
  rw [leaves.uses v]
  split
  · rfl
  · rename_i other
    cases uses : (c.ues.get? v).bind (·.leg) with
    | none => rfl
    | some k =>
      rw [Option.bind_some, Option.bind_some, leaves.legs]
      cases former : (c.ues.get? u).bind (·.leg) with
      | none => rfl
      | some j =>
        -- The record that changes is another one, or there is none.
        show ((c.legs.modify j _).get? k).map _ = _
        by_cases is : k = j
        · rw [is] at uses ⊢
          cases there : c.legs.get? j with
          | none =>
            rw [Table.get?_modify_self, there]
            rfl
          | some l =>
            have leg : c.legOf? v = some (j, l) := legOf?_eq_some_iff.2 ⟨uses, there⟩
            exact absurd (h.apart leg (legOf?_eq_some_iff.2 ⟨former, there⟩)) other
        · rw [Table.get?_modify_of_ne is]

theorem Served.of_leaves (h : c.Served) (leaves : c.Leaves u c') : c'.Served := by
  intro v k l leg
  rw [h.legOf?_of_leaves leaves] at leg
  split at leg
  · cases leg
  · exact h v k l leg

/-- **Each leg serves one UE if it serves the UE whose leg it is.** -/
theorem Served.sole (h : c.Served) : c.Sole where
  served := h
  apart _ _ _ _ _ leg leg' := h.apart leg leg'
  deassociate u v k l other leg := by rw [h.legOf?_of_leaves leaves_deassociate, if_neg other, leg]
  removeUe u v k l other leg := by rw [h.legOf?_of_leaves leaves_removeUe, if_neg other, leg]

/-! ## Legs that come and go -/

/-- A UE that has a leg when one was removed had it before. -/
theorem legOf?_of_removeLeg (leg : (c.removeLeg j).legOf? u = some (k, l)) :
    c.legOf? u = some (k, l) := by
  obtain ⟨uses, there⟩ := legOf?_eq_some_iff.1 leg
  rw [legs_removeLeg] at there
  exact legOf?_eq_some_iff.2 ⟨uses_of_within drops_removeLeg.ues uses, Table.get?_of_erase there⟩

theorem Served.removeLeg (h : c.Served) : (c.removeLeg j).Served :=
  fun u k l leg => h u k l (legOf?_of_removeLeg leg)

theorem Served.freeLeg (h : c.Served) : (c.freeLeg u).Served := by
  unfold Context.freeLeg
  split
  · exact h.removeLeg
  · exact h

theorem Served.clearConnection (h : c.Served) : (c.clearConnection u).Served := by
  unfold Context.clearConnection
  split
  · exact h
  · exact (h.of_leaves leaves_deassociate).removeLeg

/-- No UE uses the leg that comes next. -/
theorem Numbered.unused (h : c.Numbered) : (c.ues.get? u).bind (·.leg) ≠ some c.nextLeg :=
  fun uses => Nat.lt_irrefl _ (h.lt_of_uses uses)

theorem Served.addLeg (h : c.Served) (numbered : c.Numbered) (room : c.addLeg gnb ran = some (k, c')) :
    c'.Served := by
  obtain ⟨-, rfl, rfl⟩ := addLeg_eq_some_iff.1 room
  intro u j l leg
  obtain ⟨uses, there⟩ := legOf?_eq_some_iff.1 leg
  have other : j ≠ c.nextLeg := by
    rintro rfl
    exact numbered.unused uses
  exact h u j l (legOf?_eq_some_iff.2 ⟨uses, (Table.get?_insert_of_ne other).symm.trans there⟩)

/-! ## UEs that are put on legs -/

theorem associate_of_known (known : c.ues.contains u = true) (there : c.legs.contains k = true) :
    c.associate u k = (c.modifyUe u fun x => { x with leg := some k }).modifyLeg k
      fun l => { l with ue := some u } := by
  unfold associate
  rw [known, there]
  rfl

theorem uses_associate (known : c.ues.contains u = true) (there : c.legs.contains k = true) :
    ((c.associate u k).ues.get? v).bind (·.leg) =
      if v = u then some k else (c.ues.get? v).bind (·.leg) := by
  rw [associate_of_known known there]
  show ((c.ues.modify u _).get? v).bind _ = _
  rw [Table.get?_modify]
  split
  · rename_i is
    obtain ⟨x, hx⟩ := Table.contains_iff.1 known
    rw [is, hx]
    rfl
  · rfl

theorem legs_associate (known : c.ues.contains u = true) (there : c.legs.contains k = true) :
    (c.associate u k).legs = c.legs.modify k fun l => { l with ue := some u } := by
  rw [associate_of_known known there]
  rfl

/-- **Putting a UE on a leg leaves every leg with its UE exactly if the leg is that of no other.** -/
theorem Served.associate_iff (h : c.Served) (known : c.ues.contains u = true) :
    (c.associate u k).Served ↔ ∀ v l, v ≠ u → c.legOf? v ≠ some (k, l) := by
  cases there : c.legs.contains k with
  | false =>
    have same : c.associate u k = c := by
      unfold associate
      rw [there, Bool.and_false]
      rfl
    rw [same]
    refine iff_of_true h fun v l _ leg => ?_
    rw [Table.contains_iff.2 ⟨l, (legOf?_eq_some_iff.1 leg).2⟩] at there
    cases there
  | true =>
    constructor
    · intro served v l other leg
      obtain ⟨uses, at_⟩ := legOf?_eq_some_iff.1 leg
      -- The other UE still notes the leg, which notes the newcomer.
      have shared : (c.associate u k).legOf? v = some (k, { l with ue := some u }) := by
        refine legOf?_eq_some_iff.2 ⟨?_, ?_⟩
        · rw [uses_associate known there, if_neg other, uses]
        · rw [legs_associate known there, Table.get?_modify_of_some at_]
      exact other (Option.some.inj (served v k _ shared)).symm
    · intro free v j m leg
      obtain ⟨uses, at_⟩ := legOf?_eq_some_iff.1 leg
      rw [uses_associate known there] at uses
      rw [legs_associate known there] at at_
      split at uses
      · rename_i is
        cases uses
        rw [Table.get?_modify_self] at at_
        obtain ⟨l, -, rfl⟩ := Option.map_eq_some_iff.1 at_
        exact congrArg some is.symm
      · rename_i other
        by_cases is : j = k
        · obtain ⟨l, before⟩ := Table.contains_iff.1 there
          exact absurd (legOf?_eq_some_iff.2 ⟨is ▸ uses, before⟩) (free v l other)
        · rw [Table.get?_modify_of_ne is] at at_
          exact h v j m (legOf?_eq_some_iff.2 ⟨uses, at_⟩)

theorem associate_of_unknown (unknown : c.ues.contains u = false) : c.associate u k = c := by
  unfold associate
  rw [unknown]
  rfl

/-- A UE that is put on a leg that no UE uses shares it with none. -/
theorem Served.associate (h : c.Served) (unused : ∀ v, (c.ues.get? v).bind (·.leg) ≠ some k) :
    (c.associate u k).Served := by
  cases known : c.ues.contains u with
  | false =>
    rw [associate_of_unknown known]
    exact h
  | true => exact (h.associate_iff known).2 fun v l _ leg => unused v (legOf?_eq_some_iff.1 leg).1

theorem Served.serve (h : c.Served) (unused : ∀ v, (c.ues.get? v).bind (·.leg) ≠ some k) :
    (c.serve u k rat).Served := by
  have refreshed : (c.modifyLeg k fun l => { l with rat }).Served :=
    SameLinks.served (.of_modifyLeg fun _ => rfl) h
  exact refreshed.associate unused

end Context

/-! ## Steps -/

open Context

variable {n n' : Node}

/-- A UE that connects shares its leg with none. -/
theorem Node.served_connect {c : Context} {u k : Nat} {gnb ran : UInt64} {rat : RatType}
    (h : n.context.Served) (numbered : n.context.Numbered)
    (room : n.context.addLeg gnb ran = some (k, c)) : (n.connect c u k rat).context.Served := by
  have added : c.Served := h.addLeg numbered room
  have unused : ∀ v, ((c.freeLeg u).ues.get? v).bind (·.leg) ≠ some k := by
    intro v uses
    have before := uses_of_within drops_freeLeg.ues uses
    obtain ⟨-, rfl, rfl⟩ := addLeg_eq_some_iff.1 room
    exact numbered.unused before
  rw [context_connect]
  exact SameLinks.served (.of_modifyUe rfl rfl rfl fun _ => rfl) (added.freeLeg.serve unused)

/-- **Every step leaves every leg with its UE.** -/
theorem Step.served {a : Act} (step : Step a n n') (numbered : n.context.Numbered)
    (h : n.context.Served) : n'.context.Served := by
  cases rewires : a.rewires with
  | false => exact (step.sameLinks rewires).served h
  | true =>
    cases step with
    | connect _ room => exact Node.served_connect h numbered room
    | disconnect => exact (h.of_leaves leaves_deassociate).removeLeg
    | @detach _ u =>
      have left : (n.context.withoutLeg u).Served := by
        unfold withoutLeg
        split
        · exact h.clearConnection
        · exact h
      rw [Node.context_change, Node.context_uncountLeg, detach_eq]
      exact SameLinks.served (.of_modifyUe rfl rfl rfl fun _ => rfl) left
    | _ => cases rewires

/-! ## Operations -/

namespace Context

variable {c : Context} {u : Nat}

theorem drops_removeUe : DropsLegs c (c.removeUe u) := by
  unfold removeUe
  split
  · exact .refl
  · refine ⟨?_, Table.within_erase Ue.KeepsLeg.refl, rfl⟩
    split
    · exact Table.within_modify Leg.Same.refl fun _ => ⟨rfl, rfl, rfl⟩
    · exact .refl Leg.Same.refl

end Context

/-- **Every operation on legs keeps numbers and identifiers of legs apart.** -/
theorem LegOperation.numbered (o : LegOperation) {c : Context} (h : c.Numbered) :
    (o.apply c).Numbered := by
  cases o with
  | add gnb ranId => exact of_addLeg (P := Numbered) h fun _ room => h.addLeg room
  | remove leg => exact h.of_drops drops_removeLeg
  | associate u leg => exact h.associate
  | deassociate u => exact h.of_drops drops_deassociate
  | clear u => exact h.of_drops drops_clearConnection

namespace Operation

variable {os : List Operation}

/-- **Every operation keeps numbers and identifiers of legs apart.** -/
theorem numbered (o : Operation) (known : n.context.Registered) (h : n.context.Numbered) :
    (o.apply n).context.Numbered := by
  cases counts : o.countsLegs with
  | true =>
    obtain ⟨m, same, -, chain⟩ := o.exists_chain counts known
    exact chain.keeps (P := fun m => m.context.Numbered) (fun _ _ _ _ step => step.numbered)
      (same.numbered h)
  | false =>
    cases o with
    | removeUe u => exact h.of_drops drops_removeUe
    | onLegs o => exact o.numbered h
    | _ => cases counts

/-- The operation puts a UE on the leg of another. -/
def Shares (o : Operation) (n : Node) : Prop :=
  ∃ u v k l, o = .onLegs (.associate u k) ∧ n.context.ues.contains u = true ∧ v ≠ u ∧
    n.context.legOf? v = some (k, l)

/-- **An operation that puts no UE on a leg leaves every leg with its UE.** -/
theorem served_of_other {o : Operation} (known : n.context.Registered) (numbered : n.context.Numbered)
    (h : n.context.Served) (other : ∀ u k, o ≠ .onLegs (.associate u k)) :
    (o.apply n).context.Served := by
  cases counts : o.countsLegs with
  | true =>
    obtain ⟨m, same, -, chain⟩ := o.exists_chain counts known
    have both := chain.keeps (P := fun m => m.context.Numbered ∧ m.context.Served)
      (fun _ _ _ _ step h => ⟨step.numbered h.1, step.served h.1 h.2⟩)
      ⟨same.numbered numbered, same.served h⟩
    exact both.2
  | false =>
    cases o with
    | removeUe u => exact h.of_leaves leaves_removeUe
    | onLegs o =>
      cases o with
      | add gnb ranId => exact of_addLeg (P := Served) h fun _ room => h.addLeg numbered room
      | remove leg => exact h.removeLeg
      | associate u leg => exact absurd rfl (other u leg)
      | deassociate u => exact h.of_leaves leaves_deassociate
      | clear u => exact h.clearConnection
    | _ => cases counts

/-- **An operation leaves every leg with its UE exactly if it puts no UE on the leg of another.** -/
theorem served_apply_iff {o : Operation} (registered : n.context.Registered)
    (numbered : n.context.Numbered) (h : n.context.Served) :
    (o.apply n).context.Served ↔ ¬o.Shares n := by
  by_cases puts : ∃ u k, o = .onLegs (.associate u k)
  · obtain ⟨u, k, rfl⟩ := puts
    show (n.context.associate u k).Served ↔ _
    cases known : n.context.ues.contains u with
    | false =>
      rw [associate_of_unknown known]
      refine iff_of_true h ?_
      rintro ⟨u', v, k', l, is, known', -⟩
      cases is
      rw [known] at known'
      cases known'
    | true =>
      rw [h.associate_iff known]
      constructor
      · rintro free ⟨u', v, k', l, is, -, other, leg⟩
        cases is
        exact free v l other leg
      · exact fun unshared v l other leg => unshared ⟨u, v, k, l, rfl, known, other, leg⟩
  · refine iff_of_true (served_of_other registered numbered h fun u k is => puts ⟨u, k, is⟩) ?_
    rintro ⟨u, v, k, l, is, -⟩
    exact puts ⟨u, k, is⟩

/-! ## Runs -/

/-- **A leg serves one UE as long as no UE is put on the leg of another, and no longer.** From a context
without UEs, every leg serves one UE in every state of a run exactly if no operation of the run puts a UE
on a leg that is the leg of another one. -/
theorem sole_iff (config : Config) (metrics : Metrics) (links : Links) (os : List Operation) :
    let n : Node := { context := config.context, metrics, links }
    (∀ k, (stateAt os n k).context.Sole) ↔
      ∀ (k : Nat) (o : Operation), os[k]? = some o → ¬o.Shares (stateAt os n k) := by
  intro n
  have fresh : n.context.Fresh := Provisioned.start.fresh
  have kept : ∀ k, (stateAt os n k).context.Registered ∧ (stateAt os n k).context.Numbered := fun k =>
    run_keeps (P := fun n => n.context.Registered ∧ n.context.Numbered)
      (fun o _ h => ⟨o.registered h.1, o.numbered h.1 h.2⟩) _
      ⟨fun _ known => (nomatch known), fresh.numbered⟩
  constructor
  · intro sole k o at_
    refine (served_apply_iff (kept k).1 (kept k).2 (sole k).served).1 ?_
    rw [← stateAt_succ at_]
    exact (sole (k + 1)).served
  · intro unshared k
    refine Served.sole ?_
    induction k with
    | zero =>
      intro u k l leg
      rw [show (stateAt os n 0).context.legOf? u = none from fresh.idle u] at leg
      cases leg
    | succ k ih =>
      cases at_ : os[k]? with
      | none =>
        rw [stateAt_succ_of_none at_]
        exact ih
      | some o =>
        rw [stateAt_succ at_]
        exact (served_apply_iff (kept k).1 (kept k).2 ih).2 (unshared k o at_)

/-- Two UEs are put on one leg: both are connected through it, it serves the second, and it serves nobody
once the first leaves it or goes, though the second is still connected through it. -/
theorem not_sole_shared :
    let c := (run [addUe, addUe, onLegs (.add 1 100), onLegs (.associate 1 1), onLegs (.associate 2 1)]
      { context := Config.context default }).context
    let leg (c : Context) (u : Nat) := (c.legOf? u).map fun at_ => (at_.1, at_.2.ue)
    ¬c.Sole ∧ leg c 1 = some (1, some 2) ∧ leg c 2 = some (1, some 2) ∧
      leg (c.deassociate 1) 2 = some (1, none) ∧ leg (c.removeUe 1) 2 = some (1, none) := by
  refine ⟨fun sole => ?_, by decide⟩
  cases sole.served 1 1 { ids := ⟨1, 100⟩, gnb := 1, ue := some 2 } (by decide)

end Operation
end Amf
