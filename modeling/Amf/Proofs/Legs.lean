import Amf.Proofs.Step
import Amf.Proofs.Within

/-!
# Operations on legs

What becomes of UEs and legs when legs come and go. A measure of UEs that does not depend on their
legs is kept by every such operation; the legs that are left are the same but for the UE that they
serve.

| operation | legs | leg of the UE | legs of other UEs |
| --- | --- | --- | --- |
| `removeLeg` | one less | as before, or none | as before, or none |
| `deassociate` | the same | none | as before |
| `associate`, `serve` | the same | the given one | as before |
| `clearConnection` | one less | none | as before, or none |
-/

namespace Amf

/-- The same leg, whichever UE it serves and over whichever access technology. -/
def Leg.Same (l l' : Leg) : Prop :=
  l'.ids = l.ids ∧ l'.gnb = l.gnb ∧ l'.setupSent = l.setupSent

theorem Leg.Same.refl (l : Leg) : l.Same l := ⟨rfl, rfl, rfl⟩

theorem Leg.Same.trans (l m r : Leg) (first : l.Same m) (second : m.Same r) : l.Same r :=
  ⟨second.1.trans first.1, second.2.1.trans first.2.1, second.2.2.trans first.2.2⟩

/-- What operations on legs do to one stays within a relation. -/
structure Leg.Allows (R : Leg → Leg → Prop) : Prop where
  self : ∀ l, R l l
  compose : ∀ l m r, R l m → R m r → R l r
  serve : ∀ l rat ue, R l { l with rat, ue }

theorem Leg.allows_same : Leg.Allows Leg.Same := ⟨.refl, .trans, fun _ _ _ => ⟨rfl, rfl, rfl⟩⟩

/-- The UE keeps its leg or gives it up. -/
def Ue.KeepsLeg (x y : Ue) : Prop := y.leg = x.leg ∨ y.leg = none

theorem Ue.KeepsLeg.refl (x : Ue) : x.KeepsLeg x := .inl rfl

theorem Ue.KeepsLeg.trans (x y z : Ue) (first : x.KeepsLeg y) (second : y.KeepsLeg z) :
    x.KeepsLeg z := by
  rcases second with same | gone
  · unfold KeepsLeg
    rw [same]
    exact first
  · exact .inr gone

namespace Context

variable {c c' : Context} {u v k j : Nat} {l : Leg}

theorem legOf?_eq_some_iff :
    c.legOf? u = some (k, l) ↔ (c.ues.get? u).bind (·.leg) = some k ∧ c.legs.get? k = some l := by
  unfold legOf?
  rw [Option.bind_eq_some_iff]
  constructor
  · rintro ⟨m, hm, h⟩
    obtain ⟨l', hl, same⟩ := Option.map_eq_some_iff.1 h
    cases same
    exact ⟨hm, hl⟩
  · rintro ⟨hm, hl⟩
    exact ⟨k, hm, by rw [hl, Option.map_some]⟩

theorem uses_congr (same : (c'.ues.get? u).map (·.leg) = (c.ues.get? u).map (·.leg)) :
    (c'.ues.get? u).bind (·.leg) = (c.ues.get? u).bind (·.leg) := by
  have bound := congrArg (·.bind id) same
  simp only [Option.bind_map] at bound
  exact bound

/-- The leg of a UE depends on the number that the UE notes, and on the legs. -/
theorem legOf?_congr (uses : (c'.ues.get? u).map (·.leg) = (c.ues.get? u).map (·.leg))
    (legs : c'.legs = c.legs) : c'.legOf? u = c.legOf? u := by
  unfold legOf?
  rw [uses_congr uses, legs]

/-- Whether a UE is established depends on its keys and on the answer on its leg. -/
theorem established_eq : c.established u = (((c.ues.get? u).map (·.securityValid)).getD false &&
    ((c.legOf? u).map (·.2.setupAnswered)).getD false) := by
  unfold established
  cases c.ues.get? u <;> cases c.legOf? u <;> rfl

theorem established_iff : c.established u = true ↔
    (c.ues.get? u).map (·.securityValid) = some true ∧
      ∃ k l, c.legOf? u = some (k, l) ∧ l.setupAnswered = true := by
  rw [established_eq, Bool.and_eq_true]
  refine and_congr ?_ ?_
  · cases (c.ues.get? u).map (·.securityValid) with
    | none => exact iff_of_false nofun nofun
    | some valid => exact (Option.some_inj).symm
  · cases c.legOf? u with
    | none => exact iff_of_false nofun fun ⟨_, _, is, _⟩ => (nomatch is)
    | some has =>
      refine ⟨fun answered => ⟨has.1, has.2, rfl, answered⟩, ?_⟩
      rintro ⟨k, l, is, answered⟩
      cases is
      exact answered

theorem established_congr
    (valid : (c'.ues.get? u).map (·.securityValid) = (c.ues.get? u).map (·.securityValid))
    (answered : (c'.legOf? u).map (·.2.setupAnswered) = (c.legOf? u).map (·.2.setupAnswered)) :
    c'.established u = c.established u := by
  rw [established_eq, established_eq, valid, answered]

/-- The numbers that new legs are given, and how many legs there may be. -/
def legNumbers (c : Context) : Nat × Nat × Nat := (c.nextLeg, c.nextAmfId, c.maxLegs)

/-- Legs are given up at most, and no UE gets one. -/
structure DropsLegs (c c' : Context) : Prop where
  /-- The legs that are left. -/
  legs : Table.Within Leg.Same c.legs c'.legs
  /-- The UEs and their legs. -/
  ues : Table.Within Ue.KeepsLeg c.ues c'.ues
  /-- No number is used up. -/
  numbers : c'.legNumbers = c.legNumbers

theorem DropsLegs.refl : DropsLegs c c := ⟨.refl Leg.Same.refl, .refl Ue.KeepsLeg.refl, rfl⟩

theorem DropsLegs.trans {c₁ c₂ c₃ : Context} (first : DropsLegs c₁ c₂) (second : DropsLegs c₂ c₃) :
    DropsLegs c₁ c₃ :=
  ⟨.trans Leg.Same.trans first.legs second.legs, .trans Ue.KeepsLeg.trans first.ues second.ues,
    second.numbers.trans first.numbers⟩

/-- A change of one UE that leaves its leg alone. -/
theorem DropsLegs.of_modifyUe {f : Ue → Ue} (legs : c'.legs = c.legs) (ues : c'.ues = c.ues.modify u f)
    (numbers : c'.legNumbers = c.legNumbers) (same : ∀ x, (f x).leg = x.leg) : DropsLegs c c' := by
  refine ⟨legs ▸ .refl Leg.Same.refl, ?_, numbers⟩
  rw [ues]
  exact Table.within_modify Ue.KeepsLeg.refl fun x => .inl (same x)

theorem DropsLegs.of_eq (legs : c'.legs = c.legs) (ues : c'.ues = c.ues)
    (numbers : c'.legNumbers = c.legNumbers) : DropsLegs c c' :=
  ⟨legs ▸ .refl Leg.Same.refl, ues ▸ .refl Ue.KeepsLeg.refl, numbers⟩

/-- A UE that uses a leg has used it before, if UEs give their legs up at most. -/
theorem uses_of_within (within : Table.Within Ue.KeepsLeg c.ues c'.ues)
    (uses : (c'.ues.get? u).bind (·.leg) = some k) : (c.ues.get? u).bind (·.leg) = some k := by
  obtain ⟨y, hy, hk⟩ := Option.bind_eq_some_iff.1 uses
  obtain ⟨x, hx, kept | gone⟩ := within u y hy
  · rw [hx, Option.bind_some, ← kept, hk]
  · rw [gone] at hk
    cases hk

/-- A UE that has a leg had it before. -/
theorem DropsLegs.legOf? (drops : DropsLegs c c') (h : c'.legOf? u = some (k, l)) :
    ∃ l₀, c.legOf? u = some (k, l₀) ∧ l₀.Same l := by
  obtain ⟨number, leg⟩ := legOf?_eq_some_iff.1 h
  obtain ⟨l₀, hl, same⟩ := drops.legs k l leg
  exact ⟨l₀, legOf?_eq_some_iff.2 ⟨uses_of_within drops.ues number, hl⟩, same⟩

/-- A UE without a leg gets none. -/
theorem DropsLegs.idle (drops : DropsLegs c c') (idle : c.legOf? u = none) : c'.legOf? u = none := by
  rw [Option.eq_none_iff_forall_not_mem]
  rintro ⟨k, l⟩ h
  obtain ⟨l₀, h₀, -⟩ := drops.legOf? h
  rw [idle] at h₀
  cases h₀

/-! ## Legs that are left -/

theorem legs_removeLeg : (c.removeLeg k).legs = c.legs.erase k := by
  unfold removeLeg
  split
  · rename_i h
    exact (Table.erase_eq_self h).symm
  · rfl

section
variable {R : Leg → Leg → Prop} (allows : Leg.Allows R)
include allows

theorem within_removeLeg : Table.Within R c.legs (c.removeLeg k).legs :=
  legs_removeLeg ▸ Table.within_erase allows.self

theorem within_deassociate : Table.Within R c.legs (c.deassociate u).legs := by
  unfold deassociate
  split
  · exact .refl allows.self
  · split
    · exact Table.within_modify allows.self fun l => allows.serve l l.rat none
    · exact .refl allows.self

theorem within_clearConnection : Table.Within R c.legs (c.clearConnection u).legs := by
  unfold clearConnection
  split
  · exact .refl allows.self
  · exact .trans allows.compose (within_deassociate allows) (within_removeLeg allows)

theorem within_freeLeg : Table.Within R c.legs (c.freeLeg u).legs := by
  unfold freeLeg
  split
  · exact within_removeLeg allows
  · exact .refl allows.self

theorem within_serve {rat : RatType} : Table.Within R c.legs (c.serve u k rat).legs := by
  have refreshed : Table.Within R c.legs (c.modifyLeg k fun l => { l with rat }).legs :=
    Table.within_modify allows.self fun l => allows.serve l rat l.ue
  unfold serve associate
  split
  · exact .trans allows.compose refreshed
      (Table.within_modify allows.self fun l => allows.serve l l.rat (some u))
  · exact refreshed

end

/-! ## Operations -/

theorem drops_removeLeg : DropsLegs c (c.removeLeg k) := by
  refine ⟨within_removeLeg Leg.allows_same, ?_, ?_⟩
  · unfold removeLeg
    split
    · exact .refl Ue.KeepsLeg.refl
    · split
      · refine Table.within_modify Ue.KeepsLeg.refl fun x => ?_
        split
        · exact .inr rfl
        · exact .inl rfl
      · exact .refl Ue.KeepsLeg.refl
  · unfold removeLeg
    split <;> rfl

theorem drops_deassociate : DropsLegs c (c.deassociate u) := by
  refine ⟨within_deassociate Leg.allows_same, ?_, ?_⟩
  · unfold deassociate
    split
    · exact .refl Ue.KeepsLeg.refl
    · rename_i x hx
      exact Table.within_insert Ue.KeepsLeg.refl hx (.inr rfl)
  · unfold deassociate
    split <;> rfl

theorem drops_clearConnection : DropsLegs c (c.clearConnection u) := by
  unfold clearConnection
  split
  · exact .refl
  · exact drops_deassociate.trans drops_removeLeg

theorem drops_freeLeg : DropsLegs c (c.freeLeg u) := by
  unfold freeLeg
  split
  · exact drops_removeLeg
  · exact .refl

theorem contains_legs_serve {rat : RatType} :
    (c.serve u k rat).legs.contains j = c.legs.contains j := by
  unfold serve associate
  split
  · exact Table.contains_modify.trans Table.contains_modify
  · exact Table.contains_modify

/-- The UE that is served uses the leg, and every other UE is as before. -/
theorem ues_serve {rat : RatType} {y : Ue} (hy : (c.serve u k rat).ues.get? v = some y) :
    (v = u ∧ y.leg = some k) ∨ c.ues.get? v = some y := by
  unfold serve associate at hy
  split at hy
  · change (c.ues.modify u _).get? v = some y at hy
    rw [Table.get?_modify] at hy
    split at hy
    · rename_i is
      obtain ⟨x, -, rfl⟩ := Option.map_eq_some_iff.1 hy
      exact .inl ⟨is, rfl⟩
    · exact .inr hy
  · exact .inr hy

theorem legNumbers_serve {rat : RatType} : (c.serve u k rat).legNumbers = c.legNumbers := by
  unfold serve associate
  split <;> rfl

/-- A known UE is served by a leg that exists. -/
theorem legNumber_serve {rat : RatType} (known : c.ues.contains u = true)
    (leg : c.legs.contains k = true) :
    ((c.serve u k rat).ues.get? u).bind (·.leg) = some k := by
  obtain ⟨x, hx⟩ := Table.contains_iff.1 known
  unfold serve associate
  rw [if_pos]
  · show (((c.ues.modify u _).get? u).bind _) = _
    rw [Table.get?_modify_self, hx]
    rfl
  · rw [Bool.and_eq_true]
    refine ⟨known, ?_⟩
    show (c.legs.modify k _).contains k = true
    rw [Table.contains_modify, leg]

/-! ## Measures of UEs -/

section
variable {β : Type} {g : Ue → β} (free : ∀ x leg, g { x with leg } = g x)
include free

theorem map_ues_removeLeg : ((c.removeLeg k).ues.get? v).map g = (c.ues.get? v).map g := by
  unfold removeLeg
  split
  · rfl
  · split
    · refine Table.map_get?_modify fun x => ?_
      split
      · exact free x none
      · rfl
    · rfl

theorem map_ues_deassociate : ((c.deassociate u).ues.get? v).map g = (c.ues.get? v).map g := by
  unfold deassociate
  split
  · rfl
  · rename_i x hx
    exact Table.map_get?_insert hx (free x none)

theorem map_ues_clearConnection :
    ((c.clearConnection u).ues.get? v).map g = (c.ues.get? v).map g := by
  unfold clearConnection
  split
  · rfl
  · rw [map_ues_removeLeg free, map_ues_deassociate free]

theorem map_ues_freeLeg : ((c.freeLeg u).ues.get? v).map g = (c.ues.get? v).map g := by
  unfold freeLeg
  split
  · exact map_ues_removeLeg free
  · rfl

theorem map_ues_associate : ((c.associate u k).ues.get? v).map g = (c.ues.get? v).map g := by
  unfold associate
  split
  · exact Table.map_get?_modify fun x => free x (some k)
  · rfl

theorem map_ues_serve {rat : RatType} :
    ((c.serve u k rat).ues.get? v).map g = (c.ues.get? v).map g :=
  map_ues_associate free

end

/-! ## What is not a leg -/

/-- The numbers that the next UE and the next session are given. -/
def nextNumbers (c : Context) : Nat × Nat := (c.nextUe, c.nextSession)

/-- Two contexts agree on what operations on legs leave alone. -/
structure SameButLegs (c c' : Context) : Prop where
  parked : c'.parked = c.parked
  timers : c'.timers = c.timers
  sessions : c'.sessions = c.sessions
  supis : c'.supis = c.supis
  gutis : c'.gutis = c.gutis
  numbers : c'.nextNumbers = c.nextNumbers

theorem SameButLegs.refl : SameButLegs c c := ⟨rfl, rfl, rfl, rfl, rfl, rfl⟩

theorem SameButLegs.trans {c₁ c₂ c₃ : Context} (first : SameButLegs c₁ c₂)
    (second : SameButLegs c₂ c₃) : SameButLegs c₁ c₃ :=
  ⟨second.parked.trans first.parked, second.timers.trans first.timers,
    second.sessions.trans first.sessions, second.supis.trans first.supis,
    second.gutis.trans first.gutis, second.numbers.trans first.numbers⟩

/-- A new leg, if there is room, has the next number and the next identifier. -/
theorem addLeg_eq_some_iff {gnb ran : UInt64} : c.addLeg gnb ran = some (k, c') ↔
    c.legs.size < c.maxLegs ∧ k = c.nextLeg ∧ c' = { c with
      legs := c.legs.insert c.nextLeg { ids := ⟨c.nextAmfId, ran⟩, gnb }
      nextLeg := c.nextLeg + 1
      nextAmfId := c.nextAmfId + 1 } := by
  unfold addLeg
  split
  · constructor
    · rintro ⟨⟩
    · rintro ⟨room, -, -⟩
      omega
  · rename_i room
    rw [Option.some.injEq, Prod.mk.injEq, eq_comm (a := c.nextLeg), eq_comm (b := c')]
    exact ⟨fun is => ⟨by omega, is⟩, fun is => is.2⟩

/-- What holds with a new leg and without, holds after one was asked for. -/
theorem of_addLeg {P : Context → Prop} {gnb ran : UInt64} (full : P c)
    (added : ∀ r, c.addLeg gnb ran = some r → P r.2) : P ((c.addLeg gnb ran).elim c (·.2)) := by
  cases room : c.addLeg gnb ran with
  | none => exact full
  | some r => exact added r room

theorem same_addLeg {gnb ran : UInt64} (room : c.addLeg gnb ran = some (k, c')) : SameButLegs c c' := by
  unfold addLeg at room
  split at room
  · cases room
  · cases room
    exact ⟨rfl, rfl, rfl, rfl, rfl, rfl⟩

theorem same_removeLeg : SameButLegs c (c.removeLeg k) := by
  unfold removeLeg
  split <;> exact ⟨rfl, rfl, rfl, rfl, rfl, rfl⟩

theorem same_deassociate : SameButLegs c (c.deassociate u) := by
  unfold deassociate
  split <;> exact ⟨rfl, rfl, rfl, rfl, rfl, rfl⟩

theorem same_disconnect : SameButLegs c ((c.deassociate u).removeLeg k) :=
  same_deassociate.trans same_removeLeg

theorem same_clearConnection : SameButLegs c (c.clearConnection u) := by
  unfold clearConnection
  split
  · exact .refl
  · exact same_disconnect

theorem same_freeLeg : SameButLegs c (c.freeLeg u) := by
  unfold freeLeg
  split
  · exact same_removeLeg
  · exact .refl

theorem same_associate : SameButLegs c (c.associate u k) := by
  unfold associate
  split <;> exact ⟨rfl, rfl, rfl, rfl, rfl, rfl⟩

theorem same_serve {rat : RatType} : SameButLegs c (c.serve u k rat) := by
  have refreshed : SameButLegs c (c.modifyLeg k fun l => { l with rat }) :=
    ⟨rfl, rfl, rfl, rfl, rfl, rfl⟩
  exact refreshed.trans same_associate

end Context

/-! ## A new leg -/

namespace Node

variable {n : Node} {c : Context} {u k : Nat} {gnb ran : UInt64} {rat : RatType}

theorem context_relocate : (n.relocate u k rat).context = (n.context.freeLeg u).serve u k rat := by
  unfold relocate
  split <;> rfl

theorem same_relocate : n.context.SameButLegs (n.relocate u k rat).context := by
  rw [context_relocate]
  exact Context.same_freeLeg.trans Context.same_serve

/-- The context in which a UE has got a leg, and its paging is over. -/
theorem context_connect : (n.connect c u k rat).context =
    ((c.freeLeg u).serve u k rat).quitPaging u (c.timers.stop .t3513 u) := by
  have relocated : ((n.change fun _ => c).relocate u k rat).context = (c.freeLeg u).serve u k rat :=
    context_relocate
  have timers : ((c.freeLeg u).serve u k rat).timers = c.timers :=
    (Context.same_freeLeg.trans Context.same_serve).timers
  rw [← timers, ← relocated]
  unfold connect answer
  split <;> rfl

/-- What is parked for a UE that gets a leg is taken. -/
theorem parked_connect {gnb ran : UInt64} (room : n.context.addLeg gnb ran = some (k, c)) :
    (n.connect c u k rat).context.parked = n.context.parked.erase u := by
  have same : n.context.SameButLegs ((c.freeLeg u).serve u k rat) :=
    (Context.same_addLeg room).trans (Context.same_freeLeg.trans Context.same_serve)
  rw [context_connect]
  show ((c.freeLeg u).serve u k rat).parked.erase u = _
  rw [same.parked]

/-- A new leg and the end of a paging leave alone what depends on neither. -/
theorem map_ues_connect {β : Type} {g : Ue → β} {v : Nat}
    (room : n.context.addLeg gnb ran = some (k, c)) (free : ∀ x leg, g { x with leg } = g x)
    (unpaged : ∀ x, g { x with pagingMessage := none } = g x) :
    ((n.connect c u k rat).context.ues.get? v).map g = (n.context.ues.get? v).map g := by
  obtain ⟨-, rfl, rfl⟩ := Context.addLeg_eq_some_iff.1 room
  rw [context_connect]
  exact (Table.map_get?_modify unpaged).trans
    ((Context.map_ues_serve free).trans (Context.map_ues_freeLeg free))

/-- A new leg and the end of a paging leave sessions and names alone. -/
theorem same_connect (room : n.context.addLeg gnb ran = some (k, c)) :
    n.context.SameButLegs { (n.connect c u k rat).context with
      parked := n.context.parked, timers := n.context.timers } := by
  have same : n.context.SameButLegs ((c.freeLeg u).serve u k rat) :=
    (Context.same_addLeg room).trans (Context.same_freeLeg.trans Context.same_serve)
  rw [context_connect]
  exact ⟨rfl, rfl, same.sessions, same.supis, same.gutis, same.numbers⟩

end Node
end Amf
