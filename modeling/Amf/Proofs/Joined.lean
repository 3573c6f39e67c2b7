import Amf.Proofs.Operation
import Mathlib.Data.List.Nodup

/-!
# Legs and the UEs that they serve

A leg notes the UE that it serves, and a UE the leg that it uses. Both are changed one after the
other, and so is the gauge of connected UEs; after every event they agree (`Operation.run_matched`):
every leg serves a known UE that uses it, every UE that is connected is served by its leg, and there
are as many legs as connected UEs and as the gauge says.

| what happens to a UE | its leg | legs | gauge |
| --- | --- | --- | --- |
| it connects, and is idle | the new one | one more | one more |
| it connects, and has a leg | the new one | as many | as before |
| its leg goes, or another AMF takes it over | none | one less | one less |
| anything else | as before | as many | as before |

Only a UE that is removed leaves its leg behind, serving nobody; operations on legs alone leave the
gauge as it is.
-/

namespace Amf

/-! ## Sizes of tables -/

namespace Table

variable {α : Type} {t u : Table α} {k : Nat} {a : α} {f : α → α}

theorem mem_keys : k ∈ t.keys ↔ t.contains k = true := by
  unfold keys
  rw [List.mem_map, contains_iff]
  constructor
  · rintro ⟨⟨j, a⟩, mem, rfl⟩
    exact ⟨a, mem_entries_iff.1 mem⟩
  · rintro ⟨a, there⟩
    exact ⟨(k, a), mem_entries_iff.2 there, rfl⟩

theorem nodup_keys : t.keys.Nodup := List.pairwise_map.2 (t.sorted.imp Nat.ne_of_lt)

/-- A table has as many entries as there are numbers with one. -/
theorem size_eq_length {ks : List Nat} (nodup : ks.Nodup)
    (mem : ∀ k, k ∈ ks ↔ t.contains k = true) : t.size = ks.length := by
  have perm : t.keys.Perm ks :=
    (List.perm_ext_iff_of_nodup nodup_keys nodup).2 fun k => mem_keys.trans (mem k).symm
  rw [← perm.length_eq, keys, List.length_map, size]

theorem length_keys : t.keys.length = t.size := List.length_map _

theorem size_congr (same : ∀ k, t.contains k = u.contains k) : t.size = u.size := by
  rw [size_eq_length nodup_keys fun k => mem_keys.trans (Bool.eq_iff_iff.1 (same k).symm), length_keys]

theorem size_insert_of_new (new : t.contains k = false) : (t.insert k a).size = t.size + 1 := by
  have nodup : (k :: t.keys).Nodup := by
    refine List.nodup_cons.2 ⟨fun mem => ?_, nodup_keys⟩
    rw [mem_keys, new] at mem
    cases mem
  rw [size_eq_length nodup fun j => ?_, List.length_cons, length_keys]
  rw [List.mem_cons, mem_keys, contains_insert]

theorem size_erase_of_mem (mem : t.contains k = true) : t.size = (t.erase k).size + 1 := by
  have nodup : (k :: (t.erase k).keys).Nodup := by
    refine List.nodup_cons.2 ⟨fun mem => ?_, nodup_keys⟩
    exact (contains_erase.1 (mem_keys.1 mem)).1 rfl
  rw [size_eq_length nodup fun j => ?_, List.length_cons, length_keys]
  rw [List.mem_cons, mem_keys, contains_erase]
  by_cases is : j = k
  · rw [is, mem]
    simp
  · simp [is]

theorem size_modify : (t.modify k f).size = t.size := size_congr fun _ => contains_modify

theorem size_insert_of_known {b : α} (known : t.get? k = some b) : (t.insert k a).size = t.size := by
  rw [← modify_of_some (f := fun _ => a) known, size_modify]

theorem size_erase_le : (t.erase k).size ≤ t.size := by
  cases there : t.contains k with
  | true =>
    rw [size_erase_of_mem there]
    exact Nat.le_succ _
  | false =>
    have absent := Option.isNone_iff_eq_none.1 (Option.isSome_eq_false_iff.1 there)
    exact Nat.le_of_eq (congrArg size (erase_eq_self absent))

theorem size_insert_le : (t.insert k a).size ≤ t.size + 1 := by
  cases there : t.contains k with
  | false => exact Nat.le_of_eq (size_insert_of_new there)
  | true =>
    obtain ⟨b, known⟩ := contains_iff.1 there
    rw [size_insert_of_known known]
    exact Nat.le_succ _

end Table

/-- Where a leg leads: its identifiers, its base station, and the UE that it serves. -/
def Leg.ends (l : Leg) : Ngap.UeIds × UInt64 × Option Nat := (l.ids, l.gnb, l.ue)

namespace Context

variable {c c' : Context} {u v k : Nat} {l : Leg} {gnb ran : UInt64} {rat : RatType}

/-! ## Legs that serve UEs -/

/-- A UE uses a leg exactly if that leg serves it. -/
def Paired (c : Context) : Prop :=
  ∀ u k, (c.ues.get? u).bind (·.leg) = some k ↔ (c.legs.get? k).bind (·.ue) = some u

theorem Paired.legOf?_eq_some_iff (h : c.Paired) :
    c.legOf? u = some (k, l) ↔ c.legs.get? k = some l ∧ l.ue = some u := by
  rw [Context.legOf?_eq_some_iff, h u k]
  constructor
  · rintro ⟨serves, there⟩
    rw [there] at serves
    exact ⟨there, serves⟩
  · rintro ⟨there, serves⟩
    rw [there]
    exact ⟨serves, rfl⟩

/-- A UE that has no leg uses none. -/
theorem Paired.uses_of_none (h : c.Paired) (legless : c.legOf? u = none) :
    (c.ues.get? u).bind (·.leg) = none := by
  rw [Option.eq_none_iff_forall_ne_some]
  intro k uses
  obtain ⟨l, there, -⟩ := Option.bind_eq_some_iff.1 ((h u k).1 uses)
  rw [Context.legOf?_eq_some_iff.2 ⟨uses, there⟩] at legless
  cases legless

theorem legOf?_of_idle (idle : c.connection u = .idle) : c.legOf? u = none := by
  unfold connection at idle
  split at idle
  · cases idle
  · rename_i legless
    exact Option.not_isSome_iff_eq_none.1 legless

theorem Paired.leg_of_idle (h : c.Paired) (idle : c.connection u = .idle) :
    (c.ues.get? u).bind (·.leg) = none :=
  h.uses_of_none (legOf?_of_idle idle)

theorem legOf?_of_unused (unused : (c.ues.get? u).bind (·.leg) = none) : c.legOf? u = none := by
  unfold legOf?
  rw [unused]
  rfl

/-- Legs and UEs point at each other, no leg serves nobody, and numbers and identifiers of legs are
not given again. -/
structure Joined (c : Context) : Prop where
  paired : c.Paired
  serves : ∀ k l, c.legs.get? k = some l → l.ue ≠ none
  numbered : c.Numbered

theorem Fresh.paired (h : c.Fresh) : c.Paired := by
  intro u k
  rw [h.legs, Table.get?_empty]
  refine iff_of_false (fun uses => ?_) nofun
  obtain ⟨x, there, leg⟩ := Option.bind_eq_some_iff.1 uses
  rw [(h.ues u x there).2.1] at leg
  cases leg

theorem Fresh.joined (h : c.Fresh) : c.Joined := by
  refine ⟨h.paired, fun k l there => ?_, h.numbered⟩
  rw [h.legs] at there
  cases there

/-! ## A leg goes -/

/-- The context without a leg and with its UE on none. -/
def unlink (c : Context) (u k : Nat) : Context :=
  { c with
    ues := c.ues.modify u fun x => { x with leg := none }
    legs := c.legs.erase k }

/-- A leg that is removed leaves the UE that it serves on none. -/
theorem Paired.removeLeg_eq (h : c.Paired) (leg : c.legOf? u = some (k, l)) :
    c.removeLeg k = c.unlink u k := by
  obtain ⟨there, serves⟩ := h.legOf?_eq_some_iff.1 leg
  obtain ⟨uses, -⟩ := Context.legOf?_eq_some_iff.1 leg
  have freed : c.ues.modify u (fun x => if x.leg = some k then { x with leg := none } else x) =
      c.ues.modify u fun x => { x with leg := none } := by
    refine Table.modify_congr fun x known => ?_
    rw [known] at uses
    exact if_pos uses
  unfold removeLeg
  rw [there]
  simp only [serves, freed]
  rfl

/-- A UE that is taken off its leg before the leg is removed ends up the same. -/
theorem removeLeg_deassociate (leg : c.legOf? u = some (k, l)) :
    (c.deassociate u).removeLeg k = c.unlink u k := by
  obtain ⟨uses, there⟩ := Context.legOf?_eq_some_iff.1 leg
  obtain ⟨x, known, uses⟩ := Option.bind_eq_some_iff.1 uses
  unfold deassociate
  rw [known]
  simp only [uses]
  unfold removeLeg unlink
  rw [Table.get?_modify_self, there, Table.modify_of_some known]
  simp only [Option.map_some, Table.erase_modify_self]

theorem Paired.freeLeg_eq (h : c.Paired) (leg : c.legOf? u = some (k, l)) :
    c.freeLeg u = c.unlink u k := by
  rw [freeLeg_of_some leg, h.removeLeg_eq leg]

/-- The two ways in which the leg of a UE is cleared come to the same. -/
theorem Paired.withoutLeg_eq (h : c.Paired) : c.withoutLeg u = c.freeLeg u := by
  unfold withoutLeg
  cases leg : c.legOf? u with
  | none => exact (freeLeg_of_none leg).symm
  | some has =>
    obtain ⟨k, l⟩ := has
    rw [if_pos Option.isSome_some, h.freeLeg_eq leg, ← removeLeg_deassociate leg]
    unfold clearConnection
    rw [(Context.legOf?_eq_some_iff.1 leg).1]

theorem Joined.unlink (h : c.Joined) (leg : c.legOf? u = some (k, l)) : (c.unlink u k).Joined := by
  obtain ⟨there, serves⟩ := h.paired.legOf?_eq_some_iff.1 leg
  obtain ⟨uses, -⟩ := Context.legOf?_eq_some_iff.1 leg
  refine ⟨fun v j => ?_, fun j l' left => ?_, ?_⟩
  · show ((c.ues.modify u _).get? v).bind _ = _ ↔ ((c.legs.erase k).get? j).bind _ = _
    rw [Table.get?_erase]
    by_cases self : v = u
    · -- The UE uses no leg, and no other leg has served it.
      have gone : ((c.ues.modify u fun x => { x with leg := none }).get? u).bind (·.leg) = none := by
        rw [Table.get?_modify_self, Option.bind_map]
        exact Option.bind_fun_none _
      subst self
      rw [gone]
      refine iff_of_false nofun fun serves' => ?_
      split at serves'
      · cases serves'
      · rename_i other
        rw [← h.paired, uses] at serves'
        exact other (Option.some.inj serves').symm
    · rw [Table.get?_modify_of_ne self, h.paired v j]
      split
      · rename_i is
        rw [is, there]
        refine iff_of_false (fun serves' => self ?_) nofun
        exact Option.some.inj (serves'.symm.trans serves)
      · exact .rfl
  · obtain ⟨l₀, before, rfl⟩ := Table.within_erase (R := Eq) (fun _ => rfl) j l' left
    exact h.serves j l₀ before
  · exact h.paired.removeLeg_eq leg ▸ h.numbered.of_drops drops_removeLeg

theorem Joined.freeLeg (h : c.Joined) : (c.freeLeg u).Joined := by
  cases leg : c.legOf? u with
  | none =>
    rw [freeLeg_of_none leg]
    exact h
  | some has =>
    rw [h.paired.freeLeg_eq leg]
    exact h.unlink leg

/-- A UE uses no leg once its own is given up. -/
theorem Paired.unused_freeLeg (h : c.Paired) : ((c.freeLeg u).ues.get? u).bind (·.leg) = none := by
  cases leg : c.legOf? u with
  | none =>
    rw [freeLeg_of_none leg]
    exact h.uses_of_none leg
  | some has =>
    rw [h.freeLeg_eq leg]
    show ((c.ues.modify u _).get? u).bind _ = _
    rw [Table.get?_modify_self, Option.bind_map]
    exact Option.bind_fun_none _

/-! ## A new leg -/

/-- The context in which an idle UE has got a leg, and is paged no longer. -/
def withLeg (c : Context) (u : Nat) (gnb ran : UInt64) (rat : RatType) : Context :=
  { c with
    ues := c.ues.modify u fun x => { x with leg := some c.nextLeg, pagingMessage := none }
    legs := c.legs.insert c.nextLeg { ids := ⟨c.nextAmfId, ran⟩, gnb, rat, ue := some u }
    nextLeg := c.nextLeg + 1
    nextAmfId := c.nextAmfId + 1
    parked := c.parked.erase u
    timers := c.timers.stop .t3513 u }

theorem legOf?_withLeg (gnb ran : UInt64) (rat : RatType) (known : c.ues.contains u = true) :
    (c.withLeg u gnb ran rat).legOf? u =
      some (c.nextLeg, { ids := ⟨c.nextAmfId, ran⟩, gnb, rat, ue := some u }) := by
  obtain ⟨x, there⟩ := Table.contains_iff.1 known
  refine Context.legOf?_eq_some_iff.2 ⟨?_, Table.get?_insert_self _ _ _⟩
  show ((c.ues.modify u _).get? u).bind _ = _
  rw [Table.get?_modify_self, there]
  rfl

end Context

/-- **A UE that uses no leg gets a new one**, and what was parked for it is taken. -/
theorem Node.context_connect_of_idle {n : Node} {c : Context} {u k : Nat} {gnb ran : UInt64}
    {rat : RatType} (room : n.context.addLeg gnb ran = some (k, c))
    (known : n.context.ues.contains u = true) (idle : (n.context.ues.get? u).bind (·.leg) = none) :
    (n.connect c u k rat).context = n.context.withLeg u gnb ran rat := by
  obtain ⟨-, rfl, rfl⟩ := Context.addLeg_eq_some_iff.1 room
  rw [context_connect, Context.freeLeg_of_none]
  · unfold Context.serve Context.associate
    rw [if_pos]
    · unfold Context.quitPaging Context.withLeg Context.modifyLeg Context.modifyUe
      simp only [Table.modify_modify, Table.modify_insert_self]
      rfl
    · rw [Bool.and_eq_true]
      refine ⟨known, ?_⟩
      show ((n.context.legs.insert _ _).modify _ _).contains _ = true
      rw [Table.contains_modify]
      exact Table.contains_insert.2 (.inl rfl)
  · exact Context.legOf?_of_unused idle

namespace Context

variable {c c' : Context} {u v k : Nat} {l : Leg} {gnb ran : UInt64} {rat : RatType}

theorem numbered_withLeg (h : c.Numbered) (known : c.ues.contains u = true)
    (unused : (c.ues.get? u).bind (·.leg) = none) (room : c.legs.size < c.maxLegs) :
    (c.withLeg u gnb ran rat).Numbered := by
  have added : ({ context := c } : Node).context.addLeg gnb ran = some (c.nextLeg, _) :=
    addLeg_eq_some_iff.2 ⟨room, rfl, rfl⟩
  exact Node.context_connect_of_idle added known unused ▸ Node.numbered_connect added h

theorem Joined.withLeg (h : c.Joined) (known : c.ues.contains u = true)
    (unused : (c.ues.get? u).bind (·.leg) = none) (room : c.legs.size < c.maxLegs) :
    (c.withLeg u gnb ran rat).Joined := by
  obtain ⟨x, known'⟩ := Table.contains_iff.1 known
  refine ⟨fun v j => ?_, fun j l there => ?_, numbered_withLeg h.numbered known unused room⟩
  · show ((c.ues.modify u _).get? v).bind _ = _ ↔ ((c.legs.insert c.nextLeg _).get? j).bind _ = _
    rw [Table.get?_insert]
    by_cases self : v = u
    · subst self
      rw [Table.get?_modify_self, known', Option.map_some, Option.bind_some, Option.some.injEq]
      split
      · rename_i is
        exact iff_of_true is.symm rfl
      · rename_i other
        rw [← h.paired, unused]
        exact iff_of_false (fun is => other is.symm) nofun
    · rw [Table.get?_modify_of_ne self]
      split
      · rename_i is
        refine iff_of_false (fun uses => ?_) fun serves => self (Option.some.inj serves).symm
        exact Nat.ne_of_lt (h.numbered.lt_of_uses uses) is
      · exact h.paired v j
  · change (c.legs.insert c.nextLeg _).get? j = some l at there
    rw [Table.get?_insert] at there
    split at there
    · cases there
      exact nofun
    · exact h.serves j l there

theorem Numbered.new (h : c.Numbered) : c.legs.get? c.nextLeg = none := by
  rw [Option.eq_none_iff_forall_ne_some]
  exact fun l there => Nat.lt_irrefl _ (h.legs _ l there).1

/-- A UE that gets a leg makes it one leg more. -/
theorem Numbered.size_withLeg (h : c.Numbered) (gnb ran : UInt64) (rat : RatType) :
    (c.withLeg u gnb ran rat).legs.size = c.legs.size + 1 := by
  have new : c.legs.contains c.nextLeg = false := by
    unfold Table.contains
    rw [h.new]
    rfl
  exact Table.size_insert_of_new new

/-- A leg that is added serves nobody yet. -/
theorem Joined.paired_addLeg (h : c.Joined) (room : c.addLeg gnb ran = some (k, c')) : c'.Paired := by
  obtain ⟨-, rfl, rfl⟩ := addLeg_eq_some_iff.1 room
  intro v j
  show _ ↔ ((c.legs.insert c.nextLeg _).get? j).bind _ = _
  rw [h.paired v j, Table.get?_insert]
  split
  · rename_i is
    rw [is, h.numbered.new]
    exact iff_of_false nofun nofun
  · exact .rfl

/-- Whether a leg is added before the former one is given up or after does not matter. -/
theorem Joined.addLeg_freeLeg (h : c.Joined) (room : c.addLeg gnb ran = some (k, c')) :
    (c.freeLeg u).addLeg gnb ran = some (k, c'.freeLeg u) := by
  have paired := h.paired_addLeg room
  obtain ⟨below, rfl, rfl⟩ := addLeg_eq_some_iff.1 room
  cases leg : c.legOf? u with
  | none =>
    rw [freeLeg_of_none leg, freeLeg_of_none, room]
    exact legOf?_of_unused (h.paired.uses_of_none leg)
  | some has =>
    obtain ⟨j, l⟩ := has
    obtain ⟨there, serves⟩ := h.paired.legOf?_eq_some_iff.1 leg
    have other : j ≠ c.nextLeg := Nat.ne_of_lt (h.numbered.legs j l there).1
    have leg' := leg
    rw [Context.legOf?_eq_some_iff] at leg'
    rw [h.paired.freeLeg_eq leg, paired.freeLeg_eq
      (Context.legOf?_eq_some_iff.2 ⟨leg'.1, (Table.get?_insert_of_ne other).trans there⟩)]
    have fewer := Table.size_erase_of_mem (Table.contains_iff.2 ⟨l, there⟩)
    refine addLeg_eq_some_iff.2 ⟨?_, rfl, ?_⟩
    · show (c.legs.erase j).size < c.maxLegs
      omega
    · unfold Context.unlink
      rw [Table.erase_insert_of_ne other]

/-- Giving up a leg does not make a UE known or unknown. -/
theorem contains_ues_freeLeg : (c.freeLeg u).ues.contains v = c.ues.contains v := by
  have ids : (c.freeLeg u).sessionIds v = c.sessionIds v := map_ues_freeLeg fun _ _ => rfl
  rw [contains_ues, contains_ues, ids]

end Context

/-- **A UE that connects has the new leg and no other**, whether it was idle or not. -/
theorem Node.context_connect_of_joined {n : Node} {c : Context} {u k : Nat} {gnb ran : UInt64}
    {rat : RatType} (h : n.context.Joined) (room : n.context.addLeg gnb ran = some (k, c))
    (known : n.context.ues.contains u = true) :
    (n.connect c u k rat).context = (n.context.freeLeg u).withLeg u gnb ran rat := by
  have room' : (n.change (·.freeLeg u)).context.addLeg gnb ran = some (k, c.freeLeg u) :=
    h.addLeg_freeLeg room
  have unused : ((n.change (·.freeLeg u)).context.ues.get? u).bind (·.leg) = none :=
    h.paired.unused_freeLeg
  have once : (c.freeLeg u).freeLeg u = c.freeLeg u :=
    Context.freeLeg_of_none (Context.legOf?_of_unused (h.paired_addLeg room).unused_freeLeg)
  have known' : (n.change (·.freeLeg u)).context.ues.contains u = true :=
    Context.contains_ues_freeLeg.trans known
  have connected : _ = (n.context.freeLeg u).withLeg u gnb ran rat :=
    context_connect_of_idle room' known' unused
  rw [context_connect, once, Context.same_freeLeg.timers] at connected
  rw [context_connect]
  exact connected

/-! ## The gauge -/

namespace Context

variable {c c' : Context} {u v k : Nat} {l : Leg} {g : UInt64}

/-- Legs and UEs point at each other, and a gauge says how many legs there are; it is far from
wrapping around. -/
structure Tallied (c : Context) (gauge : UInt64) : Prop where
  joined : c.Joined
  gauge : gauge.toNat = c.legs.size
  bounded : c.legs.size ≤ c.maxLegs
  fits : c.maxLegs < UInt64.size

/-- The leg of a UE is given up, and counted off if there was one. -/
theorem Tallied.freeLeg (h : c.Tallied g) :
    (c.freeLeg u).Tallied (if (c.legOf? u).isSome then Metrics.lower g else g) := by
  cases leg : c.legOf? u with
  | none =>
    rw [freeLeg_of_none leg]
    exact h
  | some has =>
    have there := (h.joined.paired.legOf?_eq_some_iff.1 leg).1
    have fewer := Table.size_erase_of_mem (Table.contains_iff.2 ⟨_, there⟩)
    obtain ⟨joined, gauge, bounded, fits⟩ := h
    rw [joined.paired.freeLeg_eq leg, if_pos Option.isSome_some]
    refine ⟨joined.unlink leg, ?_, ?_, fits⟩
    · show (Metrics.lower g).toNat = (c.legs.erase has.1).size
      rw [Metrics.toNat_lower]
      omega
    · show (c.legs.erase has.1).size ≤ c.maxLegs
      omega

/-- A UE that uses no leg gets one, which is counted. -/
theorem Tallied.withLeg {gnb ran : UInt64} {rat : RatType} (h : c.Tallied g)
    (known : c.ues.contains u = true) (unused : (c.ues.get? u).bind (·.leg) = none)
    (room : c.legs.size < c.maxLegs) : (c.withLeg u gnb ran rat).Tallied (g + 1) := by
  have more := h.joined.numbered.size_withLeg (u := u) gnb ran rat
  obtain ⟨joined, gauge, -, fits⟩ := h
  refine ⟨joined.withLeg known unused room, ?_, ?_, fits⟩
  · have below : g.toNat + 1 < UInt64.size := by omega
    rw [more, UInt64.toNat_add, UInt64.toNat_one, Nat.mod_eq_of_lt below, gauge]
  · show (c.withLeg u gnb ran rat).legs.size ≤ c.maxLegs
    omega

/-! ## What leaves legs alone -/

/-- The same UEs use the same legs, and the same legs lead to the same ends. -/
structure SameLinks (c c' : Context) : Prop where
  uses : ∀ u, (c'.ues.get? u).bind (·.leg) = (c.ues.get? u).bind (·.leg)
  legs : ∀ k, (c'.legs.get? k).map (·.ends) = (c.legs.get? k).map (·.ends)
  numbers : c'.legNumbers = c.legNumbers

theorem SameLinks.of_eq (ues : c'.ues = c.ues) (legs : c'.legs = c.legs)
    (numbers : c'.legNumbers = c.legNumbers) : SameLinks c c' :=
  ⟨fun _ => by rw [ues], fun _ => by rw [legs], numbers⟩

/-- Only what is known about UEs changes, and not their legs. -/
theorem SameLinks.of_ues (ues : ∀ u, (c'.ues.get? u).map (·.leg) = (c.ues.get? u).map (·.leg))
    (legs : c'.legs = c.legs) (numbers : c'.legNumbers = c.legNumbers) : SameLinks c c' :=
  ⟨fun u => uses_congr (ues u), fun _ => by rw [legs], numbers⟩

theorem SameLinks.of_names (names : c.Names c') : SameLinks c c' := by
  refine .of_ues (names.map_ues fun _ _ _ => rfl) ?_ ?_ <;> cases names <;> rfl

theorem SameLinks.of_modifyUe {f : Ue → Ue} (ues : c'.ues = c.ues.modify u f)
    (legs : c'.legs = c.legs) (numbers : c'.legNumbers = c.legNumbers)
    (same : ∀ x, (f x).leg = x.leg) : SameLinks c c' :=
  .of_ues (fun _ => ues ▸ Table.map_get?_modify same) legs numbers

theorem SameLinks.of_modifyLeg {f : Leg → Leg} (same : ∀ l, (f l).ends = l.ends) :
    SameLinks c (c.modifyLeg k f) :=
  ⟨fun _ => rfl, fun _ => Table.map_get?_modify same, rfl⟩

variable (same : SameLinks c c')
include same

theorem SameLinks.leg {l' : Leg} (there : c'.legs.get? k = some l') :
    ∃ l, c.legs.get? k = some l ∧ l'.ends = l.ends := by
  have is := same.legs k
  rw [there] at is
  obtain ⟨l, before, is⟩ := Option.map_eq_some_iff.1 is.symm
  exact ⟨l, before, is.symm⟩

theorem SameLinks.paired (h : c.Paired) : c'.Paired := by
  intro u k
  have serves : ((c'.legs.get? k).map (·.ends)).bind (·.2.2) =
      ((c.legs.get? k).map (·.ends)).bind (·.2.2) := by
    rw [same.legs]
  rw [Option.bind_map, Option.bind_map] at serves
  rw [same.uses u, h u k]
  exact Eq.congr_left serves.symm

theorem SameLinks.numbered (h : c.Numbered) : c'.Numbered := by
  have numbers := same.numbers
  unfold legNumbers at numbers
  rw [Prod.mk.injEq, Prod.mk.injEq] at numbers
  refine ⟨fun k l' there => ?_, fun u x k known leg => ?_, fun j k l m hl hm is => ?_⟩
  · obtain ⟨l, before, ends⟩ := same.leg there
    have ids : l'.ids = l.ids := congrArg (·.1) ends
    rw [numbers.1, numbers.2.1, ids]
    exact h.legs k l before
  · have uses := same.uses u
    rw [known, Option.bind_some, leg] at uses
    obtain ⟨y, before, leg⟩ := Option.bind_eq_some_iff.1 uses.symm
    rw [numbers.1]
    exact h.ues u y k before leg
  · obtain ⟨l₀, hl₀, ends⟩ := same.leg hl
    obtain ⟨m₀, hm₀, ends'⟩ := same.leg hm
    have ids : l.ids = l₀.ids := congrArg (·.1) ends
    have ids' : m.ids = m₀.ids := congrArg (·.1) ends'
    rw [ids, ids'] at is
    exact h.unique j k l₀ m₀ hl₀ hm₀ is

theorem SameLinks.joined (h : c.Joined) : c'.Joined := by
  refine ⟨same.paired h.paired, fun k l' there => ?_, same.numbered h.numbered⟩
  obtain ⟨l, before, ends⟩ := same.leg there
  have serves : l'.ue = l.ue := congrArg (·.2.2) ends
  exact serves ▸ h.serves k l before

theorem SameLinks.tallied (h : c.Tallied g) : c'.Tallied g := by
  have size : c'.legs.size = c.legs.size := by
    refine Table.size_congr fun k => ?_
    have there := congrArg Option.isSome (same.legs k)
    rwa [Option.isSome_map, Option.isSome_map] at there
  have most : c'.maxLegs = c.maxLegs := congrArg (·.2.2) same.numbers
  obtain ⟨joined, gauge, bounded, fits⟩ := h
  exact ⟨same.joined joined, size ▸ gauge, by omega, by omega⟩

end Context

/-! ## Steps -/

/-- The act gives a UE a leg or takes it off its leg. -/
def Act.rewires : Act → Bool
  | .connect _ | .disconnect _ | .detach _ => true
  | _ => false

namespace Node

variable {n n' : Node} {c : Context} {u k : Nat} {gnb ran : UInt64} {rat : RatType}

@[simp] theorem metrics_offerAll (ms : List Outbound) (n : Node) :
    (n.offerAll ms).metrics = n.metrics := by
  induction ms generalizing n with
  | nil => rfl
  | cons m ms ih => exact ih (n.offer m)

/-- The gauge of connected UEs without the leg of a UE. -/
def gaugeWithout (n : Node) (u : Nat) : UInt64 :=
  if (n.context.legOf? u).isSome then Metrics.lower n.metrics.ranUes else n.metrics.ranUes

theorem ranUes_uncountLeg (n : Node) (u : Nat) :
    (if (n.context.legOf? u).isSome then n.uncount .ranUes else n).metrics.ranUes =
      n.gaugeWithout u := by
  unfold gaugeWithout
  split <;> rfl

theorem ranUes_answer (n : Node) (u : Nat) : (n.answer u).metrics.ranUes = n.metrics.ranUes := by
  unfold answer
  split <;> rfl

/-- A UE that connects is counted, and no longer for its former leg. -/
theorem ranUes_connect (h : n.context.Joined) (room : n.context.addLeg gnb ran = some (k, c)) :
    (n.connect c u k rat).metrics.ranUes = n.gaugeWithout u + 1 := by
  have used : ∀ {c : Context}, c.Paired →
      (c.legOf? u).isSome = ((c.ues.get? u).bind (·.leg)).isSome := by
    intro c paired
    cases leg : c.legOf? u with
    | none => rw [paired.uses_of_none leg]; rfl
    | some has => rw [(Context.legOf?_eq_some_iff.1 leg).1]; rfl
  have former : (n.change fun _ => c).gaugeWithout u = n.gaugeWithout u := by
    have same : (c.legOf? u).isSome = (n.context.legOf? u).isSome := by
      rw [used h.paired, used (h.paired_addLeg room), (Context.addLeg_eq_some_iff.1 room).2.2]
    unfold gaugeWithout
    rw [Node.context_change, same]
    rfl
  rw [← former, ← ranUes_uncountLeg]
  exact ranUes_answer _ u

/-- What becomes of legs, UEs and the gauge: nothing, or a UE gives its leg up, or it gets a new
one. -/
inductive Relinks (n n' : Node) : Prop
  | kept (links : n.context.SameLinks n'.context) (gauge : n'.metrics.ranUes = n.metrics.ranUes)
  | freed (u : Nat) (links : (n.context.freeLeg u).SameLinks n'.context)
      (gauge : n'.metrics.ranUes = n.gaugeWithout u)
  | linked (u : Nat) (gnb ran : UInt64) (rat : RatType) (known : n.context.ues.contains u = true)
      (room : (n.context.freeLeg u).legs.size < (n.context.freeLeg u).maxLegs)
      (context : n'.context = (n.context.freeLeg u).withLeg u gnb ran rat)
      (gauge : n'.metrics.ranUes = n.gaugeWithout u + 1)

/-- Legs and UEs point at each other, and the gauge of connected UEs says how many legs there are. -/
def Tallied (n : Node) : Prop := n.context.Tallied n.metrics.ranUes

theorem Relinks.joined (relinks : n.Relinks n') (h : n.context.Joined) : n'.context.Joined := by
  cases relinks with
  | kept links => exact links.joined h
  | freed u links => exact links.joined h.freeLeg
  | linked u gnb ran rat known room context =>
    rw [context]
    exact h.freeLeg.withLeg (Context.contains_ues_freeLeg.trans known) h.paired.unused_freeLeg room

theorem Relinks.tallied (relinks : n.Relinks n') (h : n.Tallied) : n'.Tallied := by
  unfold Tallied
  cases relinks with
  | kept links gauge =>
    rw [gauge]
    exact links.tallied h
  | freed u links gauge =>
    rw [gauge]
    exact links.tallied h.freeLeg
  | linked u gnb ran rat known room context gauge =>
    rw [context, gauge]
    exact h.freeLeg.withLeg (Context.contains_ues_freeLeg.trans known) h.joined.paired.unused_freeLeg
      room

end Node

namespace Step

open Context

variable {a : Act} {n n' : Node}

/-- **Which UE uses which leg** changes only when a UE connects or is taken off its leg. -/
theorem sameLinks (step : Step a n n') (other : a.rewires = false) :
    SameLinks n.context n'.context := by
  cases step with
  | connect | disconnect | detach => cases other
  | tell | ask | refusePaging | repeatPaging | repeatRefused | expireRequest | stopRequest | confirm |
    confirmIdle | confirmHeld | holdCommand | dropCommand | record => exact .of_eq rfl rfl rfl
  | park | mark | setPolicy | deregister | forgetRequest =>
    exact .of_modifyUe rfl rfl rfl fun _ => rfl
  | setUp | answerSetup => exact .of_modifyLeg fun _ => rfl
  | @holdSetup _ id k =>
    have marked : SameLinks n.context (n.context.markSetup k) := .of_modifyLeg fun _ => rfl
    exact ⟨marked.uses, marked.legs, rfl⟩
  | remove session =>
    rw [Node.context_uncount, Node.context_change, removeSession_of_some session]
    exact .of_modifyUe rfl rfl rfl fun _ => rfl
  | repeatNothing _ lost =>
    obtain ⟨-, rfl⟩ | ⟨-, rfl⟩ := lost <;> exact .of_eq rfl rfl rfl
  | giveUp =>
    rw [Node.context_offerAll]
    exact .of_modifyUe rfl rfl rfl fun _ => rfl

/-- **What a step does to legs, UEs and the gauge.** -/
theorem relinks (step : Step a n n') (h : n.context.Joined) : n.Relinks n' := by
  cases rewires : a.rewires with
  | false =>
    refine .kept (step.sameLinks rewires) ?_
    cases step with
    | connect | disconnect | detach => cases rewires
    | giveUp =>
      rw [Node.metrics_offerAll]
      rfl
    | _ => rfl
  | true =>
    cases step with
    | @connect _ u k gnb ran rat c known room =>
      exact .linked u gnb ran rat known (addLeg_eq_some_iff.1 (h.addLeg_freeLeg room)).1
        (Node.context_connect_of_joined h room known) (Node.ranUes_connect h room)
    | @disconnect _ u k l leg =>
      have freed : (n.context.deassociate u).removeLeg k = n.context.freeLeg u := by
        rw [h.paired.freeLeg_eq leg, removeLeg_deassociate leg]
      refine .freed u ?_ ?_
      · rw [← freed]
        exact .of_eq rfl rfl rfl
      · unfold Node.gaugeWithout
        rw [leg]
        rfl
    | @detach _ u =>
      refine .freed u ?_ ?_
      · rw [Node.context_change, Node.context_uncountLeg, detach_eq, ← h.paired.withoutLeg_eq]
        exact .of_modifyUe rfl rfl rfl fun _ => rfl
      · exact Node.ranUes_uncountLeg n u
    | _ => cases rewires

/-- **Every step keeps legs and UEs pointing at each other.** -/
theorem joined (step : Step a n n') (h : n.context.Joined) : n'.context.Joined :=
  (step.relinks h).joined h

/-- **Every step keeps the gauge in step with the legs.** -/
theorem tallied (step : Step a n n') (h : n.Tallied) : n'.Tallied :=
  (step.relinks h.joined).tallied h

end Step

theorem Chain.tallied {A : Act → Prop} {n n' : Node} (chain : Chain A n n') (h : n.Tallied) :
    n'.Tallied :=
  chain.keeps (fun _ _ _ _ step => step.tallied) h

/-! ## Operations -/

/-- What a configuration says about the number of legs holds before the first event. -/
theorem Provisioned.maxLegs {config : Config} {c : Context} (h : Provisioned config c) :
    c.maxLegs = (config.maxUes * 2).toNat := by
  induction h with
  | start => rfl
  | addUe _ added ih =>
    obtain ⟨-, rfl⟩ := Context.eq_of_addUe added
    exact ih
  | setSupi _ u supi ih =>
    unfold Context.setSupi
    split <;> exact ih
  | setGuti _ u guti ih =>
    unfold Context.setGuti
    split <;> exact ih
  | addSession _ added ih =>
    obtain ⟨-, -, x, -, rfl⟩ := Context.eq_of_addSession added
    exact ih
  | describeUe _ _ _ ih | describeSession _ _ _ ih => exact ih

theorem Provisioned.tallied {config : Config} {c : Context} (h : Provisioned config c) :
    c.Tallied 0 := by
  have empty : c.legs.size = 0 := by
    rw [h.fresh.legs]
    rfl
  refine ⟨h.fresh.joined, empty.symm, ?_, ?_⟩
  · rw [empty]
    exact Nat.zero_le _
  · rw [h.maxLegs]
    exact UInt64.toNat_lt_size _

namespace Node.Begins

variable {n m : Node}

theorem sameLinks (begins : n.Begins m) : n.context.SameLinks m.context := by
  cases begins with
  | nothing => exact .of_eq rfl rfl rfl
  | park => exact .of_modifyUe rfl rfl rfl fun _ => rfl
  | answer u =>
    rw [context_answer]
    exact .of_modifyUe rfl rfl rfl fun _ => rfl

theorem ranUes (begins : n.Begins m) : m.metrics.ranUes = n.metrics.ranUes := by
  cases begins with
  | answer u => exact ranUes_answer n u
  | _ => rfl

end Node.Begins

namespace Operation

open Context

variable {n : Node}

/-- The operation adds a UE, a name or a session. -/
def adds : Operation → Bool
  | addUe | setSupi .. | setGuti .. | addSession .. => true
  | _ => false

/-- What is added leaves legs alone. -/
theorem sameLinks (o : Operation) (adds : o.adds = true) (known : n.context.Registered) :
    n.context.SameLinks (o.apply n).context := by
  cases o with
  | addUe =>
    refine of_addUe (P := n.context.SameLinks) (.of_eq rfl rfl rfl) ⟨fun u => ?_, fun _ => rfl, rfl⟩
    show ((n.context.ues.insert _ _).get? u).bind _ = _
    rw [Table.get?_insert]
    split
    · rename_i new
      rw [new, known.new]
      rfl
    · rfl
  | setSupi u supi => exact .of_names names_setSupi
  | setGuti u guti => exact .of_names names_setGuti
  | addSession u psi =>
    exact of_addSession (P := n.context.SameLinks) (.of_eq rfl rfl rfl) fun _ there =>
      .of_ues (fun _ => Table.map_get?_insert there rfl) rfl rfl
  | _ => cases adds

/-- The operation leaves no leg behind that serves nobody, and none that is not counted. -/
def countsLegs : Operation → Bool
  | removeUe _ | onLegs _ => false
  | _ => true

/-- An operation that counts legs comes to steps, after what leaves legs and the gauge alone. -/
theorem exists_chain (o : Operation) (counts : o.countsLegs = true) (known : n.context.Registered) :
    ∃ m : Node, n.context.SameLinks m.context ∧ m.metrics.ranUes = n.metrics.ranUes ∧
      Chain (fun _ => True) m (o.apply n) := by
  cases o with
  | removeUe | onLegs => cases counts
  | addUe => exact ⟨_, sameLinks .addUe rfl known, rfl, .refl⟩
  | setSupi u supi => exact ⟨_, sameLinks (.setSupi u supi) rfl known, rfl, .refl⟩
  | setGuti u guti => exact ⟨_, sameLinks (.setGuti u guti) rfl known, rfl, .refl⟩
  | addSession u psi => exact ⟨_, sameLinks (.addSession u psi) rfl known, rfl, .refl⟩
  | removeSession id =>
    refine ⟨(removeSession id).apply n, ?_, rfl, .refl⟩
    show n.context.SameLinks (n.context.removeSession id)
    cases session : n.context.sessions.get? id with
    | none =>
      rw [removeSession_of_none session]
      exact .of_eq rfl rfl rfl
    | some s =>
      rw [removeSession_of_some session]
      exact .of_modifyUe rfl rfl rfl fun _ => rfl
  | handle | perform | page | answer =>
    exact of_drives (P := fun n' => ∃ m : Node, n.context.SameLinks m.context ∧
      m.metrics.ranUes = n.metrics.ranUes ∧ Chain (fun _ => True) m n') rfl fun begins chain =>
        ⟨_, begins.sameLinks, begins.ranUes, chain⟩

/-- **Every operation keeps legs, UEs and the gauge in step**, but for the removal of a UE and
operations on legs alone. -/
theorem tallied (o : Operation) (counts : o.countsLegs = true) (known : n.context.Registered)
    (h : n.Tallied) : (o.apply n).Tallied := by
  obtain ⟨m, same, gauge, chain⟩ := o.exists_chain counts known
  refine chain.tallied ?_
  unfold Node.Tallied
  rw [gauge]
  exact same.tallied h

theorem joined (o : Operation) (counts : o.countsLegs = true) (known : n.context.Registered)
    (h : n.context.Joined) : (o.apply n).context.Joined := by
  obtain ⟨m, same, -, chain⟩ := o.exists_chain counts known
  exact chain.keeps (P := fun m => m.context.Joined) (fun _ _ _ _ step => step.joined)
    (same.joined h)

end Operation

/-! ## Legs and connected UEs -/

namespace Context

variable {c : Context} {u : Nat}

/-- The UEs that are connected. -/
def connectedUes (c : Context) : List Nat := c.ues.keys.filter fun u => c.connection u = .connected

theorem connection_eq_connected : c.connection u = .connected ↔ (c.legOf? u).isSome = true := by
  unfold connection
  split
  · rename_i has
    exact iff_of_true rfl has
  · rename_i legless
    exact iff_of_false nofun legless

theorem connection_of_leg {k : Nat} {l : Leg} (leg : c.legOf? u = some (k, l)) :
    c.connection u = .connected :=
  connection_eq_connected.2 (Option.isSome_iff_exists.2 ⟨_, leg⟩)

theorem contains_of_leg {k : Nat} {l : Leg} (leg : c.legOf? u = some (k, l)) :
    c.ues.contains u = true := by
  obtain ⟨x, known, -⟩ := Option.bind_eq_some_iff.1 (legOf?_eq_some_iff.1 leg).1
  exact Table.contains_iff.2 ⟨x, known⟩

theorem mem_connectedUes : u ∈ c.connectedUes ↔ ∃ k l, c.legOf? u = some (k, l) := by
  unfold connectedUes
  rw [List.mem_filter, decide_eq_true_eq, connection_eq_connected, Option.isSome_iff_exists,
    Table.mem_keys, Prod.exists]
  exact and_iff_right_of_imp fun ⟨_, _, leg⟩ => contains_of_leg leg

/-- **There are as many legs as connected UEs**: each leg is the one of the UE that it serves. -/
theorem Joined.size_legs (h : c.Joined) : c.legs.size = c.connectedUes.length := by
  -- The legs are those that the connected UEs use.
  have nodup : (c.connectedUes.filterMap fun u => (c.ues.get? u).bind (·.leg)).Nodup := by
    refine (Table.nodup_keys.filter _).filterMap fun u v k uses uses' => ?_
    exact Option.some.inj (((h.paired u k).1 uses).symm.trans ((h.paired v k).1 uses'))
  rw [Table.size_eq_length nodup fun k => ?_, List.filterMap_length_eq_length]
  · intro u connected
    obtain ⟨k, l, leg⟩ := mem_connectedUes.1 connected
    rw [(Context.legOf?_eq_some_iff.1 leg).1]
    rfl
  · rw [List.mem_filterMap, Table.contains_iff]
    constructor
    · rintro ⟨u, -, uses⟩
      obtain ⟨l, there, -⟩ := Option.bind_eq_some_iff.1 ((h.paired u k).1 uses)
      exact ⟨l, there⟩
    · rintro ⟨l, there⟩
      obtain ⟨u, serves⟩ := Option.ne_none_iff_exists'.1 (h.serves k l there)
      have leg := h.paired.legOf?_eq_some_iff.2 ⟨there, serves⟩
      exact ⟨u, mem_connectedUes.2 ⟨k, l, leg⟩, (Context.legOf?_eq_some_iff.1 leg).1⟩

end Context

/-- **Legs match the connected UEs**, and the gauge says how many there are. -/
structure Node.Matched (n : Node) : Prop where
  /-- A leg serves a UE that is known and uses it. -/
  serves : ∀ k l, n.context.legs.get? k = some l →
    ∃ u x, l.ue = some u ∧ n.context.ues.get? u = some x ∧ x.leg = some k
  /-- A UE that is connected is served by its leg. -/
  served : ∀ u, n.context.connection u = .connected →
    ∃ k l, n.context.legOf? u = some (k, l) ∧ l.ue = some u
  /-- No two UEs use the same leg. -/
  apart : ∀ u v x y k, n.context.ues.get? u = some x → n.context.ues.get? v = some y →
    x.leg = some k → y.leg = some k → u = v
  /-- No two legs have the same identifier. -/
  distinct : ∀ j k l m, n.context.legs.get? j = some l → n.context.legs.get? k = some m →
    l.ids.amf = m.ids.amf → j = k
  counted : n.context.legs.size = n.context.connectedUes.length
  gauged : n.metrics.ranUes.toNat = n.context.connectedUes.length

theorem Node.Tallied.matched {n : Node} (h : n.Tallied) : n.Matched where
  serves k l there := by
    obtain ⟨u, serves⟩ := Option.ne_none_iff_exists'.1 (h.joined.serves k l there)
    have uses := (h.joined.paired u k).2 (by rw [there]; exact serves)
    obtain ⟨x, known, leg⟩ := Option.bind_eq_some_iff.1 uses
    exact ⟨u, x, serves, known, leg⟩
  served u connected := by
    obtain ⟨⟨k, l⟩, leg⟩ :=
      Option.isSome_iff_exists.1 (Context.connection_eq_connected.1 connected)
    exact ⟨k, l, leg, (h.joined.paired.legOf?_eq_some_iff.1 leg).2⟩
  apart u v x y k hx hy used used' := by
    have serves := (h.joined.paired u k).1 (by rw [hx]; exact used)
    have serves' := (h.joined.paired v k).1 (by rw [hy]; exact used')
    exact Option.some.inj (serves.symm.trans serves')
  distinct := h.joined.numbered.unique
  counted := h.joined.size_legs
  gauged := h.gauge.trans h.joined.size_legs

namespace Operation

/-- Legs, UEs and the gauge stay in step from a context that was set up and a gauge of zero. -/
theorem run_tallied {config : Config} {c : Context} (setUp : Provisioned config c)
    {metrics : Metrics} (zero : metrics.ranUes = 0) (links : Links) (os : List Operation)
    (counts : ∀ o ∈ os, o.countsLegs = true) :
    (run os { context := c, metrics, links }).Tallied := by
  have start : Node.Tallied { context := c, metrics, links } := by
    unfold Node.Tallied
    rw [zero]
    exact setUp.tallied
  have known : c.Registered := fun u there => by
    obtain ⟨x, there⟩ := Table.contains_iff.1 there
    exact (setUp.fresh.ues u x there).1
  exact (run_keeps_of_forall (P := fun n => n.context.Registered ∧ n.Tallied)
    (fun o _ counts h => ⟨o.registered h.1, o.tallied counts h.1 h.2⟩) counts ⟨known, start⟩).2

/-- **Legs match the connected UEs after every run.** From a context that was set up and a gauge of
zero, events are dealt with in any order, procedures carried out, and UEs and sessions added beside
them, whatever the transports accept; only a UE that is removed, and operations on legs alone, are
left out. -/
theorem run_matched {config : Config} {c : Context} (setUp : Provisioned config c)
    {metrics : Metrics} (zero : metrics.ranUes = 0) (links : Links) (os : List Operation)
    (counts : ∀ o ∈ os, o.countsLegs = true) :
    (run os { context := c, metrics, links }).Matched :=
  (run_tallied setUp zero links os counts).matched

set_option maxRecDepth 4000 in
/-- The hypotheses are satisfiable: two UEs connect, one of them anew, and the leg of the other goes. -/
theorem run_matched_oneSession :
    let os : List Operation := [.handle (.connected 1 3 7 .nr), .addUe,
      .handle (.connected 2 3 8 .nr), .handle (.connected 1 3 9 .nr), .handle (.released 2)]
    let n := run os { context := Context.oneSession }
    (∀ o ∈ os, o.countsLegs = true) ∧ n.Matched ∧ n.context.connectedUes = [1] := by
  have counts : ∀ o ∈ ([.handle (.connected 1 3 7 .nr), .addUe, .handle (.connected 2 3 8 .nr),
      .handle (.connected 1 3 9 .nr), .handle (.released 2)] : List Operation),
      o.countsLegs = true := by simp [countsLegs]
  exact ⟨counts, run_matched provisioned_oneSession rfl {} _ counts, by decide⟩

end Operation
end Amf
