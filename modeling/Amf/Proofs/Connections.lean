import Amf.Proofs.Sessions

/-!
# Connections and messages

Only a new connection gives a UE a leg, under a number and an identifier that no leg had before
(`Step.drops`, `Step.numbered`); and what each step hands to the transports (`Step.hands`): a
message on a leg is made for that leg, unless it is a setup request that was held back, and only a
paging that is given up is reported.
-/

namespace Amf

/-- The act makes a setup on a leg, or gives a UE a new leg. -/
def Act.changesLegs : Act → Bool
  | .setUp _ | .holdSetup _ | .connect _ => true
  | _ => false

/-- What an act may hand to a transport in a state. -/
def Act.MayOffer (a : Act) (n : Node) : Outbound → Prop
  | .radio (.toLeg _ ids pdu) =>
    (∃ r : Ngap.Request, pdu = r.octets ids ∧ (r.isSetup = true → ∃ id, a = .setUp id)) ∨
      ∃ id s, a = .confirm id ∧ n.context.sessions.get? id = some s ∧ s.heldSetup = some pdu
  | .radio (.paging u _) => (∃ p, a = .park u p) ∨ a = .refusePaging u ∨ a = .repeatPaging u
  | .peer q => q.isReport = true → ∃ u, a = .giveUp u

variable {a : Act} {n n' : Node}

namespace Context

variable {c c' : Context} {u k : Nat}

/-- Numbers and identifiers of legs that are not given again. -/
structure Numbered (c : Context) : Prop where
  /-- The legs and their identifiers. -/
  legs : ∀ k l, c.legs.get? k = some l → k < c.nextLeg ∧ l.ids.amf < c.nextAmfId
  /-- The legs that UEs use. -/
  ues : ∀ u x k, c.ues.get? u = some x → x.leg = some k → k < c.nextLeg
  /-- No two legs have the same identifier. -/
  unique : ∀ j k l m, c.legs.get? j = some l → c.legs.get? k = some m → l.ids.amf = m.ids.amf → j = k

/-- A leg that a UE uses has a number that was given. -/
theorem Numbered.lt_of_uses (h : Numbered c) (uses : (c.ues.get? u).bind (·.leg) = some k) :
    k < c.nextLeg := by
  obtain ⟨x, known, leg⟩ := Option.bind_eq_some_iff.1 uses
  exact h.ues u x k known leg

/-- Legs that keep their identifiers keep them apart, if no number is used up. -/
theorem Numbered.of_within (legs : Table.Within (fun l m => m.ids = l.ids) c.legs c'.legs)
    (ues : Table.Within Ue.KeepsLeg c.ues c'.ues) (numbers : c'.legNumbers = c.legNumbers)
    (h : Numbered c) : Numbered c' := by
  unfold legNumbers at numbers
  rw [Prod.mk.injEq, Prod.mk.injEq] at numbers
  constructor
  · intro k l hl
    obtain ⟨l₀, h₀, ids⟩ := legs k l hl
    rw [numbers.1, numbers.2.1, ids]
    exact h.legs k l₀ h₀
  · intro u y k hy hk
    obtain ⟨x, hx, same | gone⟩ := ues u y hy
    · rw [numbers.1]
      exact h.ues u x k hx (same ▸ hk)
    · rw [gone] at hk
      cases hk
  · intro j k l m hl hm same
    obtain ⟨l₀, hl₀, ids⟩ := legs j l hl
    obtain ⟨m₀, hm₀, ids'⟩ := legs k m hm
    rw [ids, ids'] at same
    exact h.unique j k l₀ m₀ hl₀ hm₀ same

theorem Numbered.of_drops (drops : DropsLegs c c') (h : Numbered c) : Numbered c' :=
  h.of_within (drops.legs.mono fun _ _ same => same.1) drops.ues drops.numbers

/-- A leg that is added gets the numbers that come next. -/
theorem Numbered.addLeg {gnb ran : UInt64} (h : Numbered c) (room : c.addLeg gnb ran = some (k, c')) :
    Numbered c' := by
  obtain ⟨-, rfl, rfl⟩ := addLeg_eq_some_iff.1 room
  have leg : ∀ j l, (c.legs.insert c.nextLeg { ids := ⟨c.nextAmfId, ran⟩, gnb }).get? j = some l →
      (j = c.nextLeg ∧ l.ids.amf = c.nextAmfId) ∨ c.legs.get? j = some l := by
    intro j l there
    rw [Table.get?_insert] at there
    split at there
    · rename_i is
      cases there
      exact .inl ⟨is, rfl⟩
    · exact .inr there
  refine ⟨fun j l there => ?_, fun v x j known uses => ?_, fun i j l m hl hm same => ?_⟩
  · show j < c.nextLeg + 1 ∧ l.ids.amf < c.nextAmfId + 1
    obtain ⟨rfl, new⟩ | before := leg j l there
    · omega
    · have below := h.legs j l before
      omega
  · exact Nat.lt_succ_of_lt (h.ues v x j known uses)
  · obtain ⟨rfl, new⟩ | before := leg i l hl <;> obtain ⟨rfl, new'⟩ | before' := leg j m hm
    · rfl
    · have below := h.legs j m before'
      omega
    · have below := h.legs i l before
      omega
    · exact h.unique i j l m before before' same

/-- A UE is put on a leg whose number was given. -/
theorem Numbered.associate (h : Numbered c) : Numbered (c.associate u k) := by
  unfold Context.associate
  split
  · rename_i both
    rw [Bool.and_eq_true] at both
    obtain ⟨l, there⟩ := Table.contains_iff.1 both.2
    have legs : Table.Within (fun l m => m.ids = l.ids) c.legs
        (c.legs.modify k fun l => { l with ue := some u }) := Table.within_modify (fun _ => rfl) fun _ => rfl
    have kept : Numbered { c with legs := c.legs.modify k fun l => { l with ue := some u } } :=
      h.of_within legs (.refl Ue.KeepsLeg.refl) rfl
    refine ⟨kept.legs, fun v y j known uses => ?_, kept.unique⟩
    change (c.ues.modify u fun x => { x with leg := some k }).get? v = some y at known
    rw [Table.get?_modify] at known
    split at known
    · obtain ⟨x, -, rfl⟩ := Option.map_eq_some_iff.1 known
      cases uses
      exact (h.legs k l there).1
    · exact h.ues v y j known uses
  · exact h

/-- A mark on a leg does not change its number and identifier. -/
theorem Numbered.markSetup (h : Numbered c) (leg : Nat) : Numbered (c.markSetup leg) :=
  h.of_within (Table.within_modify (fun _ => rfl) fun _ => rfl) (.refl Ue.KeepsLeg.refl) rfl

/-- The setup request that a session holds back, on the leg that its UE has. -/
def setupsHeld (c : Context) (s : Session) : List Outbound :=
  match s.heldSetup, c.legOf? s.ue with
  | some pdu, some (_, l) => [.radio (.toLeg l.gnb l.ids pdu)]
  | _, _ => []

theorem legOf?_modifyLeg {f : Leg → Leg} {leg : Nat} :
    (c.modifyLeg leg f).legOf? u = none ↔ c.legOf? u = none := by
  unfold legOf?
  rw [Option.bind_eq_none_iff, Option.bind_eq_none_iff]
  refine forall_congr' fun k => imp_congr_right fun _ => ?_
  rw [Option.map_eq_none_iff, Option.map_eq_none_iff, ← Option.not_isSome_iff_eq_none,
    ← Option.not_isSome_iff_eq_none]
  exact not_congr (by rw [show ((c.modifyLeg leg f).legs.get? k).isSome = (c.legs.get? k).isSome from
    Table.contains_modify])

end Context

/-! ## A new leg -/

namespace Node

variable {c : Context} {u k : Nat} {gnb ran : UInt64} {rat : RatType}

/-- A new connection hands nothing to the transports by itself. -/
theorem links_connect : (n.connect c u k rat).links = n.links := by
  unfold connect answer relocate
  split <;> split <;> rfl

/-- The legs after a new connection: the new one, and some of those before. -/
theorem within_connect {R : Leg → Leg → Prop} (allows : Leg.Allows R)
    (room : n.context.addLeg gnb ran = some (k, c)) {j : Nat} {l : Leg}
    (hl : (n.connect c u k rat).context.legs.get? j = some l) :
    (j = k ∧ R { ids := ⟨n.context.nextAmfId, ran⟩, gnb } l) ∨
      j ≠ k ∧ ∃ l₀, n.context.legs.get? j = some l₀ ∧ R l₀ l := by
  obtain ⟨-, rfl, rfl⟩ := Context.addLeg_eq_some_iff.1 room
  rw [context_connect] at hl
  obtain ⟨l₀, h₀, same⟩ := Table.Within.trans allows.compose (Context.within_freeLeg allows)
    (Context.within_serve allows) j l hl
  rw [Table.get?_insert] at h₀
  split at h₀
  · rename_i is
    cases h₀
    exact .inl ⟨is, same⟩
  · rename_i other
    exact .inr ⟨other, l₀, h₀, same⟩

theorem legs_connect (room : n.context.addLeg gnb ran = some (k, c)) {j : Nat} {l : Leg}
    (hl : (n.connect c u k rat).context.legs.get? j = some l) :
    (j = k ∧ Leg.Same { ids := ⟨n.context.nextAmfId, ran⟩, gnb } l) ∨
      j ≠ k ∧ ∃ l₀, n.context.legs.get? j = some l₀ ∧ l₀.Same l :=
  within_connect Leg.allows_same room hl

/-- The UEs after a new connection: the one that connects may use the new leg, and every one keeps
its leg or gives it up. -/
theorem ues_connect (room : n.context.addLeg gnb ran = some (k, c)) {v : Nat} {y : Ue}
    (hy : (n.connect c u k rat).context.ues.get? v = some y) :
    (v = u ∧ y.leg = some k) ∨ ∃ x, n.context.ues.get? v = some x ∧ x.KeepsLeg y := by
  obtain ⟨-, rfl, rfl⟩ := Context.addLeg_eq_some_iff.1 room
  rw [context_connect] at hy
  obtain ⟨z, hz, paged⟩ := Table.within_modify (R := fun x y => y.leg = x.leg) (fun _ => rfl)
    (fun _ => rfl) v y hy
  obtain ⟨is, used⟩ | hz := Context.ues_serve hz
  · exact .inl ⟨is, paged.trans used⟩
  · obtain ⟨x, hx, kept⟩ := Context.drops_freeLeg.ues v z hz
    refine .inr ⟨x, hx, ?_⟩
    unfold Ue.KeepsLeg
    rw [paged]
    exact kept

/-- Only the UE that connects may use the new leg, and none uses another one anew. -/
theorem uses_connect (room : n.context.addLeg gnb ran = some (k, c)) {v j : Nat}
    (uses : ((n.connect c u k rat).context.ues.get? v).bind (·.leg) = some j) :
    (v = u ∧ j = k) ∨ (n.context.ues.get? v).bind (·.leg) = some j := by
  obtain ⟨y, hy, hj⟩ := Option.bind_eq_some_iff.1 uses
  obtain ⟨is, used⟩ | ⟨x, hx, same | gone⟩ := ues_connect room hy
  · exact .inl ⟨is, Option.some.inj (hj.symm.trans used)⟩
  · rw [hx]
    exact .inr (same.symm.trans hj)
  · rw [gone] at hj
    cases hj

theorem legNumbers_connect (room : n.context.addLeg gnb ran = some (k, c)) :
    (n.connect c u k rat).context.legNumbers =
      (n.context.nextLeg + 1, n.context.nextAmfId + 1, n.context.maxLegs) := by
  obtain ⟨-, rfl, rfl⟩ := Context.addLeg_eq_some_iff.1 room
  rw [context_connect]
  exact Context.legNumbers_serve.trans Context.drops_freeLeg.numbers

/-- Numbers and identifiers are not given again. -/
theorem numbered_connect (room : n.context.addLeg gnb ran = some (k, c)) (h : n.context.Numbered) :
    (n.connect c u k rat).context.Numbered := by
  have freed : (c.freeLeg u).Numbered := (h.addLeg room).of_drops Context.drops_freeLeg
  have refreshed : ((c.freeLeg u).modifyLeg k fun l => { l with rat }).Numbered :=
    freed.of_within (Table.within_modify (fun _ => rfl) fun _ => rfl) (.refl Ue.KeepsLeg.refl) rfl
  have quits : Context.DropsLegs ((c.freeLeg u).serve u k rat)
      (((c.freeLeg u).serve u k rat).quitPaging u (c.timers.stop .t3513 u)) :=
    .of_modifyUe rfl rfl rfl fun _ => rfl
  rw [context_connect]
  exact .of_drops quits refreshed.associate

/-- **The UE that connects has the new leg**, on which no setup was made yet. -/
theorem legOf?_connect (h : n.context.Numbered) (known : n.context.ues.contains u = true)
    (room : n.context.addLeg gnb ran = some (k, c)) :
    ∃ l, (n.connect c u k rat).context.legOf? u = some (k, l) ∧
      Leg.Same { ids := ⟨n.context.nextAmfId, ran⟩, gnb } l := by
  obtain ⟨-, is, added⟩ := Context.addLeg_eq_some_iff.1 room
  -- The former leg of the UE is not the new one, so the new one is still there.
  have stays : (c.freeLeg u).legs.contains k = true := by
    have new : c.legs.get? k = some { ids := ⟨n.context.nextAmfId, ran⟩, gnb } := by
      rw [added, is]
      exact Table.get?_insert_self _ _ _
    unfold Context.freeLeg
    split
    · rename_i former _ used
      obtain ⟨number, -⟩ := Context.legOf?_eq_some_iff.1 used
      rw [added] at number
      have below := h.lt_of_uses number
      have other : k ≠ former := by omega
      rw [Context.legs_removeLeg, Table.contains_iff]
      exact ⟨_, (Table.get?_erase_of_ne other).trans new⟩
    · exact Table.contains_iff.2 ⟨_, new⟩
  have known : (c.freeLeg u).ues.contains u = true := by
    have same : ((c.freeLeg u).ues.get? u).map (fun _ => ()) =
        (n.context.ues.get? u).map fun _ => () := by
      rw [Context.map_ues_freeLeg (fun _ _ => rfl), added]
    unfold Table.contains at known ⊢
    rw [← Option.isSome_map (f := fun _ => ()), same, Option.isSome_map, known]
  have number : (((n.connect c u k rat).context.ues.get? u).bind (·.leg)) = some k := by
    have served : (((c.freeLeg u).serve u k rat).ues.get? u).bind (·.leg) = some k :=
      Context.legNumber_serve known stays
    rw [context_connect]
    show ((Table.get? (Table.modify _ u _) u).bind _) = _
    rw [Table.get?_modify_self]
    obtain ⟨x, hx, hk⟩ := Option.bind_eq_some_iff.1 served
    rw [hx]
    exact hk
  have served : ((c.freeLeg u).serve u k rat).legs.contains k = true :=
    Context.contains_legs_serve.trans stays
  obtain ⟨l, hl⟩ := Table.contains_iff.1 served
  have hl : (n.connect c u k rat).context.legs.get? k = some l := by
    rw [context_connect]
    exact hl
  refine ⟨l, Context.legOf?_eq_some_iff.2 ⟨number, hl⟩, ?_⟩
  obtain ⟨-, same⟩ | ⟨other, -⟩ := legs_connect room hl
  · exact same
  · exact absurd rfl other

/-- No other UE gets a leg. -/
theorem idle_connect {v : Nat} (h : n.context.Numbered) (other : v ≠ u)
    (room : n.context.addLeg gnb ran = some (k, c)) (idle : n.context.legOf? v = none) :
    (n.connect c u k rat).context.legOf? v = none := by
  rw [Option.eq_none_iff_forall_not_mem]
  rintro ⟨j, l⟩ has
  obtain ⟨number, hl⟩ := Context.legOf?_eq_some_iff.1 has
  obtain ⟨is, -⟩ | before := uses_connect room number
  · exact other is
  · have below : j < n.context.nextLeg := h.lt_of_uses before
    obtain ⟨is, -⟩ | ⟨-, l₀, h₀, -⟩ := legs_connect room hl
    · rw [is, (Context.addLeg_eq_some_iff.1 room).2.1] at below
      exact Nat.lt_irrefl _ below
    · have used : n.context.legOf? v = some (j, l₀) := Context.legOf?_eq_some_iff.2 ⟨before, h₀⟩
      rw [idle] at used
      cases used

end Node

namespace Step

open Context

/-- **Legs are dropped at most**, but for a new connection; and a setup marks its leg. -/
theorem drops (step : Step a n n') (other : a.changesLegs = false) :
    DropsLegs n.context n'.context := by
  cases step with
  | setUp | holdSetup | connect => cases other
  | tell | ask | refusePaging | repeatPaging | repeatRefused | expireRequest | stopRequest | confirm |
    confirmIdle | confirmHeld | holdCommand | dropCommand | record => exact .of_eq rfl rfl rfl
  | park | mark | setPolicy | deregister | forgetRequest =>
    exact .of_modifyUe rfl rfl rfl fun _ => rfl
  | answerSetup =>
    exact ⟨Table.within_modify Leg.Same.refl fun _ => ⟨rfl, rfl, rfl⟩, .refl Ue.KeepsLeg.refl, rfl⟩
  | remove session =>
    rw [Node.context_uncount, Node.context_change, removeSession_of_some session]
    exact .of_modifyUe rfl rfl rfl fun _ => rfl
  | repeatNothing _ lost =>
    obtain ⟨-, rfl⟩ | ⟨-, rfl⟩ := lost <;> exact .of_eq rfl rfl rfl
  | giveUp =>
    rw [Node.context_offerAll]
    exact .of_modifyUe rfl rfl rfl fun _ => rfl
  | disconnect => exact drops_deassociate.trans drops_removeLeg
  | @detach _ u =>
    have detached : DropsLegs (n.context.withoutLeg u) (Relocation.detach n.context u) := by
      rw [detach_eq]
      exact .of_modifyUe rfl rfl rfl fun _ => rfl
    rw [Node.context_change, Node.context_uncountLeg]
    exact drops_withoutLeg.trans detached

/-- **Numbers and identifiers of legs are not given again.** -/
theorem numbered (step : Step a n n') (h : n.context.Numbered) : n'.context.Numbered := by
  cases changes : a.changesLegs with
  | false => exact h.of_drops (step.drops changes)
  | true =>
    cases step with
    | setUp => exact h.markSetup _
    | holdSetup => exact .of_drops (c := n.context.markSetup _) (.of_eq rfl rfl rfl) (h.markSetup _)
    | connect known room => exact Node.numbered_connect room h
    | _ => cases changes

/-- How many legs there may be does not change. -/
theorem maxLegs (step : Step a n n') : n'.context.maxLegs = n.context.maxLegs := by
  cases changes : a.changesLegs with
  | false => exact congrArg (·.2.2) (step.drops changes).numbers
  | true =>
    cases step with
    | setUp | holdSetup => rfl
    | connect known room => exact congrArg (·.2.2) (Node.legNumbers_connect room)
    | _ => cases changes

/-- **Only its own connection gives a UE a leg.** -/
theorem idle {v : Nat} (step : Step a n n') (h : n.context.Numbered) (other : a ≠ .connect v)
    (idle : n.context.legOf? v = none) : n'.context.legOf? v = none := by
  cases changes : a.changesLegs with
  | false => exact (step.drops changes).idle idle
  | true =>
    cases step with
    | setUp | holdSetup => exact legOf?_modifyLeg.2 idle
    | connect known room => exact Node.idle_connect h (fun is => other (is ▸ rfl)) room idle
    | _ => cases changes

/-- Where there is no room for a leg, no UE ever has one. -/
theorem legless (step : Step a n n') (none : n.context.maxLegs = 0) (h : n.context.Numbered)
    (idle : ∀ u, n.context.legOf? u = .none) (u : Nat) : n'.context.legOf? u = .none := by
  refine step.idle h ?_ (idle u)
  rintro rfl
  cases step with
  | connect known room =>
    obtain ⟨below, -⟩ := addLeg_eq_some_iff.1 room
    omega

/-! ## Messages -/

/-- **What a step hands to the transports**, in order. -/
theorem hands (step : Step a n n') :
    ∃ ms, n'.links = (n.offerAll ms).links ∧ ∀ m ∈ ms, a.MayOffer n m := by
  have nothing : ∃ ms, n.links = (n.offerAll ms).links ∧ ∀ m ∈ ms, a.MayOffer n m :=
    ⟨[], rfl, fun _ h => absurd h List.not_mem_nil⟩
  have one : ∀ m, n'.links = n.links.offer m → a.MayOffer n m →
      ∃ ms, n'.links = (n.offerAll ms).links ∧ ∀ m ∈ ms, a.MayOffer n m := by
    intro m is may
    refine ⟨[m], is, fun m' mem => ?_⟩
    rw [List.mem_singleton.1 mem]
    exact may
  cases step with
  | @tell _ u k l r leg plain => exact one (l.message r) rfl (.inl ⟨r, rfl, fun h => by rw [plain] at h; cases h⟩)
  | ask plain => exact one (.peer _) rfl fun h => by rw [plain] at h; cases h
  | setUp => exact one (.radio (.toLeg _ _ _)) rfl (.inl ⟨_, rfl, fun _ => ⟨_, rfl⟩⟩)
  | confirmHeld session held => exact one (.radio (.toLeg _ _ _)) rfl (.inr ⟨_, _, rfl, session, held⟩)
  | park => exact one (.radio (.paging _ _)) rfl (.inl ⟨_, rfl⟩)
  | refusePaging => exact one (.radio (.paging _ _)) rfl (.inr (.inl rfl))
  | repeatPaging | repeatRefused => exact one (.radio (.paging _ _)) rfl (.inr (.inr rfl))
  | repeatNothing _ lost => obtain ⟨-, rfl⟩ | ⟨-, rfl⟩ := lost <;> exact nothing
  | giveUp =>
    refine ⟨_, Node.links_offerAll_congr _ rfl, fun m mem => ?_⟩
    unfold reports Parked.reports at mem
    split at mem
    · cases mem
    · split at mem
      · cases mem
      · rw [List.mem_singleton.1 mem]
        exact fun _ => ⟨_, rfl⟩
  | connect =>
    rw [Node.links_connect]
    exact nothing
  | detach =>
    rw [Node.links_change]
    split <;> exact nothing
  | _ => exact nothing

/-- What the transports were handed before stands first. -/
theorem offers (step : Step a n n') :
    ∃ ms, n'.links.offered = n.links.offered ++ ms ∧ ∀ m ∈ ms, a.MayOffer n m := by
  obtain ⟨ms, links, may⟩ := step.hands
  exact ⟨ms, links ▸ Node.offered_offerAll ms n, may⟩

/-- **The confirmation of a session hands over the setup request that it holds back**, if its UE has a
leg. -/
theorem offered_confirm {id : Nat} {s : Session} (step : Step (.confirm id) n n')
    (session : n.context.sessions.get? id = some s) :
    n'.links.offered = n.links.offered ++ n.context.setupsHeld s := by
  unfold setupsHeld
  cases step with
  | confirm there held =>
    rw [session] at there
    cases there
    rw [held, List.append_nil]
    rfl
  | confirmIdle there held idle =>
    rw [session] at there
    cases there
    rw [held, idle, List.append_nil]
    rfl
  | confirmHeld there held leg =>
    rw [session] at there
    cases there
    rw [held, leg]
    exact Links.offered_offer _ _

end Step
end Amf
