import Amf.Proofs.Legs

/-!
# Sessions and their UEs

The sessions of a UE are listed by the UE, each session names its UE, and no two sessions of a UE
have the same identity (`Context.Listed`); so the session that is found by an identity is the only
one of the UE that has it (`Context.Listed.findSession?_eq_some_iff`). Sessions go one at a time and
none are added, and one that is confirmed stays so (`Step.sessions_within`).
-/

namespace Amf

/-- The UE of a session and its identity there, which never change. -/
def Session.key (s : Session) : Nat × UInt8 := (s.ue, s.psi)

/-- The same session, at most confirmed since. -/
def Session.Ages (s t : Session) : Prop := t.key = s.key ∧ (s.confirmed = true → t.confirmed = true)

theorem Session.Ages.refl (s : Session) : s.Ages s := ⟨rfl, id⟩

theorem Session.Ages.trans (s t r : Session) (first : s.Ages t) (second : t.Ages r) : s.Ages r :=
  ⟨second.1.trans first.1, fun confirmed => second.2 (first.2 confirmed)⟩

/-- What acts do to a session stays within a relation, but for a setup request that is held back. -/
structure Session.Allows (R : Session → Session → Prop) : Prop where
  self : ∀ s, R s s
  compose : ∀ s t r, R s t → R t r → R s r
  confirm : ∀ s uri smRef, R s { s with smUri := some uri, smRef := some smRef }
  release : ∀ s, R s { s with heldSetup := none }
  command : ∀ s command, R s { s with heldCommand := command }
  record : ∀ s i, R s (s.record i)

theorem Session.allows_ages : Session.Allows Session.Ages where
  self := .refl
  compose := .trans
  confirm _ _ _ := ⟨rfl, fun _ => rfl⟩
  release _ := ⟨rfl, id⟩
  command _ _ := ⟨rfl, id⟩
  record _ i := by cases i <;> exact ⟨rfl, id⟩

namespace Context

variable {c c' : Context} {u v id j : Nat} {psi : UInt8}

/-- The session that is found is one of the UE, and has the identity. -/
theorem exists_of_findSession? (found : c.findSession? u psi = some id) :
    ∃ x s, c.ues.get? u = some x ∧ id ∈ x.sessions ∧ c.sessions.get? id = some s ∧ s.psi = psi := by
  obtain ⟨x, hx, first⟩ := Option.bind_eq_some_iff.1 found
  have is := List.find?_some first
  rw [decide_eq_true_eq] at is
  obtain ⟨s, hs, same⟩ := Option.map_eq_some_iff.1 is
  exact ⟨x, s, hx, List.mem_of_find?_eq_some first, hs, same⟩

/-! ## The same sessions -/

/-- The sessions that a UE lists. -/
def sessionIds (c : Context) (u : Nat) : Option (List Nat) := (c.ues.get? u).map (·.sessions)

theorem sessionIds_of_some {x : Ue} (h : c.ues.get? u = some x) :
    c.sessionIds u = some x.sessions := by
  unfold sessionIds
  rw [h]
  rfl

/-- The UE of a session and its identity there. -/
def sessionKey (c : Context) (id : Nat) : Option (Nat × UInt8) := (c.sessions.get? id).map (·.key)

theorem sessionKey_of_some {s : Session} (h : c.sessions.get? id = some s) :
    c.sessionKey id = some s.key := by
  unfold sessionKey
  rw [h]
  rfl

/-- The key of a session does not change. -/
theorem sessionKey_of_within {key : Nat × UInt8}
    (within : Table.Within Session.Ages c.sessions c'.sessions) (h : c'.sessionKey id = some key) :
    c.sessionKey id = some key := by
  obtain ⟨t, ht, is⟩ := Option.map_eq_some_iff.1 h
  obtain ⟨s, hs, same, -⟩ := within id t ht
  unfold sessionKey
  rw [hs, Option.map_some, ← same, is]

/-- The same UEs list the same sessions. -/
structure SameSessions (c c' : Context) : Prop where
  ids : ∀ u, c'.sessionIds u = c.sessionIds u
  key : ∀ id, c'.sessionKey id = c.sessionKey id

theorem SameSessions.refl : SameSessions c c := ⟨fun _ => rfl, fun _ => rfl⟩

theorem SameSessions.trans {c₁ c₂ c₃ : Context} (first : SameSessions c₁ c₂)
    (second : SameSessions c₂ c₃) : SameSessions c₁ c₃ :=
  ⟨fun u => (second.ids u).trans (first.ids u), fun id => (second.key id).trans (first.key id)⟩

theorem SameSessions.of_eq (ues : c'.ues = c.ues) (sessions : c'.sessions = c.sessions) :
    SameSessions c c' := by
  constructor <;> intro i
  · unfold sessionIds
    rw [ues]
  · unfold sessionKey
    rw [sessions]

theorem SameSessions.of_modifyUe {f : Ue → Ue} (ues : c'.ues = c.ues.modify u f)
    (sessions : c'.sessions = c.sessions) (same : ∀ x, (f x).sessions = x.sessions) :
    SameSessions c c' := by
  constructor <;> intro i
  · unfold sessionIds
    rw [ues]
    exact Table.map_get?_modify same
  · unfold sessionKey
    rw [sessions]

theorem SameSessions.of_modifySession {f : Session → Session} (ues : c'.ues = c.ues)
    (sessions : c'.sessions = c.sessions.modify id f) (same : ∀ s, (f s).key = s.key) :
    SameSessions c c' := by
  constructor <;> intro i
  · unfold sessionIds
    rw [ues]
  · unfold sessionKey
    rw [sessions]
    exact Table.map_get?_modify same

theorem sameSessions_confirm {uri smRef : String} : SameSessions c (c.confirm id uri smRef) :=
  .of_modifySession rfl rfl fun _ => rfl

theorem sameSessions_holdSetup {pdu : Option Octets} : SameSessions c (c.holdSetup id pdu) :=
  .of_modifySession rfl rfl fun _ => rfl

/-- A UE that lists its sessions is there. -/
theorem contains_ues (u : Nat) : c.ues.contains u = (c.sessionIds u).isSome := by
  unfold Table.contains sessionIds
  rw [Option.isSome_map]

/-- A session that has a UE and an identity is there. -/
theorem contains_sessions (id : Nat) : c.sessions.contains id = (c.sessionKey id).isSome := by
  unfold Table.contains sessionKey
  rw [Option.isSome_map]

/-! ## Detaching a UE -/

/-- The table without the messages that sessions hold back. -/
def letGoAll (sessions : Table Session) (ids : List Nat) : Table Session :=
  ids.foldl (fun t s => t.modify s Relocation.letGo) sessions

theorem map_letGoAll {β : Type} {g : Session → β} (same : ∀ s, g (Relocation.letGo s) = g s) :
    ∀ (ids : List Nat) (t : Table Session), ((letGoAll t ids).get? j).map g = (t.get? j).map g
  | [], _ => rfl
  | _ :: ids, _ => (map_letGoAll same ids _).trans (Table.map_get?_modify same)

theorem within_letGoAll {R : Session → Session → Prop} (self : ∀ s, R s s)
    (compose : ∀ s t r, R s t → R t r → R s r) (changed : ∀ s, R s (Relocation.letGo s)) :
    ∀ (ids : List Nat) (t : Table Session), Table.Within R t (letGoAll t ids)
  | [], _ => .refl self
  | _ :: ids, _ =>
    .trans compose (Table.within_modify self changed) (within_letGoAll self compose changed ids _)

/-- The context without the leg of a UE that is detached. -/
def withoutLeg (c : Context) (u : Nat) : Context :=
  if (c.legOf? u).isSome then c.clearConnection u else c

theorem drops_withoutLeg : DropsLegs c (c.withoutLeg u) := by
  unfold withoutLeg
  split
  · exact drops_clearConnection
  · exact .refl

theorem within_withoutLeg {R : Leg → Leg → Prop} (allows : Leg.Allows R) :
    Table.Within R c.legs (c.withoutLeg u).legs := by
  unfold withoutLeg
  split
  · exact within_clearConnection allows
  · exact .refl allows.self

theorem same_withoutLeg : SameButLegs c (c.withoutLeg u) := by
  unfold withoutLeg
  split
  · exact same_clearConnection
  · exact .refl

theorem map_ues_withoutLeg {β : Type} {g : Ue → β} (free : ∀ x leg, g { x with leg } = g x) :
    ((c.withoutLeg u).ues.get? v).map g = (c.ues.get? v).map g := by
  unfold withoutLeg
  split
  · exact map_ues_clearConnection free
  · rfl

/-- What is left of a UE that is detached, and of its sessions. -/
theorem detach_eq : Relocation.detach c u = { c.withoutLeg u with
    parked := c.parked.erase u
    timers := c.timers.stopAll u
    ues := (c.withoutLeg u).ues.modify u fun x =>
      { x with pagingMessage := none, deregistrationMessage := none }
    sessions := letGoAll c.sessions ((c.sessionIds u).getD []) } := by
  have ids : ((c.withoutLeg u).ues.get? u).map (·.sessions) = c.sessionIds u :=
    map_ues_withoutLeg fun _ _ => rfl
  have same : SameButLegs c (c.withoutLeg u) := same_withoutLeg
  rw [← ids, ← same.parked, ← same.timers, ← same.sessions]
  unfold Relocation.detach Table.modify
  dsimp only
  split
  · rename_i unknown
    have unknown : (c.withoutLeg u).ues.get? u = none := unknown
    rw [unknown]
    rfl
  · rename_i x known
    have known : (c.withoutLeg u).ues.get? u = some x := known
    rw [known]
    rfl

theorem map_ues_detach {β : Type} {g : Ue → β} (free : ∀ x leg, g { x with leg } = g x)
    (let_go : ∀ x, g { x with pagingMessage := none, deregistrationMessage := none } = g x) :
    ((Relocation.detach c u).ues.get? v).map g = (c.ues.get? v).map g := by
  rw [detach_eq]
  exact (Table.map_get?_modify let_go).trans (map_ues_withoutLeg free)

theorem sameSessions_detach : SameSessions c (Relocation.detach c u) := by
  refine ⟨fun v => map_ues_detach (fun _ _ => rfl) fun _ => rfl, fun id => ?_⟩
  rw [detach_eq]
  exact map_letGoAll (fun _ => rfl) _ _

/-! ## Listed sessions -/

/-- UEs and sessions point at each other, and a UE has one session of an identity at most. -/
structure Listed (c : Context) : Prop where
  /-- The UE of a session lists it. -/
  owner : ∀ id u psi, c.sessionKey id = some (u, psi) → ∃ ids, c.sessionIds u = some ids ∧ id ∈ ids
  /-- A session that is listed is one of the UE. -/
  listed : ∀ u ids id, c.sessionIds u = some ids → id ∈ ids → ∃ psi, c.sessionKey id = some (u, psi)
  /-- No two sessions have the same UE and the same identity. -/
  unique : ∀ i j key, c.sessionKey i = some key → c.sessionKey j = some key → i = j

theorem Listed.of_same (same : SameSessions c c') (h : Listed c) : Listed c' := by
  constructor
  · intro id u psi key
    rw [same.key] at key
    rw [same.ids]
    exact h.owner id u psi key
  · intro u ids id list mem
    rw [same.ids] at list
    rw [same.key]
    exact h.listed u ids id list mem
  · intro i j key hi hj
    rw [same.key] at hi hj
    exact h.unique i j key hi hj

/-- **The session of a UE and an identity is found.** -/
theorem Listed.findSession?_eq_some_iff (h : Listed c) :
    c.findSession? u psi = some id ↔ c.sessionKey id = some (u, psi) := by
  have sound : ∀ i, c.findSession? u psi = some i → c.sessionKey i = some (u, psi) := by
    intro i found
    obtain ⟨x, s, hx, mem, hs, rfl⟩ := exists_of_findSession? found
    obtain ⟨psi, key⟩ := h.listed u x.sessions i (sessionIds_of_some hx) mem
    have same := key
    unfold sessionKey at same
    rw [hs] at same
    cases same
    exact key
  refine ⟨sound id, fun key => ?_⟩
  obtain ⟨ids, list, mem⟩ := h.owner id u psi key
  obtain ⟨x, hx, rfl⟩ := Option.map_eq_some_iff.1 list
  obtain ⟨s, hs, is⟩ := Option.map_eq_some_iff.1 key
  have some : (x.sessions.find? fun i => (c.sessions.get? i).map (·.psi) = some psi).isSome := by
    rw [List.find?_isSome]
    refine ⟨id, mem, ?_⟩
    rw [hs, Option.map_some, decide_eq_true_eq, (Prod.mk.inj is).2]
  obtain ⟨i, found⟩ := Option.isSome_iff_exists.1 some
  have found : c.findSession? u psi = Option.some i := by
    unfold findSession?
    rw [hx]
    exact found
  rw [found, h.unique i id _ (sound i found) key]

/-! ## A session goes -/

theorem removeSession_of_none (h : c.sessions.get? id = none) : c.removeSession id = c := by
  unfold removeSession
  rw [h]

theorem removeSession_of_some {s : Session} (h : c.sessions.get? id = some s) :
    c.removeSession id = { c with
      sessions := c.sessions.erase id
      ues := c.ues.modify s.ue fun u => { u with sessions := u.sessions.filter (· ≠ id) }
      parked := unpark c.parked s.ue id } := by
  unfold removeSession
  rw [h]

theorem sessions_removeSession : (c.removeSession id).sessions = c.sessions.erase id := by
  cases h : c.sessions.get? id with
  | none => rw [removeSession_of_none h, Table.erase_eq_self h]
  | some s => rw [removeSession_of_some h]

/-- A session that goes parks nothing. -/
theorem get?_of_unpark {p : Parked} (h : (unpark c.parked u id).get? v = some p) :
    c.parked.get? v = some p := by
  unfold unpark at h
  split at h
  · exact Table.get?_of_erase h
  · exact h

theorem sessionKey_removeSession :
    (c.removeSession id).sessionKey j = if j = id then none else c.sessionKey j := by
  unfold sessionKey
  rw [sessions_removeSession, Table.get?_erase]
  split <;> rfl

/-- The session that goes is not listed any more. -/
theorem sessionIds_removeSession {psi : UInt8} (key : c.sessionKey id = some (u, psi)) :
    (c.removeSession id).sessionIds v =
      if v = u then (c.sessionIds v).map (·.filter (· ≠ id)) else c.sessionIds v := by
  obtain ⟨s, hs, is⟩ := Option.map_eq_some_iff.1 key
  cases (Prod.mk.inj is).1
  rw [removeSession_of_some hs]
  unfold sessionIds
  show Option.map _ ((c.ues.modify s.ue _).get? v) = _
  rw [Table.get?_modify]
  split
  · rw [Option.map_map, Option.map_map]
    rfl
  · rfl

theorem Listed.removeSession (h : Listed c) (id : Nat) : Listed (c.removeSession id) := by
  cases key : c.sessionKey id with
  | none =>
    rw [removeSession_of_none (Option.map_eq_none_iff.1 key)]
    exact h
  | some owner =>
    obtain ⟨u, psi⟩ := owner
    constructor
    · intro i v psi' hi
      rw [sessionKey_removeSession] at hi
      split at hi
      · cases hi
      · rename_i other
        obtain ⟨ids, list, mem⟩ := h.owner i v psi' hi
        rw [sessionIds_removeSession key]
        split
        · refine ⟨ids.filter (· ≠ id), by rw [list]; rfl, List.mem_filter.2 ⟨mem, ?_⟩⟩
          rw [decide_eq_true_eq]
          exact other
        · exact ⟨ids, list, mem⟩
    · intro v ids i list mem
      rw [sessionIds_removeSession key] at list
      rw [sessionKey_removeSession]
      split at list
      · obtain ⟨ids', list', rfl⟩ := Option.map_eq_some_iff.1 list
        obtain ⟨mem, other⟩ := List.mem_filter.1 mem
        rw [decide_eq_true_eq] at other
        rw [if_neg other]
        exact h.listed v ids' i list' mem
      · rename_i otherUe
        obtain ⟨psi', hi⟩ := h.listed v ids i list mem
        have other : i ≠ id := by
          rintro rfl
          rw [key] at hi
          cases hi
          exact otherUe rfl
        rw [if_neg other]
        exact ⟨psi', hi⟩
    · intro i j k hi hj
      rw [sessionKey_removeSession] at hi hj
      split at hi
      · cases hi
      · split at hj
        · cases hj
        · exact h.unique i j k hi hj

end Context

/-! ## Steps -/

namespace Step

open Context

variable {a : Act} {n n' : Node}

/-- **Only a session that goes changes which sessions there are.** -/
theorem sameSessions (step : Step a n n') (stays : ∀ id, a ≠ .remove id) :
    SameSessions n.context n'.context := by
  cases step with
  | tell | ask | setUp | refusePaging | repeatPaging | repeatRefused | answerSetup | expireRequest |
    stopRequest => exact .of_eq rfl rfl
  | confirm => exact sameSessions_confirm
  | holdSetup | holdCommand | dropCommand => exact .of_modifySession rfl rfl fun _ => rfl
  | park | mark | setPolicy | deregister | forgetRequest =>
    exact .of_modifyUe rfl rfl fun _ => rfl
  | @record _ _ _ i => exact .of_modifySession rfl rfl fun _ => by cases i <;> rfl
  | confirmIdle | confirmHeld => exact sameSessions_confirm.trans sameSessions_holdSetup
  | @remove _ id => exact absurd rfl (stays id)
  | repeatNothing _ lost =>
    obtain ⟨-, rfl⟩ | ⟨-, rfl⟩ := lost <;> exact .of_eq rfl rfl
  | giveUp =>
    rw [Node.context_offerAll]
    exact .of_modifyUe rfl rfl fun _ => rfl
  | connect _ room =>
    refine ⟨fun v => Node.map_ues_connect room (fun _ _ => rfl) fun _ => rfl, fun id => ?_⟩
    exact congrArg (fun t => (t.get? id).map Session.key) (Node.same_connect room).sessions
  | disconnect =>
    refine ⟨fun v => ?_, fun id => ?_⟩
    · exact (map_ues_removeLeg fun _ _ => rfl).trans (map_ues_deassociate fun _ _ => rfl)
    · unfold sessionKey
      rw [Node.context_uncount, Node.context_change, same_disconnect.sessions]
  | detach =>
    rw [Node.context_change, Node.context_uncountLeg]
    exact sameSessions_detach

/-- **UEs and sessions keep pointing at each other.** -/
theorem listed (step : Step a n n') (h : n.context.Listed) : n'.context.Listed := by
  by_cases removes : ∃ id, a = .remove id
  · obtain ⟨id, rfl⟩ := removes
    cases step
    exact h.removeSession id
  · exact h.of_same (step.sameSessions fun id is => removes ⟨id, is⟩)

/-- **What becomes of the sessions that are left** is what single acts do to one, and none are
added. -/
theorem within {R : Session → Session → Prop} (allows : Session.Allows R) (step : Step a n n')
    (hold : ∀ id, a = .holdSetup id → ∀ s pdu, R s { s with heldSetup := some pdu }) :
    Table.Within R n.context.sessions n'.context.sessions := by
  have confirmed : ∀ {id uri smRef},
      Table.Within R n.context.sessions (n.context.confirm id uri smRef).sessions :=
    Table.within_modify allows.self fun s => allows.confirm s _ _
  cases step with
  | tell | ask | setUp | refusePaging | repeatPaging | repeatRefused | answerSetup | expireRequest |
    stopRequest | park | mark | setPolicy | deregister | forgetRequest => exact .refl allows.self
  | holdSetup => exact Table.within_modify allows.self fun s => hold _ rfl s _
  | holdCommand | dropCommand => exact Table.within_modify allows.self fun s => allows.command s _
  | confirm => exact confirmed
  | confirmIdle | confirmHeld =>
    exact .trans allows.compose confirmed (Table.within_modify allows.self allows.release)
  | record => exact Table.within_modify allows.self fun s => allows.record s _
  | remove =>
    rw [Node.context_uncount, Node.context_change, sessions_removeSession]
    exact Table.within_erase allows.self
  | repeatNothing _ lost =>
    obtain ⟨-, rfl⟩ | ⟨-, rfl⟩ := lost <;> exact .refl allows.self
  | giveUp =>
    rw [Node.context_offerAll]
    exact .refl allows.self
  | connect _ room => exact (Node.same_connect room).sessions ▸ .refl allows.self
  | disconnect =>
    rw [Node.context_uncount, Node.context_change, same_disconnect.sessions]
    exact .refl allows.self
  | detach =>
    rw [Node.context_change, Node.context_uncountLeg, detach_eq]
    exact within_letGoAll allows.self allows.compose
      (fun s => allows.compose _ _ _ (allows.release s) (allows.command _ _)) _ _

/-- **Sessions go and may be confirmed, and none are added.** -/
theorem sessions_within (step : Step a n n') :
    Table.Within Session.Ages n.context.sessions n'.context.sessions :=
  step.within Session.allows_ages fun _ _ _ _ => ⟨rfl, id⟩

end Step

namespace Chain

variable {A : Act → Prop} {n n' : Node} {id : Nat} {key : Nat × UInt8}

/-- Sessions go and may be confirmed in a chain, and none are added. -/
theorem sessions_within (chain : Chain A n n') :
    Table.Within Session.Ages n.context.sessions n'.context.sessions :=
  chain.keeps (P := fun m => Table.Within Session.Ages n.context.sessions m.context.sessions)
    (fun _ _ _ _ step within => within.trans Session.Ages.trans step.sessions_within)
    (.refl Session.Ages.refl)

/-- Nothing but a session that goes changes which sessions there are. -/
theorem sameSessions (stays : ∀ a, A a → ∀ id, a ≠ .remove id) (chain : Chain A n n') :
    n.context.SameSessions n'.context :=
  chain.keeps (P := fun m => n.context.SameSessions m.context)
    (fun a _ _ may step same => same.trans (step.sameSessions (stays a may))) (.of_eq rfl rfl)

/-- A session of a UE after a chain was one before. -/
theorem sessionKey (chain : Chain A n n') (h : n'.context.sessionKey id = some key) :
    n.context.sessionKey id = some key :=
  Context.sessionKey_of_within chain.sessions_within h

/-- What every act of a kind keeps while sessions go and none are added, chains of such acts keep. -/
theorem keeps_of_fewer {P : Node → Prop}
    (step : ∀ a m m', A a →
      (∀ id key, m.context.sessionKey id = some key → n.context.sessionKey id = some key) →
        Step a m m' → P m → P m')
    (chain : Chain A n n') (start : P n) : P n' := by
  have kept := chain.keeps
    (P := fun m => (∀ id key, m.context.sessionKey id = some key →
      n.context.sessionKey id = some key) ∧ P m)
    (fun a m m' may next ⟨fewer, there⟩ => by
      refine ⟨fun id key left => fewer id key ?_, step a m m' may fewer next there⟩
      exact Context.sessionKey_of_within next.sessions_within left)
    ⟨fun _ _ key => key, start⟩
  exact kept.2

end Chain
end Amf
