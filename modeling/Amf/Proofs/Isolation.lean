import Amf.Proofs.Attended
import Amf.Proofs.Integrity
import Amf.Proofs.Joined

/-!
# Isolation of UEs

All UEs share the tables of the context, the timers and the transports; an event that is about one UE
stays within the part of that UE (`Event.handle_isolates`). The record of every other UE, its
sessions, its leg, what is parked for it and its timers are as before, and what the radio network is
handed is a paging of the UE or a message on its leg.

| act | touches of its UE |
| --- | --- |
| `setUp`, `holdSetup` | the leg, the session |
| `confirm`, `holdCommand`, `dropCommand`, `record` | the session |
| `remove` | the session, the record, what is parked |
| `park`, `repeatPaging`, `giveUp` | the record, what is parked, the timers |
| `connect`, `detach` | the record, the leg, what is parked, the timers; `detach` the sessions |
| `disconnect`, `answerSetup` | the record, the leg; the leg |
| `deregister`, `expireRequest` | the record, the timers |
| `mark`, `setPolicy` | the record |
-/

namespace Amf

/-! ## Records of a kind -/

namespace Table

variable {α : Type} {P : α → Prop} {t u v : Table α} {k : Nat} {a b : α} {f : α → α}

/-- The records of a kind are the same, under the same numbers. -/
def SameOn (P : α → Prop) (t u : Table α) : Prop :=
  ∀ k a, P a → (u.get? k = some a ↔ t.get? k = some a)

theorem SameOn.refl : SameOn P t t := fun _ _ _ => .rfl

theorem SameOn.trans (first : SameOn P t u) (second : SameOn P u v) : SameOn P t v :=
  fun k a h => (second k a h).trans (first k a h)

theorem sameOn_erase (old : ∀ a, t.get? k = some a → ¬P a) : SameOn P t (t.erase k) := by
  intro j a h
  rw [get?_erase]
  split
  · rename_i is
    refine iff_of_false nofun fun there => ?_
    rw [is] at there
    exact old a there h
  · exact .rfl

theorem sameOn_insert (old : ∀ a, t.get? k = some a → ¬P a) (new : ¬P b) :
    SameOn P t (t.insert k b) := by
  intro j a h
  rw [get?_insert]
  split
  · rename_i is
    refine iff_of_false (fun same => ?_) fun there => ?_
    · cases same
      exact new h
    · rw [is] at there
      exact old a there h
  · exact .rfl

theorem sameOn_modify (old : ∀ a, t.get? k = some a → ¬P a) (new : ∀ a, P (f a) → P a) :
    SameOn P t (t.modify k f) := by
  unfold modify
  split
  · exact .refl
  · rename_i a there
    exact sameOn_insert old fun h => old a there (new a h)

end Table

/-! ## Timers of a UE -/

namespace Timers

variable {ts ts' : Timers} {kind : TimerKind} {u v g : Nat}

/-- The timers that run for a UE. -/
def runningFor (ts : Timers) (u : Nat) : List RunningTimer := ts.running.filter (·.ue = u)

theorem runningFor_stop (other : v ≠ u) : (ts.stop kind u).runningFor v = ts.runningFor v :=
  (SameIn.stop (p := fun _ w => w = v) (decide_eq_false (Ne.symm other))).running

theorem runningFor_stopAll (other : v ≠ u) : (ts.stopAll u).runningFor v = ts.runningFor v :=
  (SameIn.stopAll (p := fun _ w => w = v) fun _ => decide_eq_false (Ne.symm other)).running

theorem runningFor_start (other : v ≠ u) : (ts.start kind u).runningFor v = ts.runningFor v :=
  (SameIn.start (p := fun _ w => w = v) (decide_eq_false (Ne.symm other))).running

theorem runningFor_expire {e : Option Expiry} (expiry : ts.expire kind u g = (e, ts'))
    (other : v ≠ u) : ts'.runningFor v = ts.runningFor v :=
  (SameIn.expire (p := fun _ w => w = v) expiry (decide_eq_false (Ne.symm other))).running

end Timers

/-! ## What belongs to a UE -/

namespace Context

variable {c c' c'' : Context} {u v w id k : Nat} {psi : UInt8} {l : Leg}

/-- The record of a UE is the same, and so are its sessions, its leg, what is parked for it and its
timers. -/
structure Keeps (c : Context) (v : Nat) (c' : Context) : Prop where
  ue : c'.ues.get? v = c.ues.get? v
  sessions : Table.SameOn (fun s : Session => s.ue = v) c.sessions c'.sessions
  legs : Table.SameOn (fun l : Leg => l.ue = some v) c.legs c'.legs
  parked : c'.parked.get? v = c.parked.get? v
  /-- The timers that run run on, with the same numbers of retries. -/
  timers : c'.timers.runningFor v = c.timers.runningFor v

namespace Keeps

theorem refl : c.Keeps v c := ⟨rfl, .refl, .refl, rfl, rfl⟩

theorem trans (first : c.Keeps v c') (second : c'.Keeps v c'') : c.Keeps v c'' where
  ue := second.ue.trans first.ue
  sessions := first.sessions.trans second.sessions
  legs := first.legs.trans second.legs
  parked := second.parked.trans first.parked
  timers := second.timers.trans first.timers

/-- Only timers change, and clients. -/
theorem of_timers (timers : c'.timers.runningFor v = c.timers.runningFor v) (ues : c'.ues = c.ues)
    (sessions : c'.sessions = c.sessions) (legs : c'.legs = c.legs) (parked : c'.parked = c.parked) :
    c.Keeps v c' :=
  ⟨ues ▸ rfl, sessions ▸ .refl, legs ▸ .refl, parked ▸ rfl, timers⟩

/-- The record of another UE changes. -/
theorem modifyUe (f : Ue → Ue) (other : v ≠ u) : c.Keeps v (c.modifyUe u f) :=
  ⟨Table.get?_modify_of_ne other, .refl, .refl, rfl, rfl⟩

/-- The paging of another UE is over. -/
theorem quitPaging {timers : Timers} (other : v ≠ u)
    (same : timers.runningFor v = c.timers.runningFor v) : c.Keeps v (c.quitPaging u timers) :=
  ⟨Table.get?_modify_of_ne other, .refl, .refl, Table.get?_erase_of_ne other, same⟩

end Keeps

/-- A session is one of a UE, if it exists. -/
def Owns (c : Context) (u id : Nat) : Prop := ∀ v psi, c.sessionKey id = some (v, psi) → v = u

theorem Owns.ue_eq {s : Session} (h : c.Owns u id) (session : c.sessions.get? id = some s) :
    s.ue = u :=
  h s.ue s.psi (sessionKey_of_some session)

theorem Owns.not_of_ne (h : c.Owns u id) (other : v ≠ u) :
    ∀ s, c.sessions.get? id = some s → ¬s.ue = v :=
  fun _ session is => other (is.symm.trans (h.ue_eq session))

/-- A session of another UE changes, and stays one of that UE. -/
theorem Keeps.modifySession {f : Session → Session} (owns : c.Owns u id) (other : v ≠ u)
    (same : ∀ s, (f s).ue = s.ue) : c.Keeps v (c.modifySession id f) :=
  ⟨rfl, Table.sameOn_modify (owns.not_of_ne other) fun s is => (same s).symm.trans is, .refl, rfl, rfl⟩

theorem get?_unpark_of_ne {parked : Table Parked} (other : v ≠ u) :
    (unpark parked u id).get? v = parked.get? v := by
  unfold unpark
  split
  · exact Table.get?_erase_of_ne other
  · rfl

theorem Keeps.removeSession (owns : c.Owns u id) (other : v ≠ u) :
    c.Keeps v (c.removeSession id) := by
  cases session : c.sessions.get? id with
  | none =>
    rw [removeSession_of_none session]
    exact .refl
  | some s =>
    rw [removeSession_of_some session, owns.ue_eq session]
    exact ⟨Table.get?_modify_of_ne other, Table.sameOn_erase (owns.not_of_ne other), .refl,
      get?_unpark_of_ne other, rfl⟩

theorem sameOn_letGoAll :
    ∀ (ids : List Nat) (t : Table Session),
      (∀ id ∈ ids, (t.get? id).map (·.ue) ≠ some v) →
        Table.SameOn (fun s : Session => s.ue = v) t (letGoAll t ids)
  | [], _, _ => .refl
  | id :: ids, t, others => by
    have first : Table.SameOn (fun s : Session => s.ue = v) t (t.modify id Relocation.letGo) := by
      refine Table.sameOn_modify (fun s there is => ?_) fun _ is => is
      refine others id List.mem_cons_self ?_
      rw [there, Option.map_some, is]
    refine first.trans (sameOn_letGoAll ids _ fun j mem => ?_)
    rw [Table.map_get?_modify (f := Relocation.letGo) fun _ => rfl]
    exact others j (List.mem_cons_of_mem _ mem)

/-! ## Legs of other UEs -/

/-- The leg of a UE serves no other one. -/
theorem Paired.not_serves (h : c.Paired) (leg : c.legOf? u = some (k, l)) (other : v ≠ u) :
    ∀ m, c.legs.get? k = some m → ¬m.ue = some v := by
  intro m there serves
  obtain ⟨there', serves'⟩ := h.legOf?_eq_some_iff.1 leg
  rw [there] at there'
  cases there'
  exact other (Option.some.inj (serves.symm.trans serves'))

theorem Keeps.modifyLeg {f : Leg → Leg} (paired : c.Paired) (leg : c.legOf? u = some (k, l))
    (other : v ≠ u) (same : ∀ l, (f l).ue = l.ue) : c.Keeps v (c.modifyLeg k f) :=
  ⟨rfl, .refl, Table.sameOn_modify (paired.not_serves leg other) fun l is => (same l).symm.trans is,
    rfl, rfl⟩

theorem Keeps.freeLeg (paired : c.Paired) (other : v ≠ u) : c.Keeps v (c.freeLeg u) := by
  cases leg : c.legOf? u with
  | none =>
    rw [freeLeg_of_none leg]
    exact .refl
  | some has =>
    rw [paired.freeLeg_eq leg]
    exact ⟨Table.get?_modify_of_ne other, .refl, Table.sameOn_erase (paired.not_serves leg other), rfl,
      rfl⟩

theorem Keeps.withLeg {gnb ran : UInt64} {rat : RatType} (new : c.legs.get? c.nextLeg = none)
    (other : v ≠ u) : c.Keeps v (c.withLeg u gnb ran rat) where
  ue := Table.get?_modify_of_ne other
  sessions := .refl
  legs := by
    refine Table.sameOn_insert (fun l there => ?_) fun is => other (Option.some.inj is).symm
    rw [new] at there
    cases there
  parked := Table.get?_erase_of_ne other
  timers := Timers.runningFor_stop other

/-! ## Contexts in order -/

/-- UEs, sessions, parked transfers and legs point at each other. -/
structure Ordered (c : Context) : Prop where
  listed : c.Listed
  owned : c.Owned
  joined : c.Joined

theorem Listed.of_intact (h : c.Intact) : c.Listed := by
  refine ⟨fun id u psi key => ?_, fun u ids id list mem => ?_, fun i j key hi hj => ?_⟩
  · obtain ⟨s, session, rfl, -⟩ := exists_of_sessionKey key
    obtain ⟨x, known, once⟩ := h.owner id s session
    exact ⟨x.sessions, sessionIds_of_some known, List.count_pos_iff.1 (by omega)⟩
  · obtain ⟨x, known, rfl⟩ := Option.map_eq_some_iff.1 list
    obtain ⟨s, session, rfl⟩ := h.listed u x known id mem
    exact ⟨s.psi, sessionKey_of_some session⟩
  · obtain ⟨u, psi⟩ := key
    obtain ⟨s, hs, ue, is⟩ := exists_of_sessionKey hi
    obtain ⟨t, ht, ue', is'⟩ := exists_of_sessionKey hj
    exact h.distinct i j s t hs ht (ue.trans ue'.symm) (is.trans is'.symm)

theorem Owned.of_intact (h : c.Intact) : c.Owned := by
  intro u p waits
  obtain ⟨s, session, rfl, psi⟩ := h.parked u p waits
  rw [sessionKey_of_some session, ← psi]
  rfl

theorem Ordered.of_intact (h : c.Intact) (joined : c.Joined) : c.Ordered :=
  ⟨.of_intact h, .of_intact h, joined⟩

/-- The sessions that go with a UE are those that the UE lists. -/
theorem Keeps.detach (listed : c.Listed) (paired : c.Paired) (other : v ≠ u) :
    c.Keeps v (Relocation.detach c u) := by
  have freed := Keeps.freeLeg paired other
  rw [← paired.withoutLeg_eq] at freed
  rw [detach_eq]
  refine ⟨(Table.get?_modify_of_ne other).trans freed.ue, sameOn_letGoAll _ _ fun id mem => ?_,
    freed.legs, Table.get?_erase_of_ne other, Timers.runningFor_stopAll other⟩
  cases list : c.sessionIds u with
  | none =>
    rw [list] at mem
    cases mem
  | some ids =>
    rw [list] at mem
    obtain ⟨psi, key⟩ := listed.listed u ids id list mem
    obtain ⟨s, session, rfl, -⟩ := exists_of_sessionKey key
    rw [session, Option.map_some]
    exact fun is => other (Option.some.inj is).symm

/-- A session that a UE has at hand is one of the UE. -/
theorem Listed.owns (h : c.Listed) (owned : c.Owned) (holds : c.Holds u id) : c.Owns u id := by
  have owner : ∃ psi, c.sessionKey id = some (u, psi) := by
    obtain ⟨ids, list, mem⟩ | ⟨p, waits, rfl⟩ := holds
    · exact h.listed u ids id list mem
    · exact ⟨p.psi, owned u p waits⟩
  obtain ⟨psi, key⟩ := owner
  intro v psi' key'
  rw [key] at key'
  cases key'
  rfl

theorem Ordered.owns (h : c.Ordered) (holds : c.Holds u id) : c.Owns u id :=
  h.listed.owns h.owned holds

theorem Ordered.eq_of_means (h : c.Ordered) (means : c.Means u v) : v = u := by
  obtain is | ⟨id, psi, holds, key⟩ := means
  · exact is
  · exact h.owns holds v psi key

end Context

/-! ## Acts of one UE -/

/-- The act touches no UE but one. -/
def Act.Touches (c : Context) (u : Nat) : Act → Prop
  | .ask _ => True
  | .tell v _ | .park v _ | .refusePaging v | .repeatPaging v | .giveUp v | .connect v |
    .disconnect v | .answerSetup v | .deregister v | .expireRequest v | .mark v | .setPolicy v |
    .detach v => v = u
  | .setUp id | .holdSetup id | .confirm id | .holdCommand id | .dropCommand id | .record id |
    .remove id => c.Owns u id

variable {a : Act} {A : Act → Prop} {n n' : Node} {u v : Nat}

theorem Act.About.touches {c : Context} (about : a.About c u) (h : c.Ordered) : a.Touches c u := by
  cases a with
  | ask => trivial
  | tell | park | refusePaging => exact h.eq_of_means about
  | setUp | holdSetup | confirm | holdCommand | dropCommand | record | remove => exact h.owns about
  | _ => exact about

/-- An act touches nothing more when there are fewer sessions. -/
theorem Act.Touches.of_fewer {c c' : Context} (h : a.Touches c u)
    (fewer : ∀ id key, c'.sessionKey id = some key → c.sessionKey id = some key) :
    a.Touches c' u := by
  cases a with
  | setUp | holdSetup | confirm | holdCommand | dropCommand | record | remove =>
    exact fun v psi key => h v psi (fewer _ _ key)
  | _ => exact h

namespace Step

open Context

theorem ordered (step : Step a n n') (h : n.context.Ordered) : n'.context.Ordered :=
  ⟨step.listed h.listed, step.alters.owned h.owned, step.joined h.joined⟩

/-- **What an act of one UE leaves of another is everything.** -/
theorem keeps (step : Step a n n') (h : n.context.Ordered) (touches : a.Touches n.context u)
    (other : v ≠ u) : n.context.Keeps v n'.context := by
  have paired := h.joined.paired
  cases step with
  | tell | ask => exact .refl
  | refusePaging => exact .of_timers rfl rfl rfl rfl rfl
  | setUp session _ leg =>
    rw [Owns.ue_eq touches session] at leg
    exact .modifyLeg paired leg other fun _ => rfl
  | @holdSetup _ id k _ _ _ _ _ session _ leg =>
    rw [Owns.ue_eq touches session] at leg
    have marked : n.context.Keeps v (n.context.markSetup k) := .modifyLeg paired leg other fun _ => rfl
    exact marked.trans (.modifySession (c := n.context.markSetup k) touches other fun _ => rfl)
  | confirm | holdCommand | dropCommand => exact .modifySession touches other fun _ => rfl
  | @confirmIdle _ id _ _ uri smRef | @confirmHeld _ id _ _ _ _ uri smRef =>
    have confirmed : n.context.Keeps v (n.context.confirm id uri smRef) :=
      .modifySession touches other fun _ => rfl
    refine confirmed.trans (.modifySession (fun w psi key => touches w psi ?_) other fun _ => rfl)
    exact (sameSessions_confirm.key id).symm.trans key
  | @record _ _ _ i => exact .modifySession touches other fun _ => by cases i <;> rfl
  | remove => exact .removeSession touches other
  | park session =>
    cases touches
    exact ⟨Table.get?_modify_of_ne other, .refl, .refl, Table.get?_insert_of_ne other,
      Timers.runningFor_start other⟩
  | repeatNothing expiry lost =>
    cases touches
    have expired := Timers.runningFor_expire expiry other
    obtain ⟨-, rfl⟩ | ⟨-, rfl⟩ := lost
    · exact .of_timers expired rfl rfl rfl rfl
    · exact .of_timers ((Timers.runningFor_stop other).trans expired) rfl rfl rfl rfl
  | repeatPaging expiry | repeatRefused expiry | expireRequest expiry =>
    cases touches
    exact .of_timers (Timers.runningFor_expire expiry other) rfl rfl rfl rfl
  | giveUp expiry =>
    cases touches
    rw [Node.context_offerAll]
    exact .quitPaging other (Timers.runningFor_expire expiry other)
  | connect known room =>
    cases touches
    rw [Node.context_connect_of_joined h.joined room known]
    exact (Keeps.freeLeg paired other).trans (.withLeg h.joined.freeLeg.numbered.new other)
  | disconnect leg =>
    cases touches
    have freed := Keeps.freeLeg paired other
    rw [paired.freeLeg_eq leg, ← removeLeg_deassociate leg] at freed
    exact freed
  | answerSetup leg =>
    cases touches
    exact .modifyLeg paired leg other fun _ => rfl
  | deregister =>
    cases touches
    exact ⟨Table.get?_modify_of_ne other, .refl, .refl, rfl, Timers.runningFor_start other⟩
  | stopRequest =>
    cases touches
    exact .of_timers (Timers.runningFor_stop other) rfl rfl rfl rfl
  | forgetRequest | mark | setPolicy =>
    cases touches
    exact .modifyUe _ other
  | detach =>
    cases touches
    rw [Node.context_change, Node.context_uncountLeg]
    exact .detach h.listed paired other

end Step

/-! ## Messages to the radio network -/

/-- The message is a paging of a UE, or one on the leg that the UE has. -/
def RadioMessage.IsFor (c : Context) (u : Nat) : RadioMessage → Prop
  | .paging v _ => v = u
  | .toLeg gnb ids _ => ∃ k l, c.legOf? u = some (k, l) ∧ l.gnb = gnb ∧ l.ids = ids

theorem RadioMessage.IsFor.of_same {c c' : Context} {m : RadioMessage} (same : c.SameLinks c')
    (h : m.IsFor c u) : m.IsFor c' u := by
  cases m with
  | paging => exact h
  | toLeg gnb ids pdu =>
    obtain ⟨k, l, leg, rfl, rfl⟩ := h
    obtain ⟨uses, there⟩ := Context.legOf?_eq_some_iff.1 leg
    have ends := same.legs k
    rw [there] at ends
    obtain ⟨l', there', is⟩ := Option.map_eq_some_iff.1 ends
    exact ⟨k, l', Context.legOf?_eq_some_iff.2 ⟨(same.uses u).trans uses, there'⟩,
      congrArg (·.2.1) is, congrArg (·.1) is⟩

/-- The act hands nothing to the radio network. -/
def Act.silent : Act → Bool
  | .ask _ | .connect _ | .disconnect _ | .detach _ => true
  | _ => false

/-- What was handed to the radio network since is for a UE. -/
def Node.Addresses (u : Nat) (n n' : Node) : Prop :=
  ∃ ms, n'.links.offered = n.links.offered ++ ms ∧ ∀ m, .radio m ∈ ms → m.IsFor n'.context u

theorem Node.Addresses.of_links (same : n'.links = n.links) : n.Addresses u n' :=
  ⟨[], by rw [same, List.append_nil], fun _ mem => (nomatch mem)⟩

theorem Context.not_radio_of_mem_reports {c : Context} {m : RadioMessage} :
    .radio m ∉ c.reports u := by
  unfold Context.reports Parked.reports
  split
  · exact List.not_mem_nil
  · split
    · exact List.not_mem_nil
    · exact nofun

namespace Step

open Context

/-- **What an act of a UE hands to the radio network is for the UE.** -/
theorem sends (step : Step a n n') (touches : a.Touches n.context u) :
    ∃ ms, n'.links.offered = n.links.offered ++ ms ∧
      ∀ m, .radio m ∈ ms → a.silent = false ∧ m.IsFor n.context u := by
  have nothing : ∃ ms, n.links.offered = n.links.offered ++ ms ∧
      ∀ m, .radio m ∈ ms → a.silent = false ∧ m.IsFor n.context u :=
    ⟨[], (List.append_nil _).symm, fun _ mem => (nomatch mem)⟩
  have one : ∀ m : Outbound, (∀ r, m = .radio r → a.silent = false ∧ r.IsFor n.context u) →
      ∃ ms, (n.links.offer m).offered = n.links.offered ++ ms ∧
        ∀ r, .radio r ∈ ms → a.silent = false ∧ r.IsFor n.context u := by
    intro m fits
    exact ⟨[m], Links.offered_offer _ _, fun r mem => fits r (List.mem_singleton.1 mem).symm⟩
  cases step with
  | ask => exact one _ nofun
  | tell leg =>
    cases touches
    exact one _ fun | _, rfl => ⟨rfl, _, _, leg, rfl, rfl⟩
  | setUp session _ leg | confirmHeld session _ leg =>
    rw [Owns.ue_eq touches session] at leg
    exact one _ fun | _, rfl => ⟨rfl, _, _, leg, rfl, rfl⟩
  | park | refusePaging | repeatPaging | repeatRefused => exact one _ fun | _, rfl => ⟨rfl, touches⟩
  | repeatNothing _ lost => obtain ⟨-, rfl⟩ | ⟨-, rfl⟩ := lost <;> exact nothing
  | giveUp =>
    refine ⟨_, Node.offered_offerAll _ _, fun m mem => ?_⟩
    exact absurd mem not_radio_of_mem_reports
  | connect =>
    rw [Node.links_connect]
    exact nothing
  | detach =>
    rw [Node.links_change]
    split <;> exact nothing
  | _ => exact nothing

end Step

/-! ## Chains of acts of one UE -/

namespace Chain

/-- **What acts of one UE keep, chains of such acts keep.** -/
theorem keeps_touching {P : Node → Prop} (h : n.context.Ordered)
    (touches : ∀ a, A a → a.Touches n.context u) (chain : Chain A n n')
    (step : ∀ a m m', A a → Step a m m' → m.context.Ordered → a.Touches m.context u → P m → P m')
    (start : P n) : P n' := by
  have kept := chain.keeps_of_fewer (P := fun m => m.context.Ordered ∧ P m)
    (fun a m m' may fewer next ⟨ordered, there⟩ =>
      ⟨next.ordered ordered, step a m m' may next ordered ((touches a may).of_fewer fewer) there⟩)
    ⟨h, start⟩
  exact kept.2

section
variable (h : n.context.Ordered) (touches : ∀ a, A a → a.Touches n.context u)
  (chain : Chain A n n')
include h touches chain

theorem keeps_of_ne (other : v ≠ u) : n.context.Keeps v n'.context :=
  chain.keeps_touching h touches (P := fun m => n.context.Keeps v m.context)
    (fun _ _ _ _ step ordered touches kept => kept.trans (step.keeps ordered touches other)) .refl

/-- While no leg comes or goes, what is for a UE stays so. -/
theorem addresses {n₀ : Node} (still : ∀ a, A a → a.rewires = false) (start : n₀.Addresses u n) :
    n₀.Addresses u n' := by
  refine chain.keeps_touching h touches (P := fun m => n₀.Addresses u m)
    (fun a m m' may step _ touches before => ?_) start
  obtain ⟨ms, offered, fits⟩ := before
  obtain ⟨ms', offered', fits'⟩ := step.sends touches
  have same := step.sameLinks (still a may)
  refine ⟨ms ++ ms', by rw [offered', offered, List.append_assoc], fun r mem => ?_⟩
  obtain mem | mem := List.mem_append.1 mem
  · exact (fits r mem).of_same same
  · exact (fits' r mem).2.of_same same

theorem addresses_of_silent (silent : ∀ a, A a → a.silent = true) : n.Addresses u n' := by
  have nothing : ∃ ms, n'.links.offered = n.links.offered ++ ms ∧ ∀ m, .radio m ∉ ms := by
    refine chain.keeps_touching h touches
      (P := fun m => ∃ ms, m.links.offered = n.links.offered ++ ms ∧ ∀ r, .radio r ∉ ms)
      (fun a m m' may step _ touches before => ?_) ⟨[], (List.append_nil _).symm, fun _ => nofun⟩
    obtain ⟨ms, offered, none⟩ := before
    obtain ⟨ms', offered', fits⟩ := step.sends touches
    refine ⟨ms ++ ms', by rw [offered', offered, List.append_assoc], fun r mem => ?_⟩
    obtain mem | mem := List.mem_append.1 mem
    · exact none r mem
    · have loud := (fits r mem).1
      rw [silent a may] at loud
      cases loud
  obtain ⟨ms, offered, none⟩ := nothing
  exact ⟨ms, offered, fun m mem => absurd mem (none m)⟩

end

end Chain

/-! ## Events -/

/-- What happens is about one UE: everything that belongs to another UE is as before, and what is
handed to the radio network is for the UE. -/
structure Node.Isolates (u : Nat) (n n' : Node) : Prop where
  keeps : ∀ v, v ≠ u → n.context.Keeps v n'.context
  /-- Another UE has the leg that it had. -/
  leg : ∀ v, v ≠ u → n'.context.legOf? v = n.context.legOf? v
  addresses : n.Addresses u n'

namespace Context

variable {c c' : Context}

/-- A UE of which everything is the same has the same leg. -/
theorem Keeps.legOf?_eq (keeps : c.Keeps v c') (h : c.Paired) (h' : c'.Paired) :
    c'.legOf? v = c.legOf? v := by
  refine Option.ext fun ⟨k, l⟩ => ?_
  rw [h.legOf?_eq_some_iff, h'.legOf?_eq_some_iff]
  exact and_congr_left fun serves => keeps.legs k l serves

end Context

namespace Event

variable {e : Event}

/-- Only a connection, a leg that goes and a report that a UE was taken over change which UE uses
which leg. -/
theorem May.still (may : e.May n a) (unconnected : ∀ u, ¬e.Connects u)
    (unreleased : ∀ u, e ≠ .released u)
    (unreported : ∀ r, e = .request r → ¬Routing.Reaches r Api.transferUpdate) :
    a.rewires = false := by
  cases a with
  | connect u => exact absurd may (unconnected u)
  | disconnect u => exact absurd may (unreleased u)
  | detach u =>
    obtain ⟨r, ⟨is, -⟩, takesOver⟩ := may
    exact absurd takesOver.1 (unreported r is)
  | _ => rfl

/-- What a report that a UE was taken over comes to. -/
theorem report_chain {r : Request} (reaches : Routing.Reaches r Api.transferUpdate) (n : Node)
    (addressed : (request r).addressee? n.context = some u) :
    Chain (fun a => a.silent = true ∧ a.Touches n.context u) n ((request r).handle n).2 := by
  show Chain _ n ((Routing.handle r n).2)
  rw [Routing.handle_snd]
  obtain ⟨fault, failed⟩ | ⟨transfer, -⟩ | ⟨-, same⟩ | ⟨plain, -⟩ := Routing.route_cases r n
  · rw [failed]
  · exact absurd (reaches.unique transfer) (by decide)
  · have ends := Routing.relocationUpdate_ends
      (A := fun a => a.silent = true ∧ a.Touches n.context u) reaches (fun q => ⟨rfl, trivial⟩)
      fun v response takesOver _ _ _ => ⟨rfl, by
        have is : some v = some u := takesOver.addressee.symm.trans addressed
        exact Option.some.inj is⟩
    rw [same]
    obtain ⟨o, s, p, response, orders, -⟩ | ⟨-, course⟩ := ends
    · exact absurd (reaches.unique orders.1) (by decide)
    · exact course.chain
  · exact absurd reaches plain

/-- **What an event hands to the radio network is for the UE that it is about.** -/
theorem handle_addresses (h : n.context.Ordered) (unmodified : ¬e.IsModification)
    (addressed : e.addressee? n.context = some u) : n.Addresses u (e.handle n).2 := by
  have touches : ∀ a, e.Does n a → a.Touches n.context u :=
    fun a does => (does.about unmodified u addressed).touches h
  have start : n.Addresses u n := .of_links rfl
  -- Events that change no leg leave every message for the UE.
  have calm : (∀ u, ¬e.Connects u) → (∀ u, e ≠ .released u) →
      (∀ r, e = .request r → ¬Routing.Reaches r Api.transferUpdate) →
      n.Addresses u (e.handle n).2 := fun unconnected unreleased unreported =>
    (does_course e n).chain.addresses h touches
      (fun a does => does.may.still unconnected unreleased unreported) start
  cases e with
  | request r =>
    by_cases reaches : Routing.Reaches r Api.transferUpdate
    · exact (report_chain reaches n addressed).addresses_of_silent h (fun _ may => may.2) fun _ may =>
        may.1
    · exact calm nofun nofun fun _ is => by cases is; exact reaches
  | connected v gnb ran rat =>
    obtain same | ⟨m, step, chain⟩ := connected_chain v gnb ran rat n
    · rw [same]
      exact start
    · have silent : m.links = n.links := by
        cases step
        exact Node.links_connect
      refine chain.addresses (step.ordered h) (fun a may => ?_) (fun a may => ?_) (.of_links silent)
      · exact (touches a may.1).of_fewer fun id key left =>
          Context.sessionKey_of_within step.sessions_within left
      · obtain ⟨does, quiet⟩ := may
        cases a with
        | connect | detach => cases quiet
        | disconnect => cases does.may
        | _ => rfl
  | released v =>
    obtain same | step := handle_released v n
    · rw [same]
      exact start
    · refine .of_links ?_
      generalize ((released v).handle n).2 = n' at step
      cases step
      rfl
  | _ => exact calm nofun nofun nofun

/-- **UEs are isolated from each other.** In a context whose stores and legs are in order, an event
that is about one UE leaves everything of every other UE as it is, and hands to the radio network
nothing but pagings of the UE and messages on its leg. Only a notification of changed subscriber data
may be about several UEs. -/
theorem handle_isolates (intact : n.context.Intact) (joined : n.context.Joined)
    (unmodified : ¬e.IsModification) (addressed : e.addressee? n.context = some u) :
    n.Isolates u (e.handle n).2 := by
  have h := Context.Ordered.of_intact intact joined
  have chain := (does_course e n).chain
  have keeps : ∀ v, v ≠ u → n.context.Keeps v (e.handle n).2.context := fun v other =>
    chain.keeps_of_ne h (fun a does => (does.about unmodified u addressed).touches h) other
  have paired' : (e.handle n).2.context.Paired :=
    (chain.keeps (P := fun m => m.context.Joined) (fun _ _ _ _ step => step.joined) joined).paired
  exact ⟨keeps, fun v other => (keeps v other).legOf?_eq joined.paired paired',
    handle_addresses h unmodified addressed⟩

/-- After any events, from any context that was set up, the stores and the legs are in order, and T3513
starts when it is asked for. -/
theorem run_ready {config : Config} {c : Context} (provisioned : Provisioned config c)
    (metrics : Metrics) (links : Links) (es : List Event) :
    let n := run es { context := c, metrics, links }
    n.context.Intact ∧ n.context.Joined ∧ n.context.timers.configs.t3513.enabled = true := by
  intro n
  have kept : n.context.Coherent ∧ n.context.Joined ∧ n.context.Attended :=
    run_keeps (P := fun n => n.context.Coherent ∧ n.context.Joined ∧ n.context.Attended)
      (fun _ _ _ step h => ⟨step.coherent h.1, step.joined h.2.1, step.attended h.2.2⟩) es
      ⟨provisioned.coherent, provisioned.fresh.joined, provisioned.fresh.attended⟩
  exact ⟨kept.1.intact, kept.2.1, kept.2.2.enabled .t3513⟩

set_option maxRecDepth 4000 in
/-- The hypotheses are satisfiable: one UE has a leg while the other, which has a session with the
same identity, is paged again. -/
theorem handle_isolates_paged :
    let os : List Operation := [.addUe, .addUe, .setGuti 1 default, .addSession 1 5,
      .addSession 2 5, .handle (.connected 2 3 7 .nr), .page 1 (.release none []) none]
    let n := Operation.run os { context := Config.context default }
    let e := timer .t3513 1 1
    (n.context.Intact ∧ n.context.Joined ∧ ¬e.IsModification ∧ e.addressee? n.context = some 1) ∧
      n.Isolates 1 (e.handle n).2 ∧
      (e.handle n).2.links.offered.length = n.links.offered.length + 1 := by
  intro os n e
  have intact : n.context.Intact := (Operation.run_intact default {} {} os).toIntact
  have joined : n.context.Joined := by
    refine (Operation.run_tallied .start rfl {} os fun o mem => ?_).joined
    simp only [os, List.mem_cons, List.not_mem_nil, or_false] at mem
    obtain rfl | rfl | rfl | rfl | rfl | rfl | rfl := mem <;> rfl
  have unmodified : ¬e.IsModification := fun ⟨_, is, _⟩ => (nomatch is)
  exact ⟨⟨intact, joined, unmodified, rfl⟩, handle_isolates intact joined unmodified rfl, by decide⟩

end Event
end Amf
