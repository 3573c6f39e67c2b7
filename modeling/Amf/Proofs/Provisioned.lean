import Amf.Config
import Amf.Proofs.Connections

/-!
# Contexts before the first event

The contexts that are set up from a configuration before any event is dealt with: UEs, identities
and sessions are added one by one, and what is known about a UE or a session is filled in. In such a
context no UE has a leg, nothing is parked, no timer runs and nothing is held back
(`Context.Fresh`).
-/

namespace Amf

/-- What is known about a UE changes, but for its names, its leg, its sessions and its paging. -/
def Ue.Describes (f : Ue → Ue) : Prop :=
  ∀ x, (f x).supi = x.supi ∧ (f x).guti = x.guti ∧ (f x).leg = x.leg ∧ (f x).sessions = x.sessions ∧
    (f x).pagingMessage = x.pagingMessage

/-- What is known about a session changes, but for its UE, its identity and what it holds back. -/
def Session.Describes (f : Session → Session) : Prop :=
  ∀ s, (f s).key = s.key ∧ (f s).heldSetup = s.heldSetup ∧ (f s).heldCommand = s.heldCommand

/-- A context that was set up from a configuration. -/
inductive Provisioned (config : Config) : Context → Prop
  | start : Provisioned config config.context
  | addUe {c c' : Context} {u : Nat} (before : Provisioned config c)
      (added : c.addUe = some (u, c')) : Provisioned config c'
  | setSupi {c : Context} (before : Provisioned config c) (u : Nat) (supi : String) :
      Provisioned config (c.setSupi u supi)
  | setGuti {c : Context} (before : Provisioned config c) (u : Nat) (guti : Guti) :
      Provisioned config (c.setGuti u guti)
  | addSession {c c' : Context} {u id : Nat} {psi : UInt8} (before : Provisioned config c)
      (added : c.addSession u psi = some (id, c')) : Provisioned config c'
  | describeUe {c : Context} (before : Provisioned config c) (u : Nat) {f : Ue → Ue}
      (describes : Ue.Describes f) : Provisioned config (c.modifyUe u f)
  | describeSession {c : Context} (before : Provisioned config c) (id : Nat) {f : Session → Session}
      (describes : Session.Describes f) : Provisioned config (c.modifySession id f)

namespace Context

/-- Nothing has happened yet. -/
structure Fresh (c : Context) : Prop where
  /-- UEs and sessions point at each other. -/
  listed : c.Listed
  /-- The next UE has a new number; no UE has a leg, or is paged. -/
  ues : ∀ u x, c.ues.get? u = some x → u < c.nextUe ∧ x.leg = none ∧ x.pagingMessage = none
  /-- The next session has a new number; no session holds a setup request back. -/
  sessions : ∀ id s, c.sessions.get? id = some s → id < c.nextSession ∧ s.heldSetup = none
  /-- There are no legs. -/
  legs : c.legs = .empty
  /-- Nothing is parked. -/
  parked : c.parked = .empty
  /-- No timer runs. -/
  running : c.timers.running = []
  /-- Every timer may be started. -/
  enabled : ∀ kind, (c.timers.configs.of kind).enabled = true

namespace Fresh

variable {c c' : Context}

/-- No UE has a leg. -/
theorem idle (h : Fresh c) (u : Nat) : c.legOf? u = none := by
  unfold legOf?
  cases hx : c.ues.get? u with
  | none => rfl
  | some x => rw [Option.bind_some, (h.ues u x hx).2.1]; rfl

theorem numbered (h : Fresh c) : c.Numbered := by
  constructor
  · intro k l hl
    rw [h.legs] at hl
    cases hl
  · intro u x k hx hk
    rw [(h.ues u x hx).2.1] at hk
    cases hk
  · intro j k l m hl
    rw [h.legs] at hl
    cases hl

theorem isRunning (h : Fresh c) (kind : TimerKind) (u : Nat) : c.timers.isRunning kind u = false := by
  unfold Timers.isRunning
  rw [h.running]
  rfl

end Fresh

/-- A UE that is added has the next number. -/
theorem eq_of_addUe {c c' : Context} {u : Nat} (added : c.addUe = some (u, c')) :
    u = c.nextUe ∧ c' = { c with ues := c.ues.insert c.nextUe {}, nextUe := c.nextUe + 1 } := by
  unfold addUe at added
  split at added
  · cases added
  · cases added
    exact ⟨rfl, rfl⟩

/-- What holds with a new UE and without, holds after one was asked for. -/
theorem of_addUe {P : Context → Prop} {c : Context} (full : P c)
    (added : P { c with ues := c.ues.insert c.nextUe {}, nextUe := c.nextUe + 1 }) :
    P (c.addUe.elim c (·.2)) := by
  cases room : c.addUe with
  | none => exact full
  | some r =>
    obtain ⟨-, is⟩ := eq_of_addUe room
    rw [Option.elim_some, is]
    exact added

theorem sessionIds_addUe {c : Context} (v : Nat) :
    sessionIds { c with ues := c.ues.insert c.nextUe {}, nextUe := c.nextUe + 1 } v =
      if v = c.nextUe then some [] else c.sessionIds v := by
  unfold sessionIds
  rw [Table.get?_insert]
  split <;> rfl

/-- A new UE has no sessions. -/
theorem Listed.addUe {c : Context} (h : c.Listed) (new : c.ues.get? c.nextUe = none) :
    Listed { c with ues := c.ues.insert c.nextUe {}, nextUe := c.nextUe + 1 } := by
  refine ⟨fun id u psi key => ?_, fun u list id hu mem => ?_, h.unique⟩
  · obtain ⟨list, hu, mem⟩ := h.owner id u psi key
    have other : u ≠ c.nextUe := by
      rintro rfl
      unfold sessionIds at hu
      rw [new] at hu
      cases hu
    rw [sessionIds_addUe, if_neg other]
    exact ⟨list, hu, mem⟩
  · rw [sessionIds_addUe] at hu
    split at hu
    · cases hu
      cases mem
    · exact h.listed u list id hu mem

/-- A session that is added has the next number, and an identity that is new to its UE. -/
theorem eq_of_addSession {c c' : Context} {u id : Nat} {psi : UInt8}
    (added : c.addSession u psi = some (id, c')) :
    c.findSession? u psi = none ∧ id = c.nextSession ∧ ∃ x, c.ues.get? u = some x ∧
      c' = { c with
        ues := c.ues.insert u { x with sessions := x.sessions ++ [c.nextSession] }
        sessions := c.sessions.insert c.nextSession { psi, ue := u }
        nextSession := c.nextSession + 1 } := by
  unfold addSession at added
  split at added
  · cases added
  · rename_i new
    rw [not_or, Bool.not_eq_true, Option.isSome_eq_false_iff, Option.isNone_iff_eq_none] at new
    split at added
    · cases added
    · rename_i x hx
      split at added
      · cases added
      · cases added
        exact ⟨new.2, rfl, x, hx, rfl⟩

/-- What holds with a new session of a known UE and without, holds after one was asked for. -/
theorem of_addSession {P : Context → Prop} {c : Context} {u : Nat} {psi : UInt8} (full : P c)
    (added : ∀ x, c.ues.get? u = some x → P { c with
      ues := c.ues.insert u { x with sessions := x.sessions ++ [c.nextSession] }
      sessions := c.sessions.insert c.nextSession { psi, ue := u }
      nextSession := c.nextSession + 1 }) :
    P ((c.addSession u psi).elim c (·.2)) := by
  cases room : c.addSession u psi with
  | none => exact full
  | some r =>
    obtain ⟨-, -, x, known, is⟩ := eq_of_addSession room
    rw [Option.elim_some, is]
    exact added x known

theorem sessionKey_addSession {c c' : Context} {u id : Nat} {psi : UInt8}
    (added : c.addSession u psi = some (id, c')) (i : Nat) :
    c'.sessionKey i = if i = c.nextSession then some (u, psi) else c.sessionKey i := by
  obtain ⟨-, -, x, -, rfl⟩ := eq_of_addSession added
  unfold sessionKey
  rw [Table.get?_insert]
  split <;> rfl

theorem sessionIds_addSession {c c' : Context} {u id : Nat} {psi : UInt8}
    (added : c.addSession u psi = some (id, c')) (v : Nat) : c'.sessionIds v =
      if v = u then (c.sessionIds u).map (· ++ [c.nextSession]) else c.sessionIds v := by
  obtain ⟨-, -, x, hx, rfl⟩ := eq_of_addSession added
  unfold sessionIds
  rw [Table.get?_insert, hx]
  split <;> rfl

/-- A new session is listed by its UE. -/
theorem Listed.addSession {c c' : Context} {u id : Nat} {psi : UInt8} (h : c.Listed)
    (new : ∀ i key, c.sessionKey i = some key → i < c.nextSession)
    (added : c.addSession u psi = some (id, c')) : c'.Listed := by
  have key := sessionKey_addSession added
  have ids := sessionIds_addSession added
  obtain ⟨unassigned, -, x, hx, -⟩ := eq_of_addSession added
  have old := sessionIds_of_some hx
  -- The identity is new to the UE, so no session had it before.
  have fresh : ∀ i, c.sessionKey i ≠ some (u, psi) := by
    intro i hi
    rw [h.findSession?_eq_some_iff.2 hi] at unassigned
    cases unassigned
  constructor
  · intro i v psi' hi
    rw [key] at hi
    rw [ids]
    split at hi
    · cases hi
      rename_i last
      rw [if_pos rfl, old]
      exact ⟨_, rfl, List.mem_append_right _ (List.mem_singleton.2 last)⟩
    · obtain ⟨list, hv, mem⟩ := h.owner i v psi' hi
      split
      · rename_i same
        rw [same, old] at hv
        cases hv
        rw [old]
        exact ⟨_, rfl, List.mem_append_left _ mem⟩
      · exact ⟨list, hv, mem⟩
  · intro v list i hv mem
    rw [ids] at hv
    rw [key]
    split at hv
    · rename_i same
      rw [old] at hv
      cases hv
      rcases List.mem_append.1 mem with mem | last
      · obtain ⟨psi', hi⟩ := h.listed u x.sessions i old mem
        rw [if_neg (Nat.ne_of_lt (new i _ hi)), same]
        exact ⟨psi', hi⟩
      · rw [if_pos (List.mem_singleton.1 last), same]
        exact ⟨psi, rfl⟩
    · obtain ⟨psi', hi⟩ := h.listed v list i hv mem
      rw [if_neg (Nat.ne_of_lt (new i _ hi))]
      exact ⟨psi', hi⟩
  · intro i j k hi hj
    rw [key] at hi hj
    split at hi <;> split at hj
    · omega
    · cases hi
      exact absurd hj (fresh j)
    · cases hj
      exact absurd hi (fresh i)
    · exact h.unique i j k hi hj

/-- A UE that is known gets a name, or nothing happens. -/
inductive Names (c : Context) : Context → Prop
  | nothing : Names c c
  | name {u : Nat} {x : Ue} (known : c.ues.get? u = some x) (supi : Option String) (guti : Option Guti)
      (supis gutis : Index) :
      Names c { c with ues := c.ues.insert u { x with supi, guti }, supis, gutis }

theorem names_setSupi {c : Context} {u : Nat} {supi : String} : c.Names (c.setSupi u supi) := by
  unfold setSupi
  split
  · exact .nothing
  · rename_i known
    exact .name known _ _ _ _

theorem names_setGuti {c : Context} {u : Nat} {guti : Guti} : c.Names (c.setGuti u guti) := by
  unfold setGuti
  split
  · exact .nothing
  · rename_i known
    exact .name known _ _ _ _

/-- A name leaves alone what else is known about UEs. -/
theorem Names.map_ues {β : Type} {c c' : Context} {g : Ue → β} (names : c.Names c')
    (same : ∀ x supi guti, g { x with supi, guti } = g x) (v : Nat) :
    (c'.ues.get? v).map g = (c.ues.get? v).map g := by
  cases names with
  | nothing => rfl
  | name known => exact Table.map_get?_insert known (same _ _ _)

theorem Names.sameSessions {c c' : Context} (names : c.Names c') : c.SameSessions c' := by
  refine ⟨names.map_ues fun _ _ _ => rfl, fun id => ?_⟩
  cases names <;> rfl

/-- What is said about UEs leaves a context in which nothing has happened so. -/
theorem Fresh.of_ues {c : Context} (h : Fresh c) {ues : Table Ue} (supis gutis : Index)
    (same : Table.Within (fun x y => y.leg = x.leg ∧ y.pagingMessage = x.pagingMessage) c.ues ues)
    (ids : ∀ u, (ues.get? u).map (·.sessions) = c.sessionIds u) :
    Fresh { c with ues, supis, gutis } := by
  refine ⟨h.listed.of_same ⟨ids, fun _ => rfl⟩, fun u y hy => ?_, h.sessions, h.legs, h.parked,
    h.running, h.enabled⟩
  obtain ⟨x, hx, leg, paging⟩ := same u y hy
  rw [leg, paging]
  exact h.ues u x hx

theorem Fresh.of_names {c c' : Context} (names : c.Names c') (h : Fresh c) : Fresh c' := by
  cases names with
  | nothing => exact h
  | name known =>
    exact h.of_ues _ _ (Table.within_insert (fun _ => ⟨rfl, rfl⟩) known ⟨rfl, rfl⟩)
      fun v => Table.map_get?_insert known rfl

end Context

/-- **A context that was set up is one in which nothing has happened.** -/
theorem Provisioned.fresh {config : Config} {c : Context} (h : Provisioned config c) : c.Fresh := by
  induction h with
  | start =>
    refine ⟨⟨?_, ?_, ?_⟩, ?_, ?_, rfl, rfl, rfl, config.timers_enabled⟩
    · intro id u psi key
      cases key
    · intro u ids id list
      cases list
    · intro i j key hi
      cases hi
    · intro u x hx
      cases hx
    · intro id s hs
      cases hs
  | @addUe c c' u before added ih =>
    obtain ⟨-, rfl⟩ := Context.eq_of_addUe added
    have new : c.ues.get? c.nextUe = none := by
      rw [Option.eq_none_iff_forall_not_mem]
      intro x hx
      exact Nat.lt_irrefl _ (ih.ues c.nextUe x hx).1
    refine ⟨ih.listed.addUe new, fun u x hx => ?_, ih.sessions, ih.legs, ih.parked, ih.running,
      ih.enabled⟩
    change (c.ues.insert c.nextUe {}).get? u = some x at hx
    rw [Table.get?_insert] at hx
    split at hx
    · rename_i is
      cases hx
      exact ⟨by simp only; omega, rfl, rfl⟩
    · obtain ⟨below, rest⟩ := ih.ues u x hx
      exact ⟨Nat.lt_succ_of_lt below, rest⟩
  | setSupi _ _ _ ih => exact ih.of_names Context.names_setSupi
  | setGuti _ _ _ ih => exact ih.of_names Context.names_setGuti
  | @addSession c c' u id psi before added ih =>
    have listed : c'.Listed := ih.listed.addSession (fun i key hi => by
      obtain ⟨s, hs, -⟩ := Option.map_eq_some_iff.1 hi
      exact (ih.sessions i s hs).1) added
    obtain ⟨-, -, x, hx, rfl⟩ := Context.eq_of_addSession added
    refine ⟨listed, fun v y hy => ?_, fun i s hs => ?_, ih.legs, ih.parked, ih.running, ih.enabled⟩
    · change (c.ues.insert u _).get? v = some y at hy
      rw [Table.get?_insert] at hy
      split at hy
      · rename_i is
        cases hy
        rw [is]
        exact ih.ues u x hx
      · exact ih.ues v y hy
    · change (c.sessions.insert c.nextSession _).get? i = some s at hs
      rw [Table.get?_insert] at hs
      split at hs
      · cases hs
        exact ⟨by simp only; omega, rfl⟩
      · obtain ⟨below, rest⟩ := ih.sessions i s hs
        exact ⟨Nat.lt_succ_of_lt below, rest⟩
  | @describeUe c before u f describes ih =>
    exact ih.of_ues _ _ (Table.within_modify (fun _ => ⟨rfl, rfl⟩) fun x =>
      ⟨(describes x).2.2.1, (describes x).2.2.2.2⟩) fun v =>
        Table.map_get?_modify fun x => (describes x).2.2.2.1
  | @describeSession c before id f describes ih =>
    have same : c.SameSessions (c.modifySession id f) :=
      .of_modifySession rfl rfl fun s => (describes s).1
    refine ⟨ih.listed.of_same same, ih.ues, fun i s hs => ?_, ih.legs, ih.parked, ih.running,
      ih.enabled⟩
    change (c.sessions.modify id f).get? i = some s at hs
    obtain ⟨s₀, h₀, same⟩ := Table.within_modify (R := fun s t => t.heldSetup = s.heldSetup)
      (fun _ => rfl) (fun s => (describes s).2.1) i s hs
    rw [same]
    exact ih.sessions i s₀ h₀

/-! ## A UE with a session -/

/-- A context with one UE, which has a permanent and a temporary identity. -/
def Context.oneUe : Context :=
  (((Config.context default).addUe.elim (Config.context default) (·.2)).setSupi 1 "imsi-1").setGuti 1
    { plmn := .ofCodes "999" "70", amf := { region := 2, set := 1 }, tmsi := 7 }

/-- That UE with one session, of identity 5. -/
def Context.oneSession : Context := (oneUe.addSession 1 5).elim oneUe (·.2)

theorem provisioned_oneSession : Provisioned default Context.oneSession := by
  have ue : Provisioned default Context.oneUe :=
    .setGuti (.setSupi (.addUe (u := 1) .start rfl) 1 "imsi-1") 1 _
  have added : Context.oneUe.addSession 1 5 = some (1, Context.oneSession) := rfl
  exact .addSession ue added

/-- A request to set session 5 of the UE up, with a target to tell when the UE cannot be reached. -/
def Request.setUp : Request :=
  { method := "POST"
    service := Api.communication
    components := [Api.ueContexts, "imsi-1", Api.messages]
    body := some (Document.toJson ({
      n2 := some {
        informationClass := .sm
        session := some {
          psi := 5
          content := some { ie := some .setupRequest, data := some { contentId := "n2" } } } }
      failureUri := some "http://10.0.0.7/failures" } : Document.TransferBody))
    parts := [("n2", [1, 2])] }

end Amf
