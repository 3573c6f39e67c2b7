import Amf.Proofs.Conjunction
import Amf.Proofs.Held
import Amf.Proofs.Integrity

/-!
# The ledger of sessions

Which sessions a UE has can be told from what was done to an AMF and what came of it, without a look
at how the AMF keeps them: a ledger gets an entry at its end with each session that is added, and loses
it when the session ends (`Deed.book`). The lists of the UEs and the table of the sessions follow it
(`Tallies`, `Deed.tallies`). So in a mobility registration the context of a UE that another AMF asks
for lists the UE's entries of the ledger, each once and in order, with what is known about each session
(`Relocation.exec_request_sessions`).

| what is done | ledger |
| --- | --- |
| a session is added | one more, at the end |
| a session is removed, its release is completed, or its rejection succeeds | one less |
| a UE is removed | without the entries of the UE |
| anything else | as before |
-/

namespace Amf

open Context Procedure

/-! ## Sessions that end -/

/-- What may end a session. -/
inductive Ending where
  /-- The session is removed. -/
  | removal (session : Nat)
  /-- A confirmation of its release. -/
  | release (session : Nat) (i : ReleaseInput)
  /-- A transfer that rejects it. -/
  | rejection (o : Transfer.Order)

/-- The session that may end. -/
def Ending.session : Ending → Nat
  | removal id | release id _ => id
  | rejection o => o.session

/-- The session ends: a confirmation is said to complete its release, a rejection to have gone well. -/
def Ending.succeeds (n : Node) : Ending → Bool
  | removal _ => true
  | release id i => match ((Release.input id i).exec n).1 with
    | .ok complete => complete
    | .error _ => false
  | rejection o => ((Transfer.run o).exec n).1.isOk

/-- The session that ends, if one does. -/
def Ending.ended? (n : Node) (e : Option Ending) : Option Nat := (e.filter (·.succeeds n)).map (·.session)

/-- A transfer without information to the radio network rejects its session. -/
def Transfer.Order.ending? (o : Order) : Option Ending :=
  if o.kind = .reject then some (.rejection o) else none

namespace Routing

/-- A request notifies of the status of a session. -/
def ReportsStatus (r : Request) : Prop :=
  r.service = Api.callback ∧ r.component? 1 = some Api.sessionStatus ∧ r.method = "POST"

instance : DecidablePred ReportsStatus := fun _ => inferInstanceAs (Decidable (_ ∧ _ ∧ _))

/-- The session that a request notifies of, and its status. -/
def statusInput? (r : Request) (c : Context) : Option (Nat × ReleaseInput) := do
  let psi ← psiOf? (r.component? 2)
  let b : Document.SessionStatus ← r.body.bind Document.ofJson?
  let info ← b.info
  let u ← (r.component? 0).bind c.findSupi?
  let id ← c.findSession? u psi
  return (id, .status (some info.status))

/-- What a request may end. -/
def ending? (r : Request) (n : Node) : Option Ending :=
  if Reaches r Api.messages then
    match ((transferOrder r).exec n).1 with
    | .ok o => o.ending?
    | .error _ => none
  else if ReportsStatus r then (statusInput? r n.context).map fun s => .release s.1 s.2
  else none

end Routing

/-- What an event may end. -/
def Event.ending? (e : Event) (n : Node) : Option Ending :=
  match e with
  | request r => Routing.ending? r n
  | n1Released u psi => (n.context.findSession? u psi).map (.release · .n1Released)
  | n2Released u psi => (n.context.findSession? u psi).map (.release · .n2Released)
  | _ => none

/-- What an operation may end, other than all sessions of a UE at once. -/
def Operation.ending? (o : Operation) (n : Node) : Option Ending :=
  match o with
  | removeSession id => some (.removal id)
  | handle e => e.ending? n
  | perform (.transfer o) => o.ending?
  | perform (.release id i) => some (.release id i)
  | _ => none

/-- The sessions are as before, but for one that is gone. -/
def Context.Loses (c c' : Context) : Option Nat → Prop
  | none => c.SameSessions c'
  | some id => (c.removeSession id).SameSessions c'

variable {n n' : Node} {A : Act → Prop}

/-- Acts that remove no session end none. -/
theorem Chain.loses (stays : ∀ a, A a → ∀ id, a ≠ .remove id) (chain : Chain A n n') :
    n.context.Loses n'.context none := chain.sameSessions stays

/-- **A session goes with the input that completes its release.** -/
theorem Release.loses (id : Nat) (i : ReleaseInput) (n : Node) :
    n.context.Loses ((input id i).exec n).2.context (Ending.ended? n (some (.release id i))) := by
  unfold Ending.ended?
  rw [Option.filter_some]
  cases there : n.context.sessions.get? id with
  | none =>
    rw [Ending.succeeds, exec_input_of_none there]
    exact .refl
  | some s =>
    by_cases agreed : (s.record i).fullyReleased = true
    · rw [Ending.succeeds, exec_input_of_agreed there agreed]
      exact .refl
    · rw [Ending.succeeds, exec_input_of_open there agreed]
      exact .of_modifySession rfl rfl fun s => by cases i <;> rfl

namespace Transfer

variable {o : Order}

/-- A rejection that fails leaves the context alone, and one that succeeds removes the session. -/
theorem reject_cases (kind : o.kind = .reject) :
    (((run o).exec n).1.isOk = false ∧ ((run o).exec n).2.context = n.context) ∨
    (((run o).exec n).1.isOk = true ∧ ((run o).exec n).2.context = n.context.removeSession o.session) := by
  unfold run
  rw [exec_context_bind]
  cases session : n.context.sessions.get? o.session with
  | none => exact .inl ⟨rfl, rfl⟩
  | some s =>
    rw [exec_bind_of_ok (exec_need_some s _ n), exec_context_bind, (reads_need _ _).exec_bind]
    split
    · rw [kind]
      simp only
      unfold reject Order.needN1
      rw [(reads_need _ _).exec_bind]
      split
      · rename_i n1 _
        have kept : ((Delivery.reject o.session n1).exec n).2.context = n.context :=
          Delivery.context_reject n1
        rw [exec_bind]
        generalize (Delivery.reject o.session n1).exec n = result at kept
        obtain ⟨fault | _, m⟩ := result
        · exact .inl ⟨rfl, kept⟩
        · exact .inr ⟨rfl, congrArg (·.removeSession o.session) kept⟩
      · exact .inl ⟨rfl, rfl⟩
    · exact .inl ⟨rfl, rfl⟩

/-- **A session goes with a rejection of it that succeeds, and with no other transfer.** -/
theorem loses (o : Order) (n : Node) :
    n.context.Loses ((run o).exec n).2.context (Ending.ended? n o.ending?) := by
  unfold Ending.ended? Order.ending?
  by_cases kind : o.kind = .reject
  · rw [if_pos kind, Option.filter_some, Ending.succeeds]
    obtain ⟨failed, same⟩ | ⟨done, gone⟩ := reject_cases (n := n) kind
    · rw [failed, same]
      exact .refl
    · rw [done, gone]
      exact .refl
  · rw [if_neg kind]
    obtain ⟨s, p, -, -, -, step⟩ | ⟨-, course⟩ := run_ends (A := fun a => ∀ id, a ≠ .remove id) o n
      (fun _ _ _ _ => nofun) (fun _ => ⟨nofun, nofun⟩) (fun _ _ _ => nofun)
      (fun is => absurd is kind) fun _ _ => nofun
    · exact step.sameSessions nofun
    · exact course.chain.loses fun _ => id

end Transfer

namespace Procedure

variable {α β γ : Type} {p : Procedure α} {f : α → Procedure β} {x : Option α} {g : α → Option γ}
  {fault : Fault}

/-- A procedure finds something, or fails where there is nothing; it leaves the state alone. -/
def Finds (p : Procedure α) (n : Node) : Option α → Prop
  | none => ∃ fault, p.exec n = (.error fault, n)
  | some a => p.exec n = (.ok a, n)

theorem finds_need : (need x fault).Finds n x := by
  cases x with
  | none => exact ⟨fault, rfl⟩
  | some a => rfl

theorem Finds.bind {g : α → Option β} (first : p.Finds n x) (rest : ∀ a, (f a).Finds n (g a)) :
    (p >>= f).Finds n (x.bind g) := by
  cases x with
  | none =>
    obtain ⟨fault, failed⟩ := first
    exact ⟨fault, exec_bind_of_error failed f⟩
  | some a =>
    have next := rest a
    unfold Finds at next ⊢
    rwa [exec_bind_of_ok first]

/-- What follows sees the same state, and what was found. -/
theorem Finds.snd_bind {h : γ → Node} (first : p.Finds n x)
    (rest : ∀ a, ((f a).exec n).2 = (g a).elim n h) : ((p >>= f).exec n).2 = (x.bind g).elim n h := by
  cases x with
  | none =>
    obtain ⟨fault, failed⟩ := first
    rw [exec_bind_of_error failed]
    rfl
  | some a =>
    rw [exec_bind_of_ok first]
    exact rest a

end Procedure

namespace Routing

variable {r : Request}

theorem route_of_reportsStatus (reports : ReportsStatus r) (n : Node) :
    (route r).exec n = (sessionStatus r).exec n := by
  obtain ⟨service, resource, post⟩ := reports
  have other : ¬r.service = Api.communication := by
    rw [service]
    decide
  unfold route dispatch requirePost
  rw [if_neg other, if_pos service, resource, post]
  rfl

/-- A notification of a status comes to the input that it reports, or fails before. -/
theorem snd_sessionStatus (r : Request) (n : Node) : ((sessionStatus r).exec n).2 =
    (statusInput? r n.context).elim n fun s => ((Release.input s.1 s.2).exec n).2 := by
  have parses : (parse r "SmContextStatusNotification" : Procedure Document.SessionStatus).Finds n
      (r.body.bind Document.ofJson?) := finds_need.bind fun _ => finds_need
  have names : (findSupi (r.component? 0)).Finds n ((r.component? 0).bind n.context.findSupi?) :=
    finds_need.bind fun _ => finds_need
  refine finds_need.snd_bind fun psi => parses.snd_bind fun b => finds_need.snd_bind fun info =>
    names.snd_bind fun u => finds_need.snd_bind fun id => ?_
  exact exec_bind_pure_snd (Release.input id _) (fun _ => ({ status := .noContent } : Response)) n

/-- A request that removes no session ends none. -/
theorem Ends.loses {result : Except Fault Response × Node}
    (ends : Ends (fun a => ∀ id, a ≠ .remove id) r n result) : n.context.Loses result.2.context none := by
  obtain ⟨_, _, _, _, _, _, _, _, _, _, step⟩ | ⟨-, course⟩ := ends
  · exact step.sameSessions fun _ => nofun
  · exact course.chain.loses fun _ stays => stays

/-- **A session goes with a request that completes its release or rejects it.** -/
theorem loses (r : Request) (n : Node) :
    n.context.Loses ((route r).exec n).2.context (Ending.ended? n (ending? r n)) := by
  unfold ending?
  by_cases transfers : Reaches r Api.messages
  · rw [if_pos transfers, route_of_reaches transfers]
    unfold transfer
    rw [(reads_transferOrder r).exec_bind]
    cases ((transferOrder r).exec n).1 with
    | error fault => exact .refl
    | ok o =>
      simp only
      rw [exec_bind_pure_snd (Transfer.run o)]
      exact Transfer.loses o n
  rw [if_neg transfers]
  by_cases reports : ReportsStatus r
  · rw [if_pos reports, route_of_reportsStatus reports, snd_sessionStatus]
    cases statusInput? r n.context with
    | none => exact .refl
    | some s => exact Release.loses s.1 s.2 n
  rw [if_neg reports]
  -- The requests that are left remove no session.
  obtain ⟨fault, failed⟩ | ⟨reaches, -⟩ | ⟨reaches, same⟩ | ⟨-, handler, notifies, same⟩ := route_cases r n
  · rw [failed]
    exact .refl
  · exact absurd reaches transfers
  · rw [same]
    exact (relocationUpdate_ends reaches (fun _ _ => nofun) fun _ _ _ _ _ _ _ => nofun).loses
  · rw [same]
    exact (notification_ends notifies (fun _ _ => nofun)
      (fun service resource post => absurd ⟨service, resource, post⟩ reports)
      (fun _ _ _ _ => ⟨fun _ _ => nofun, fun _ => nofun, fun _ => nofun⟩)
      fun _ _ _ => ⟨fun _ _ => nofun, fun _ => nofun, fun _ => nofun, fun _ => nofun⟩).loses

end Routing

/-- Only requests and confirmations of releases remove sessions. -/
theorem Event.ne_remove_of_may {e : Event} {a : Act} (may : e.May n a) (plain : ¬e.IsPlain)
    (unreleased : ¬e.IsRelease) (id : Nat) : a ≠ .remove id := by
  rintro rfl
  exact may.elim plain unreleased

/-- **A session goes with an event that completes its release or rejects it.** -/
theorem Event.loses (e : Event) (n : Node) :
    n.context.Loses (e.handle n).2.context (Ending.ended? n (e.ending? n)) := by
  have confirms : ∀ (u : Nat) (psi : UInt8) (i : ReleaseInput),
      n.context.Loses ((recordRelease u psi i).exec n).2.context
        (Ending.ended? n ((n.context.findSession? u psi).map (.release · i))) := by
    intro u psi i
    unfold recordRelease
    rw [exec_context_bind]
    cases n.context.findSession? u psi with
    | none => exact .refl
    | some id => exact Release.loses id i n
  cases e with
  | request r =>
    show n.context.Loses (Routing.handle r n).2.context _
    rw [Routing.handle_snd]
    exact Routing.loses r n
  | n1Released u psi => exact confirms u psi .n1Released
  | n2Released u psi => exact confirms u psi .n2Released
  | _ =>
    refine (handle_course _ n).chain.loses fun a may => Event.ne_remove_of_may may ?_ ?_
    · exact fun ⟨_, is, _⟩ => nomatch is
    · exact fun ⟨_, _, is⟩ => is.elim nofun nofun

/-! ## The ledger -/

/-- A session that was added. -/
structure Entry where
  ue : Nat
  session : Nat
  psi : UInt8
  deriving DecidableEq

/-- The sessions that were added and have not ended, in the order in which they were added. -/
abbrev Ledger := List Entry

/-- The entries of a UE, in order. -/
def Ledger.of (l : Ledger) (u : Nat) : List Entry := l.filter (·.ue = u)

/-- The ledger after an operation. -/
def Operation.book (o : Operation) (n : Node) (l : Ledger) : Ledger :=
  match o with
  | addSession u psi => (n.context.addSession u psi).elim l fun added => l ++ [⟨u, added.1, psi⟩]
  | removeUe u => l.filter (·.ue ≠ u)
  | o => (Ending.ended? n (o.ending? n)).elim l fun id => l.filter (·.session ≠ id)

/-- What is done to an AMF: an operation, or something is filled in about a UE or a session. -/
inductive Deed where
  | operate (o : Operation)
  | describeUe (ue : Nat) (f : Ue → Ue) (describes : Ue.Describes f)
  | describeSession (session : Nat) (f : Session → Session) (describes : Session.Describes f)

namespace Deed

/-- The state after a deed. -/
def apply : Deed → Node → Node
  | operate o, n => o.apply n
  | describeUe u f _, n => n.change (·.modifyUe u f)
  | describeSession id f _, n => n.change (·.modifySession id f)

/-- The ledger after a deed. -/
def book : Deed → Node → Ledger → Ledger
  | operate o, n, l => o.book n l
  | _, _, l => l

/-- The state and the ledger after deeds, in order. -/
def follow (ds : List Deed) (n : Node) (l : Ledger) : Node × Ledger :=
  ds.foldl (fun s d => (d.apply s.1, d.book s.1 s.2)) (n, l)

end Deed

/-! ## What follows the ledger -/

/-- What a UE lists once a session is gone. -/
theorem Context.Listed.ids_removeSession {c : Context} (h : c.Listed) (id v : Nat) :
    ((c.removeSession id).sessionIds v).getD [] = ((c.sessionIds v).getD []).filter (· ≠ id) := by
  -- A list without the session stays.
  have stays : (∀ psi, c.sessionKey id ≠ some (v, psi)) →
      (c.sessionIds v).getD [] = ((c.sessionIds v).getD []).filter (· ≠ id) := by
    intro other
    cases list : c.sessionIds v with
    | none => rfl
    | some ids =>
      refine (List.filter_eq_self.2 fun j mem => decide_eq_true ?_).symm
      rintro rfl
      obtain ⟨psi, key⟩ := h.listed v ids j list mem
      exact other psi key
  cases key : c.sessionKey id with
  | none =>
    rw [removeSession_of_none (Option.map_eq_none_iff.1 key)]
    exact stays fun psi => by rw [key]; exact nofun
  | some owner =>
    obtain ⟨u, psi⟩ := owner
    rw [sessionIds_removeSession key]
    split
    · cases c.sessionIds v <;> rfl
    · rename_i other
      refine stays fun psi' is => ?_
      rw [key] at is
      cases is
      exact other rfl

/-- The lists of the UEs and the table of the sessions are those of the ledger. -/
structure Tallies (l : Ledger) (c : Context) : Prop where
  /-- A UE lists its entries, and no UE that is unknown has any. -/
  ids : ∀ u, (c.sessionIds u).getD [] = (l.of u).map (·.session)
  key : ∀ e ∈ l, c.sessionKey e.session = some (e.ue, e.psi)
  /-- Sessions have numbers in the order in which they were added. -/
  increasing : l.Pairwise (·.session < ·.session)

namespace Tallies

variable {l : Ledger} {c c' : Context} {u id : Nat} {psi : UInt8}

theorem of_same (same : c.SameSessions c') (h : Tallies l c) : Tallies l c' := by
  refine ⟨fun u => ?_, fun e mem => ?_, h.increasing⟩
  · rw [same.ids]
    exact h.ids u
  · rw [same.key]
    exact h.key e mem

/-- A session that is gone has no entry any more. -/
theorem removeSession (h : Tallies l c) (listed : c.Listed) (id : Nat) :
    Tallies (l.filter (·.session ≠ id)) (c.removeSession id) := by
  refine ⟨fun v => ?_, fun e mem => ?_, h.increasing.filter _⟩
  · rw [listed.ids_removeSession, h.ids, List.filter_map]
    unfold Ledger.of
    rw [List.filter_comm]
    rfl
  · obtain ⟨mem, other⟩ := List.mem_filter.1 mem
    rw [sessionKey_removeSession, if_neg (of_decide_eq_true other)]
    exact h.key e mem

theorem of_loses {gone : Option Nat} (loses : c.Loses c' gone) (listed : c.Listed) (h : Tallies l c) :
    Tallies (gone.elim l fun id => l.filter (·.session ≠ id)) c' := by
  cases gone with
  | none => exact h.of_same loses
  | some id => exact (h.removeSession listed id).of_same loses

/-- A UE that is added has no entries. -/
theorem addUe (h : Tallies l c) (new : c.ues.get? c.nextUe = none) :
    Tallies l { c with ues := c.ues.insert c.nextUe {}, nextUe := c.nextUe + 1 } := by
  refine ⟨fun v => ?_, h.key, h.increasing⟩
  rw [← h.ids, sessionIds_addUe]
  split
  · rename_i is
    unfold sessionIds
    rw [is, new]
    rfl
  · rfl

/-- A session that is added gets an entry at the end. -/
theorem addSession (h : Tallies l c) (rostered : c.Rostered)
    (added : c.addSession u psi = some (id, c')) : Tallies (l ++ [⟨u, id, psi⟩]) c' := by
  have below : ∀ e ∈ l, e.session < id := by
    intro e mem
    rw [(eq_of_addSession added).2.1]
    exact rostered.numbered _ _ (h.key e mem)
  obtain ⟨-, is, x, known, -⟩ := eq_of_addSession added
  refine ⟨fun v => ?_, fun e mem => ?_, ?_⟩
  · rw [sessionIds_addSession added, Ledger.of, List.filter_append, List.map_append, ← Ledger.of, ← h.ids,
      List.filter_singleton, ← is]
    by_cases same : v = u
    · rw [if_pos same, same, sessionIds_of_some known]
      simp
    · have other : ¬u = v := fun is => same is.symm
      rw [if_neg same]
      simp [other]
  · rw [sessionKey_addSession added, ← is]
    obtain mem | last := List.mem_append.1 mem
    · rw [if_neg (Nat.ne_of_lt (below e mem))]
      exact h.key e mem
    · rw [List.mem_singleton.1 last, if_pos rfl]
  · refine List.pairwise_append.2 ⟨h.increasing, List.pairwise_singleton _ _, fun e mem f last => ?_⟩
    rw [List.mem_singleton.1 last]
    exact below e mem

/-- A UE that goes has no entries any more. -/
theorem removeUe (h : Tallies l c) (listed : c.Listed) (u : Nat) :
    Tallies (l.filter (·.ue ≠ u)) (c.removeUe u) := by
  cases known : c.ues.get? u with
  | none =>
    -- An unknown UE has none before.
    have none : l.of u = [] := by
      have ids := h.ids u
      unfold sessionIds at ids
      rw [known] at ids
      exact List.map_eq_nil_iff.1 ids.symm
    have all : l.filter (·.ue ≠ u) = l := by
      refine List.filter_eq_self.2 fun e mem => ?_
      have other := List.filter_eq_nil_iff.1 none e mem
      simpa using other
    rw [all, removeUe_of_none known]
    exact h
  | some x =>
    refine ⟨fun v => ?_, fun e mem => ?_, h.increasing.filter _⟩
    · have own : ∀ e ∈ l.of v, e.ue = v := fun e mem => of_decide_eq_true (List.mem_filter.1 mem).2
      rw [sessionIds_removeUe known, Ledger.of, List.filter_comm, ← Ledger.of]
      split
      · rename_i is
        have none : (l.of v).filter (·.ue ≠ u) = [] :=
          List.filter_eq_nil_iff.2 fun e mem => by simp [own e mem, is]
        rw [none]
        rfl
      · rename_i other
        have all : (l.of v).filter (·.ue ≠ u) = l.of v :=
          List.filter_eq_self.2 fun e mem => by simp [own e mem, other]
        rw [all, h.ids]
    · obtain ⟨mem, other⟩ := List.mem_filter.1 mem
      have key := h.key e mem
      rw [sessionKey_removeUe known, if_neg (listed.not_mem_of_ne known key (of_decide_eq_true other))]
      exact key

end Tallies

/-- The operation adds a UE or a session, or removes a UE. -/
def Operation.enrolls : Operation → Bool
  | .addUe | .removeUe _ | .addSession .. => true
  | _ => false

/-- **A session goes with a procedure that completes its release or rejects it.** -/
theorem Task.loses (t : Task) (n : Node) :
    n.context.Loses (t.perform n).context (Ending.ended? n ((Operation.perform t).ending? n)) := by
  have stays : ∀ a : Act, (∀ id, a ≠ .remove id) → ∀ id, a ≠ .remove id := fun _ stays => stays
  cases t with
  | transfer o => exact Transfer.loses o n
  | release id i => exact Release.loses id i n
  | relocation id b =>
    show n.context.SameSessions ((Relocation.request id b).exec n).2.context
    rw [Relocation.reads_request id b n]
    exact .refl
  | relocationUpdate id r =>
    exact (Relocation.update_course (fun _ _ => nofun) fun _ _ _ _ _ _ => nofun).chain.loses stays
  | deregistration u d =>
    exact (Deregistration.notify_chain (fun _ _ => nofun) (fun _ => nofun) (fun _ => nofun)
      fun _ _ => nofun).loses stays
  | subscriberData m =>
    exact (Subscription.notify_chain (fun _ _ => nofun) (fun _ _ _ => nofun) (fun _ _ => nofun)
      (fun _ _ => nofun) fun _ _ => nofun).loses stays

/-- **A session goes with an operation that ends it.** -/
theorem Operation.loses (o : Operation) (other : o.enrolls = false) :
    n.context.Loses (o.apply n).context (Ending.ended? n (o.ending? n)) := by
  have quiet : ∀ a : Act, a.quiet = true → ∀ id, a ≠ .remove id := by
    rintro a quiet id rfl
    cases quiet
  cases o with
  | addUe | removeUe | addSession => cases other
  | setSupi u supi => exact names_setSupi.sameSessions
  | setGuti u guti => exact names_setGuti.sameSessions
  | removeSession id => exact .refl
  | onLegs o => exact o.sameSessions
  | handle e => exact e.loses n
  | perform t => exact t.loses n
  | page id payload uri =>
    obtain ⟨m, begins, chain⟩ := Paging.start_begins id payload uri n
    exact begins.sameSessions.trans (chain.sameSessions quiet)
  | answer u =>
    exact (Node.Begins.answer u).sameSessions.trans ((Paging.answered_chain u n).sameSessions quiet)

/-- **The lists and the table follow the ledger through every operation.** -/
theorem Operation.tallies (o : Operation) {l : Ledger} (coherent : n.context.Coherent)
    (h : Tallies l n.context) : Tallies (o.book n l) (o.apply n).context := by
  have listed := coherent.rostered.listed
  cases enrolls : o.enrolls with
  | false =>
    have book : o.book n l = (Ending.ended? n (o.ending? n)).elim l fun id => l.filter (·.session ≠ id) := by
      cases o with
      | addUe | removeUe | addSession => cases enrolls
      | _ => rfl
    rw [book]
    exact h.of_loses (o.loses enrolls) listed
  | true =>
    cases o with
    | addUe =>
      show Tallies l (n.context.addUe.elim n.context (·.2))
      cases added : n.context.addUe with
      | none => exact h
      | some r =>
        obtain ⟨-, is⟩ := eq_of_addUe added
        rw [Option.elim_some, is]
        exact h.addUe coherent.registered.new
    | removeUe u => exact h.removeUe listed u
    | addSession u psi =>
      show Tallies ((n.context.addSession u psi).elim l fun added => l ++ [⟨u, added.1, psi⟩])
        ((n.context.addSession u psi).elim n.context (·.2))
      cases added : n.context.addSession u psi with
      | none => exact h
      | some r => exact h.addSession coherent.rostered added
    | _ => cases enrolls

/-- **The lists and the table follow the ledger through every deed.** -/
theorem Deed.tallies (d : Deed) {l : Ledger} (coherent : n.context.Coherent)
    (h : Tallies l n.context) : Tallies (d.book n l) (d.apply n).context := by
  cases d with
  | operate o => exact o.tallies coherent h
  | describeUe u f describes => exact h.of_same (sameSessions_describeUe describes)
  | describeSession id f describes => exact h.of_same (sameSessions_describeSession describes)

theorem Deed.coherent (d : Deed) (h : n.context.Coherent) : (d.apply n).context.Coherent := by
  cases d with
  | operate o => exact o.coherent h
  | describeUe u f describes => exact h.describeUe describes
  | describeSession id f describes => exact h.describeSession describes

/-- **The lists and the table follow the ledger through every run.** -/
theorem Deed.follow_tallies (ds : List Deed) {l : Ledger} (coherent : n.context.Coherent)
    (h : Tallies l n.context) :
    (follow ds n l).1.context.Coherent ∧ Tallies (follow ds n l).2 (follow ds n l).1.context := by
  induction ds generalizing n l with
  | nil => exact ⟨coherent, h⟩
  | cons d ds ih => exact ih (d.coherent coherent) (d.tallies coherent h)

/-- A context without UEs follows the ledger without entries. -/
theorem Config.tallies (config : Config) : Tallies [] config.context :=
  ⟨fun _ => rfl, nofun, .nil⟩

/-! ## What is handed over -/

/-- A session in brief is that of an entry: it has the reference, the slice, the data network and the
access that are known about the session of the entry. -/
def Entry.IsShown (c : Context) (e : Entry) (b : Document.SessionBody) : Prop :=
  ∃ s, c.sessions.get? e.session = some s ∧ s.key = (e.ue, e.psi) ∧
    b.psi = e.psi ∧ b.smRef = s.smRef ∧ b.slice = .ofSlice s.slice ∧ b.dnn = s.dnn ∧ b.access = s.access

/-- A list of sessions is that of the entries of a UE: each is shown once, in the order in which the
sessions were added, and no two have the same identity. -/
structure Context.Lists (c : Context) (es : List Entry) (bodies : List Document.SessionBody) : Prop where
  shown : List.Forall₂ (Entry.IsShown c) es bodies
  increasing : es.Pairwise (·.session < ·.session)
  distinct : (bodies.map (·.psi)).Nodup

namespace Tallies

variable {l : Ledger} {c c' : Context} {u id : Nat} {psi : UInt8}

/-- The sessions of a UE are those of its entries. -/
theorem sessionsOf (h : Tallies l c) (u : Nat) : c.sessionsOf u =
    (l.of u).filterMap fun e => c.sessions.get? e.session := by
  have ids := h.ids u
  unfold Context.sessionsOf
  unfold sessionIds at ids
  cases known : c.ues.get? u with
  | none =>
    rw [known] at ids
    rw [List.map_eq_nil_iff.1 ids.symm]
    rfl
  | some x =>
    rw [known] at ids
    have ids : x.sessions = (l.of u).map (·.session) := ids
    simp only [ids, List.filterMap_map]
    rfl

/-- Entries with a session each are shown one by one. -/
theorem shown : ∀ {es : List Entry}, (∀ e ∈ es, c.sessionKey e.session = some (e.ue, e.psi)) →
    List.Forall₂ (Entry.IsShown c) es
      ((es.filterMap fun e => c.sessions.get? e.session).map Relocation.sessionBody)
  | [], _ => .nil
  | e :: es, keys => by
    obtain ⟨s, hs, is⟩ := Option.map_eq_some_iff.1 (keys e List.mem_cons_self)
    have rest := shown fun e mem => keys e (List.mem_cons_of_mem _ mem)
    rw [List.filterMap_cons_some (f := fun e : Entry => c.sessions.get? e.session) hs, List.map_cons]
    exact .cons ⟨s, hs, is, (Prod.mk.inj is).2, rfl, rfl, rfl, rfl⟩ rest

/-- What is shown has the identities of the entries. -/
theorem map_psi {es : List Entry} {bodies : List Document.SessionBody}
    (shown : List.Forall₂ (Entry.IsShown c) es bodies) : bodies.map (·.psi) = es.map (·.psi) := by
  induction shown with
  | nil => rfl
  | cons first _ ih =>
    obtain ⟨s, -, -, psi, -⟩ := first
    rw [List.map_cons, List.map_cons, psi, ih]

theorem lists (h : Tallies l c) (rostered : c.Rostered) (u : Nat) :
    c.Lists (l.of u) ((c.sessionsOf u).map Relocation.sessionBody) := by
  have keys : ∀ e ∈ l.of u, c.sessionKey e.session = some (u, e.psi) := by
    intro e mem
    obtain ⟨mem, own⟩ := List.mem_filter.1 mem
    rw [h.key e mem, of_decide_eq_true own]
  have shown : List.Forall₂ (Entry.IsShown c) (l.of u) ((c.sessionsOf u).map Relocation.sessionBody) := by
    rw [h.sessionsOf]
    exact shown fun e mem => h.key e (List.mem_filter.1 mem).1
  refine ⟨shown, h.increasing.filter _, ?_⟩
  -- Entries of one identity are for one session, and every session has one entry.
  rw [map_psi shown]
  refine List.pairwise_map.2 ((h.increasing.filter _).imp_of_mem fun {e f} he hf less is => ?_)
  have same := rostered.listed.unique _ _ _ (keys e he) (is ▸ keys f hf)
  omega

end Tallies

/-- A session that is added comes after the other sessions of its UE. -/
theorem Context.Rostered.sessionsOf_addSession {c c' : Context} {u id : Nat} {psi : UInt8}
    (h : c.Rostered) (added : c.addSession u psi = some (id, c')) :
    c'.sessionsOf u = c.sessionsOf u ++ [{ psi, ue := u }] := by
  obtain ⟨-, -, x, known, rfl⟩ := eq_of_addSession added
  have old : ∀ i ∈ x.sessions, i ≠ c.nextSession := by
    intro i mem
    obtain ⟨psi', key⟩ := h.listed.listed u x.sessions i (sessionIds_of_some known) mem
    exact Nat.ne_of_lt (h.numbered i _ key)
  unfold Context.sessionsOf
  simp only [known, Table.get?_insert_self, List.filterMap_append]
  congr 1
  · refine List.filterMap_congr fun i mem => ?_
    exact Table.get?_insert_of_ne (old i mem)
  · simp [Table.get?_insert_self]

namespace Relocation

/-- **The sessions of a UE are handed over in a mobility registration, all of them, each once and in the
order in which they were added**, after any deeds on an AMF without UEs. What is listed are the entries
of the UE in the ledger, with the reference, the slice, the data network and the access of their
sessions; no two have the same identity, and a session that is added next, also under an identity that
was removed before, comes last. In a request for another reason there is no list. -/
theorem exec_request_sessions (config : Config) (metrics : Metrics) (links : Links) (ds : List Deed)
    {n : Node} {l : Ledger}
    (done : Deed.follow ds { context := config.context, metrics, links } [] = (n, l)) {name : String}
    {u : Nat} {x : Ue} (found : n.context.findUe? name = some u) (known : n.context.ues.get? u = some x)
    (b : Document.RelocationBody) :
    ∃ answer, (request (some name) b).exec n = (.ok answer, n) ∧
      (b.reason ≠ .mobilityRegistration → answer.ueContext.sessions = none) ∧
      (b.reason = .mobilityRegistration → ∃ bodies, answer.ueContext.sessions = some bodies ∧
        n.context.Lists (l.of u) bodies ∧
        ∀ psi id c', n.context.addSession u psi = some (id, c') →
          ∃ later, (request (some name) b).exec (n.change fun _ => c') =
              (.ok later, n.change fun _ => c') ∧
            later.ueContext.sessions = some (bodies ++ [sessionBody { psi, ue := u }])) := by
  have kept := Deed.follow_tallies ds (n := { context := config.context, metrics, links })
    config.coherent_context config.tallies
  rw [done] at kept
  obtain ⟨coherent, tallies⟩ := kept
  refine ⟨_, exec_request found known b, fun other => if_neg other, fun mobility => ?_⟩
  refine ⟨_, if_pos mobility, tallies.lists coherent.rostered u, fun psi id c' added => ?_⟩
  have order := coherent.rostered.sessionsOf_addSession added
  obtain ⟨-, -, y, -, is⟩ := eq_of_addSession added
  have found' : (n.change fun _ => c').context.findUe? name = some u := by
    rw [is]
    exact found
  have known' : (n.change fun _ => c').context.ues.get? u =
      some { y with sessions := y.sessions ++ [n.context.nextSession] } := by
    rw [is]
    exact Table.get?_insert_self _ _ _
  refine ⟨_, exec_request found' known' b, (if_pos mobility).trans ?_⟩
  show some ((c'.sessionsOf u).map sessionBody) = _
  rw [order, List.map_append]
  rfl

set_option maxRecDepth 4000 in
/-- The hypotheses are satisfiable: of five sessions of two UEs one is released, one is rejected, and the
identity of the released one is given again. -/
theorem exec_request_sessions_again :
    let ds : List Deed := [.operate .addUe, .operate (.setSupi 1 "imsi-1"), .operate .addUe,
      .operate (.addSession 1 5), .operate (.addSession 2 5), .operate (.addSession 1 2),
      .describeSession 3 (fun s => { s with smRef := some "sm-2" }) fun _ => ⟨rfl, rfl, rfl⟩,
      .operate (.addSession 1 7), .operate (.addSession 1 9), .operate (.handle (.n1Released 1 5)),
      .operate (.handle (.n2Released 1 5)), .operate (.perform (.release 1 (.status (some .released)))),
      .operate (.perform (.transfer
        { session := 4, kind := .reject, n1 := some [1], n2 := none, skip := false, failureUri := none })),
      .operate (.addSession 1 5)]
    let s := Deed.follow ds { context := Config.context default } []
    s.2.of 1 = [⟨1, 3, 2⟩, ⟨1, 5, 9⟩, ⟨1, 6, 5⟩] ∧
    ∃ x answer bodies, (s.1.context.findUe? "imsi-1" = some 1 ∧ s.1.context.ues.get? 1 = some x) ∧
      (request (some "imsi-1") ⟨.mobilityRegistration, .threeGpp⟩).exec s.1 = (.ok answer, s.1) ∧
      answer.ueContext.sessions = some bodies ∧ s.1.context.Lists (s.2.of 1) bodies := by
  intro ds s
  obtain ⟨x, known⟩ : ∃ x, s.1.context.ues.get? 1 = some x := Option.isSome_iff_exists.1 (by decide)
  have found : s.1.context.findUe? "imsi-1" = some 1 := by decide
  obtain ⟨answer, done, -, lists⟩ := exec_request_sessions default {} {} ds rfl found known
    ⟨.mobilityRegistration, .threeGpp⟩
  obtain ⟨bodies, is, lists, -⟩ := lists rfl
  exact ⟨by decide, x, answer, bodies, ⟨found, known⟩, done, is, lists⟩

end Relocation
end Amf
