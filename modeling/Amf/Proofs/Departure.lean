import Amf.Proofs.Isolation

/-!
# UEs that another AMF has taken over

The AMF that a UE has moved to reports that it took the UE over, and names the sessions that it could
not take. The session management functions are asked to release these, and then everything that ties
the UE to this AMF goes at once; if one of them cannot be asked, nothing goes
(`Relocation.update_all_or_nothing`).

| report | requests | context |
| --- | --- | --- |
| taken over, every request is accepted | one for each confirmed session that is named | without the UE's ties |
| taken over, a request is refused | those up to the refused one | as before |
| not taken over, or nothing said | none | as before |

What goes is spread over five tables: the legs, the parked transfers, the timers, the record of the UE
and the messages that its sessions hold back (`Context.Departed`).
-/

namespace Amf

open Procedure

namespace Relocation

variable {c : Context} {n : Node} {u : Nat} {x : Ue} {psi : UInt8} {psis : List UInt8} {smRef name : String}

/-! ## Requests for releases -/

/-- A session of a UE has an identity, and its session management function knows it by a reference. -/
def Confirms (c : Context) (u : Nat) (psi : UInt8) (smRef : String) : Prop :=
  ∃ id s, c.sessions.get? id = some s ∧ s.ue = u ∧ s.psi = psi ∧ s.smRef = some smRef

/-- The requests for releases that a list of identities comes to: one for each that names a session with
a reference, in the order of the list. -/
inductive Asks (c : Context) (u : Nat) (name : String) : List UInt8 → List PeerRequest → Prop
  | nil : Asks c u name [] []
  | asked {psi : UInt8} {smRef : String} {psis : List UInt8} {qs : List PeerRequest}
      (confirmed : Confirms c u psi smRef) (rest : Asks c u name psis qs) :
      Asks c u name (psi :: psis) (.releaseSession name psi smRef :: qs)
  | passed {psi : UInt8} {psis : List UInt8} {qs : List PeerRequest}
      (unconfirmed : ∀ smRef, ¬Confirms c u psi smRef) (rest : Asks c u name psis qs) :
      Asks c u name (psi :: psis) qs

/-- The reference of the session that an identity names, if it has one. -/
def smRefOf? (c : Context) (u : Nat) (psi : UInt8) : Option String :=
  ((c.findSession? u psi).bind c.sessions.get?).bind (·.smRef)

theorem smRefOf?_eq_some_iff (listed : c.Listed) :
    smRefOf? c u psi = some smRef ↔ Confirms c u psi smRef := by
  unfold smRefOf? Confirms
  rw [Option.bind_assoc, Option.bind_eq_some_iff]
  refine exists_congr fun id => ?_
  rw [listed.findSession?_eq_some_iff]
  constructor
  · rintro ⟨key, reference⟩
    obtain ⟨s, session, ofUe, identity⟩ := Context.exists_of_sessionKey key
    rw [session] at reference
    exact ⟨s, session, ofUe, identity, reference⟩
  · rintro ⟨s, session, rfl, rfl, reference⟩
    rw [session]
    exact ⟨Context.sessionKey_of_some session, reference⟩

/-- The request for the release of the session that an identity names. -/
def request? (c : Context) (u : Nat) (name : String) (psi : UInt8) : Option PeerRequest :=
  (smRefOf? c u psi).map (.releaseSession name psi)

theorem asks_filterMap (listed : c.Listed) :
    ∀ psis, Asks c u name psis (psis.filterMap (request? c u name))
  | [] => .nil
  | psi :: psis => by
    have rest := asks_filterMap listed psis
    cases reference : smRefOf? c u psi with
    | none =>
      have none : request? c u name psi = none := by rw [request?, reference]; rfl
      rw [List.filterMap_cons_none none]
      refine .passed (fun smRef confirmed => ?_) rest
      rw [← smRefOf?_eq_some_iff listed, reference] at confirmed
      cases confirmed
    | some smRef =>
      have some : request? c u name psi = some (.releaseSession name psi smRef) := by
        rw [request?, reference]; rfl
      rw [List.filterMap_cons_some some]
      exact .asked ((smRefOf?_eq_some_iff listed).1 reference) rest

/-! ## Releases in order -/

theorem request?_eq_some_iff {q : PeerRequest} : request? c u name psi = some q ↔
    ∃ id s smRef, c.findSession? u psi = some id ∧ c.sessions.get? id = some s ∧ s.psi = psi ∧
      s.smRef = some smRef ∧ q = .releaseSession name psi smRef := by
  unfold request? smRefOf?
  simp only [Option.map_eq_some_iff, Option.bind_eq_some_iff]
  constructor
  · rintro ⟨smRef, ⟨s, ⟨id, found, session⟩, reference⟩, rfl⟩
    obtain ⟨-, t, -, -, session', identity⟩ := Context.exists_of_findSession? found
    rw [session] at session'
    cases session'
    exact ⟨id, s, smRef, found, session, identity, reference, rfl⟩
  · rintro ⟨id, s, smRef, found, session, -, reference, rfl⟩
    exact ⟨smRef, ⟨s, ⟨id, found, session⟩, reference⟩, rfl⟩

section
variable (known : n.context.ues.get? u = some x)
include known

/-- An identity that names no confirmed session is passed over, and the release is not complete. -/
theorem exec_releaseAll_cons_none (none : request? n.context u x.name psi = none) :
    (releaseAll u (psi :: psis)).exec n =
      (((releaseAll u psis).exec n).1.map fun _ => false, ((releaseAll u psis).exec n).2) := by
  rw [releaseAll, exec_context_bind, known]
  split
  · rename_i y s is session
    cases is
    obtain ⟨id, found, session⟩ := Option.bind_eq_some_iff.1 session
    unfold releaseInSmf
    split
    · rw [exec_pure_bind]
      exact exec_bind_pure _ _ _
    · rename_i smRef reference
      obtain ⟨-, t, -, -, session', identity⟩ := Context.exists_of_findSession? found
      rw [session] at session'
      cases session'
      rw [request?_eq_some_iff.2 ⟨id, s, smRef, found, session, identity, reference, rfl⟩] at none
      cases none
  · rw [exec_pure_bind]
    exact exec_bind_pure _ _ _

/-- An identity that names a confirmed session comes to a request first. -/
theorem exec_releaseAll_cons_some {q : PeerRequest} (some : request? n.context u x.name psi = some q) :
    (releaseAll u (psi :: psis)).exec n = (emit (.peer q) >>= fun _ => releaseAll u psis).exec n := by
  obtain ⟨id, s, smRef, found, session, rfl, reference, rfl⟩ := request?_eq_some_iff.1 some
  rw [releaseAll, exec_context_bind, known, found, Option.bind_some, session]
  simp only [releaseInSmf, reference]
  rw [bind_assoc, exec_bind, exec_bind]
  generalize (emit _).exec n = outcome
  obtain ⟨_ | _, m⟩ := outcome
  · rfl
  · simp only [pure_bind, Bool.true_and, bind_pure]

/-- **When every request is accepted, each confirmed session that is named is asked for**, and the
release is complete if there is one for each identity. -/
theorem exec_releaseAll_of_accepted (psis : List UInt8)
    (accepted : n.links.acceptsAll ((psis.filterMap (request? n.context u x.name)).map .peer) = true) :
    (releaseAll u psis).exec n = (.ok (psis.all fun psi => (request? n.context u x.name psi).isSome),
      n.offerAll ((psis.filterMap (request? n.context u x.name)).map .peer)) := by
  induction psis generalizing n with
  | nil => rfl
  | cons psi psis ih =>
    cases asked : request? n.context u x.name psi with
    | none =>
      rw [List.filterMap_cons_none asked] at accepted ⊢
      rw [exec_releaseAll_cons_none known asked, ih known accepted, List.all_cons, asked]
      rfl
    | some q =>
      rw [List.filterMap_cons_some asked, List.map_cons, Links.acceptsAll, Bool.and_eq_true] at accepted
      have handed : (emit (.peer q)).exec n = (.ok (), n.offer (.peer q)) := by
        rw [exec_emit, verdict, if_pos accepted.1]
      rw [exec_releaseAll_cons_some known asked, exec_bind_of_ok handed, List.all_cons, asked,
        List.filterMap_cons_some asked]
      exact ih (n := n.offer (.peer q)) known accepted.2

/-- **When a request is refused, the context is as before.** -/
theorem exec_releaseAll_of_refused (psis : List UInt8)
    (refused : n.links.acceptsAll ((psis.filterMap (request? n.context u x.name)).map .peer) = false) :
    ((releaseAll u psis).exec n).1 = .error (.send (.transportClosed "SBI nsmf-pdusession")) ∧
      ((releaseAll u psis).exec n).2.context = n.context := by
  induction psis generalizing n with
  | nil => cases refused
  | cons psi psis ih =>
    cases asked : request? n.context u x.name psi with
    | none =>
      rw [List.filterMap_cons_none asked] at refused
      obtain ⟨outcome, same⟩ := ih known refused
      rw [exec_releaseAll_cons_none known asked, outcome]
      exact ⟨rfl, same⟩
    | some q =>
      rw [List.filterMap_cons_some asked, List.map_cons, Links.acceptsAll] at refused
      rw [exec_releaseAll_cons_some known asked]
      by_cases first : n.links.accepts (.peer q) = true
      · have handed : (emit (.peer q)).exec n = (.ok (), n.offer (.peer q)) := by
          rw [exec_emit, verdict, if_pos first]
        rw [exec_bind_of_ok handed]
        rw [first, Bool.true_and] at refused
        exact ih (n := n.offer (.peer q)) known refused
      · have handed : (emit (.peer q)).exec n =
            (.error (.send (.transportClosed "SBI nsmf-pdusession")), n.offer (.peer q)) := by
          obtain ⟨id, s, smRef, -, -, -, -, rfl⟩ := request?_eq_some_iff.1 asked
          rw [exec_emit, verdict, if_neg first]
          rfl
        rw [exec_bind_of_error handed]
        exact ⟨rfl, rfl⟩

end

end Relocation

/-! ## What goes with a UE -/

namespace Context

variable {c : Context} {u id : Nat} {x : Ue}

/-- A session holds nothing back once its number is among those of the sessions that are let go. -/
theorem get?_letGoAll : ∀ (ids : List Nat) (t : Table Session),
    (letGoAll t ids).get? id =
      (t.get? id).map fun s => if id ∈ ids then Relocation.letGo s else s
  | [], t => by
    cases there : t.get? id <;> simp [letGoAll, there]
  | i :: ids, t => by
    show (letGoAll (t.modify i Relocation.letGo) ids).get? id = _
    rw [get?_letGoAll ids, Table.get?_modify]
    by_cases first : id = i
    · subst first
      cases there : t.get? id with
      | none => simp
      | some s => by_cases again : id ∈ ids <;> simp [again, Relocation.letGo]
    · simp [first]

/-- The leg of a UE is gone, and so is the number by which the UE used it. -/
theorem Paired.withoutLeg_eq_erase (paired : c.Paired) : c.withoutLeg u = { c with
    ues := c.ues.modify u fun x => { x with leg := none }
    legs := match c.legOf? u with
      | some (k, _) => c.legs.erase k
      | none => c.legs } := by
  rw [paired.withoutLeg_eq]
  cases leg : c.legOf? u with
  | some has => exact paired.freeLeg_eq leg
  | none =>
    have unused : c.ues.modify u (fun x => { x with leg := none }) = c.ues := by
      refine Table.modify_eq_self fun x known => ?_
      have uses := paired.uses_of_none leg
      rw [known, Option.bind_some] at uses
      rw [← uses]
    rw [freeLeg_of_none leg]
    simp only [unused]

/-- A UE is gone to another AMF: it has no leg here, nothing is parked or kept for it, no timer of it
runs, and its sessions hold nothing back. Everything else is as before. -/
structure Departed (c : Context) (u : Nat) (x : Ue) (c' : Context) : Prop where
  idle : c'.connection u = .idle
  /-- The leg that the UE had is gone, and no other. -/
  legs : ∀ k, c'.legs.get? k =
    if (c.legOf? u).map (·.1) = some k then none else c.legs.get? k
  unparked : c'.parked.get? u = none
  stopped : ∀ kind, c'.timers.isRunning kind u = false
  /-- The UE has kept its identities, its security, its policy and its sessions. -/
  ue : c'.ues.get? u =
    some { x with leg := none, pagingMessage := none, deregistrationMessage := none }
  /-- Every session is there, and those of the UE hold nothing back. -/
  sessions : ∀ id, c'.sessions.get? id = (c.sessions.get? id).map fun s =>
    if s.ue = u then { s with heldSetup := none, heldCommand := none } else s
  /-- What belongs to other UEs is as before. -/
  others : ∀ v, v ≠ u → c.Keeps v c'
  rest : c' = { c with
    ues := c'.ues, sessions := c'.sessions, legs := c'.legs, parked := c'.parked
    timers := { c.timers with running := c'.timers.running } }

theorem departed_detach (listed : c.Listed) (paired : c.Paired) (known : c.ues.get? u = some x) :
    c.Departed u x (Relocation.detach c u) := by
  have gone := paired.withoutLeg_eq_erase (u := u)
  have ids : (c.sessionIds u).getD [] = x.sessions := by
    rw [sessionIds_of_some known]
    rfl
  have own : ∀ id s, c.sessions.get? id = some s → (id ∈ x.sessions ↔ s.ue = u) := by
    intro id s session
    have key := sessionKey_of_some session
    constructor
    · intro mem
      obtain ⟨psi, key'⟩ := listed.listed u x.sessions id (sessionIds_of_some known) mem
      rw [key] at key'
      exact (Prod.mk.inj (Option.some.inj key')).1
    · rintro rfl
      obtain ⟨list, is, mem⟩ := listed.owner id s.ue s.psi key
      rw [sessionIds_of_some known] at is
      cases is
      exact mem
  have record : (Relocation.detach c u).ues.get? u =
      some { x with leg := none, pagingMessage := none, deregistrationMessage := none } := by
    rw [detach_eq, gone]
    show ((c.ues.modify u _).modify u _).get? u = _
    rw [Table.get?_modify_self, Table.get?_modify_of_some known]
    rfl
  refine ⟨?_, fun k => ?_, ?_, fun kind => ?_, record, fun id => ?_, fun v other => ?_, ?_⟩
  · unfold connection legOf?
    rw [record]
    rfl
  · rw [detach_eq, gone]
    show (match c.legOf? u with | some (k, _) => c.legs.erase k | none => c.legs).get? k = _
    cases leg : c.legOf? u with
    | none => rfl
    | some has =>
      show (c.legs.erase has.1).get? k = _
      rw [Table.get?_erase]
      simp only [Option.map_some, Option.some_inj, eq_comm]
  · rw [detach_eq]
    exact Table.get?_erase_self _ _
  · rw [detach_eq]
    exact Bool.eq_false_iff.2 fun runs => (Timers.isRunning_stopAll.1 runs).1 rfl
  · rw [detach_eq, ids]
    show (letGoAll c.sessions x.sessions).get? id = _
    rw [get?_letGoAll]
    cases session : c.sessions.get? id with
    | none => rfl
    | some s =>
      rw [Option.map_some, Option.map_some]
      by_cases mine : s.ue = u
      · rw [if_pos ((own id s session).2 mine), if_pos mine]
        rfl
      · rw [if_neg (fun mem => mine ((own id s session).1 mem)), if_neg mine]
  · exact .detach listed paired other
  · rw [detach_eq, gone]
    rfl

end Context

/-! ## Reports -/

namespace Relocation

variable {n : Node} {u : Nat} {x : Ue} {name : String} {r : Document.StatusUpdate}

section
variable (known : n.context.ues.get? u = some x) (found : n.context.findUe? name = some u)
  (transferred : r.status = some .transferred)
include known found transferred

/-- When every request is accepted, the UE goes after the last one. -/
theorem exec_update_of_accepted
    (accepted : n.links.acceptsAll
      ((r.release.filterMap (request? n.context u x.name)).map .peer) = true) :
    let m := n.offerAll ((r.release.filterMap (request? n.context u x.name)).map .peer)
    (update (some name) r).exec n =
      (.ok { complete := r.release.all fun psi => (request? n.context u x.name psi).isSome },
        (if (m.context.legOf? u).isSome then m.uncount .ranUes else m).change (detach · u)) := by
  intro m
  rw [update, exec_bind_of_ok (exec_findUe found), transferred]
  simp only
  rw [exec_bind_of_ok (exec_releaseAll_of_accepted known r.release accepted), exec_context_bind]
  split <;> rfl

/-- When a request is refused, the UE stays. -/
theorem exec_update_of_refused
    (refused : n.links.acceptsAll
      ((r.release.filterMap (request? n.context u x.name)).map .peer) = false) :
    ((update (some name) r).exec n).1 = .error (.send (.transportClosed "SBI nsmf-pdusession")) ∧
      ((update (some name) r).exec n).2.context = n.context := by
  have failed := exec_releaseAll_of_refused known r.release refused
  rw [update, exec_bind_of_ok (exec_findUe found), transferred]
  simp only
  rw [exec_bind]
  generalize (releaseAll u r.release).exec n = outcome at failed
  obtain ⟨_ | complete, m⟩ := outcome
  · obtain ⟨is, same⟩ := failed
    cases is
    exact ⟨rfl, same⟩
  · exact nomatch failed.1

end

theorem all_isSome_request? {c : Context} (listed : c.Listed) {psis : List UInt8} :
    (psis.all fun psi => (request? c u name psi).isSome) = true ↔
      ∀ psi ∈ psis, ∃ smRef, Confirms c u psi smRef := by
  rw [List.all_eq_true]
  refine forall₂_congr fun psi _ => ?_
  unfold request?
  rw [Option.isSome_map, Option.isSome_iff_exists]
  exact exists_congr fun smRef => smRefOf?_eq_some_iff listed

/-- **A report that a UE was taken over does everything, or nothing to the context.** The session
management function is asked to release each confirmed session that the report names, in the order of
the report. If every request is accepted, the UE departs, and the release is complete if every identity
names such a session; if one is refused, the context is as before. A report that says anything else
leaves the AMF as it is. -/
theorem update_all_or_nothing (listed : n.context.Listed) (paired : n.context.Paired)
    (found : n.context.findUe? name = some u) (known : n.context.ues.get? u = some x)
    (r : Document.StatusUpdate) :
    let result := (update (some name) r).exec n
    ∃ qs, Asks n.context u x.name r.release qs ∧
      (r.status = some .transferred → n.links.acceptsAll (qs.map .peer) = true →
        ∃ complete, result.1 = .ok { complete } ∧
          (complete = true ↔ ∀ psi ∈ r.release, ∃ smRef, Confirms n.context u psi smRef) ∧
          result.2.links.offered = n.links.offered ++ qs.map .peer ∧
          result.2.links.sent = n.links.sent ++ qs.map .peer ∧
          n.context.Departed u x result.2.context) ∧
      (r.status = some .transferred → n.links.acceptsAll (qs.map .peer) = false →
        result.1 = .error (.send (.transportClosed "SBI nsmf-pdusession")) ∧
          result.2.context = n.context) ∧
      (r.status = some .notTransferred → result = (.ok { complete := false }, n)) ∧
      (r.status = none → result = (.error (.badRequest "No transfer status"), n)) := by
  refine ⟨_, asks_filterMap listed r.release, fun transferred accepted => ?_,
    exec_update_of_refused known found, fun status => ?_, fun status => ?_⟩
  · have done := exec_update_of_accepted known found transferred accepted
    set m := n.offerAll ((r.release.filterMap (request? n.context u x.name)).map .peer) with is
    have context : m.context = n.context := Node.context_offerAll _ _
    have links : (if (m.context.legOf? u).isSome then m.uncount .ranUes else m).links = m.links := by
      split <;> rfl
    rw [done]
    refine ⟨_, rfl, all_isSome_request? listed, ?_, ?_, ?_⟩
    · rw [Node.links_change, links, is, Node.offered_offerAll]
    · rw [Node.links_change, links, is, Node.sent_offerAll_of_acceptsAll accepted]
    · rw [Node.context_change, Node.context_uncountLeg, context]
      exact Context.departed_detach listed paired known
  · show (update (some name) r).exec n = _
    rw [update, exec_bind_of_ok (exec_findUe found), status]
    rfl
  · show (update (some name) r).exec n = _
    rw [update, exec_bind_of_ok (exec_findUe found), status]
    rfl

set_option maxRecDepth 4000 in
/-- The hypotheses are satisfiable: a connected UE goes whose report names a confirmed session, one that
is not confirmed and one that only another UE has. -/
theorem update_all_or_nothing_connected :
    let os : List Operation := [.addUe, .addUe, .setSupi 1 "imsi-1", .addSession 1 5, .addSession 1 6,
      .addSession 2 7, .handle (.connected 1 3 7 .nr), .handle (.sessionConfirmed 1 5 "" "sm-5"),
      .handle (.sessionConfirmed 2 7 "" "sm-7")]
    let n := Operation.run os { context := Config.context default }
    let result := (update (some "imsi-1") { status := some .transferred, release := [6, 5, 7] }).exec n
    ∃ x, (n.context.Listed ∧ n.context.Paired ∧ n.context.findUe? "imsi-1" = some 1 ∧
        n.context.ues.get? 1 = some x) ∧
      result.1 = .ok { complete := false } ∧
      result.2.links.sent = n.links.sent ++ [.peer (.releaseSession "imsi-1" 5 "sm-5")] ∧
      n.context.connection 1 = .connected ∧ n.context.Departed 1 x result.2.context := by
  intro os n result
  have listed : n.context.Listed := .of_intact (Operation.run_intact default {} {} os).toIntact
  have paired : n.context.Paired := by
    refine (Operation.run_tallied .start rfl {} os fun o mem => ?_).joined.paired
    simp only [os, List.mem_cons, List.not_mem_nil, or_false] at mem
    obtain rfl | rfl | rfl | rfl | rfl | rfl | rfl | rfl | rfl := mem <;> rfl
  obtain ⟨x, known⟩ : ∃ x, n.context.ues.get? 1 = some x := Option.isSome_iff_exists.1 (by decide)
  have found : n.context.findUe? "imsi-1" = some 1 := by decide
  have answer : result.1 = .ok { complete := false } := by decide
  have sent : result.2.links.sent = n.links.sent ++ [.peer (.releaseSession "imsi-1" 5 "sm-5")] := by
    decide
  have connected : n.context.connection 1 = .connected := by decide
  clear_value n
  obtain ⟨qs, -, accepted, refused, -⟩ := update_all_or_nothing listed paired found known
    { status := some .transferred, release := [6, 5, 7] }
  cases taken : n.links.acceptsAll (qs.map .peer) with
  | false =>
    have failed := (refused rfl taken).1.symm.trans answer
    cases failed
  | true =>
    obtain ⟨-, -, -, -, -, departed⟩ := accepted rfl taken
    exact ⟨x, ⟨listed, paired, found, known⟩, answer, sent, connected, departed⟩

end Relocation
end Amf
