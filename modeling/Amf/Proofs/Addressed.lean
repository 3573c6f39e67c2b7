import Amf.Proofs.Held

/-!
# The identifiers in messages

Every message on a leg is made for that leg and carries its identifiers (`Ngap.carries_octets`), but
for a setup request that was held back: it was made for the leg that its UE had then, and leaves on
the leg that the UE has when the session is confirmed. So the messages of a run carry the
identifiers of their legs exactly if no such request finds another leg than its own
(`Event.addressed_iff`); and those of every run do exactly if nothing is ever held back.

| octets | content |
| --- | --- |
| 0 to 2 | procedure code, criticality |
| 3 to 10 | the identifier that the AMF gave |
| 11 to 18 | the identifier that the radio network gave |
-/

namespace Amf

open Context Octets

/-- The octets of a message carry identifiers at their places. -/
def Ngap.Carries (pdu : Octets) (ids : Ngap.UeIds) : Prop :=
  (pdu.drop 3).take 8 = word 8 ids.amf ∧ (pdu.drop 11).take 8 = word 8 ids.ran.toNat

instance (pdu : Octets) (ids : Ngap.UeIds) : Decidable (Ngap.Carries pdu ids) :=
  inferInstanceAs (Decidable (_ ∧ _))

/-- A message on a leg carries the identifiers of the leg. -/
def Outbound.Addressed : Outbound → Prop
  | .radio (.toLeg _ ids pdu) => Ngap.Carries pdu ids
  | _ => True

instance : DecidablePred Outbound.Addressed
  | .radio (.toLeg _ ids pdu) => inferInstanceAs (Decidable (Ngap.Carries pdu ids))
  | .radio (.paging _ _) => .isTrue trivial
  | .peer _ => .isTrue trivial

variable {n n' : Node} {a : Act} {e : Event} {u k : Nat}

/-- A message that is made for a leg carries its identifiers, and those of no other leg. -/
theorem Ngap.carries_octets_iff (r : Ngap.Request) (ids ids' : Ngap.UeIds) :
    Carries (r.octets ids) ids' ↔
      word 8 ids.amf = word 8 ids'.amf ∧ word 8 ids.ran.toNat = word 8 ids'.ran.toNat := by
  have opens : (word 2 r.procedure ++ [r.criticality]).length = 3 := by simp
  have first : ((r.octets ids).drop 3).take 8 = word 8 ids.amf := by
    unfold Ngap.Request.octets
    rw [List.append_assoc, List.append_assoc, List.drop_left' opens]
    exact List.take_left' (length_word 8 _)
  have opens : (word 2 r.procedure ++ [r.criticality] ++ word 8 ids.amf).length = 11 := by simp
  have second : ((r.octets ids).drop 11).take 8 = word 8 ids.ran.toNat := by
    unfold Ngap.Request.octets
    rw [List.append_assoc, List.drop_left' opens]
    exact List.take_left' (length_word 8 _)
  unfold Carries
  rw [first, second]

theorem Ngap.carries_octets (r : Ngap.Request) (ids : Ngap.UeIds) : Carries (r.octets ids) ids :=
  (carries_octets_iff r ids ids).2 ⟨rfl, rfl⟩

/-! ## Steps and events -/

/-- **What a step hands over carries the identifiers of its leg**, unless it confirms a session that
holds a request back. -/
theorem Step.addressed (step : Step a n n') (empty : ∀ id s, a = .confirm id →
    n.context.sessions.get? id = some s → s.heldSetup = none) :
    ∃ ms, n'.links.offered = n.links.offered ++ ms ∧ ∀ m ∈ ms, m.Addressed := by
  obtain ⟨ms, offered, may⟩ := step.offers
  refine ⟨ms, offered, fun m mem => ?_⟩
  have may := may m mem
  match m, may with
  | .radio (.toLeg gnb ids pdu), may =>
    obtain ⟨r, rfl, -⟩ | ⟨id, s, is, session, held⟩ := may
    · exact Ngap.carries_octets r ids
    · rw [empty id s is session] at held
      cases held
  | .radio (.paging _ _), _ => trivial
  | .peer _, _ => trivial

namespace Event

/-- The event confirms a session whose setup request was made for another leg than its UE has. -/
def Misdirects (e : Event) (n : Node) : Prop :=
  ∃ u psi uri smRef id s pdu k l, e = sessionConfirmed u psi uri smRef ∧
    n.context.findSession? u psi = some id ∧ n.context.sessions.get? id = some s ∧
    s.heldSetup = some pdu ∧ n.context.legOf? s.ue = some (k, l) ∧ ¬Ngap.Carries pdu l.ids

/-- The confirmation of a session hands over what the session holds back. -/
theorem sessionConfirmed_addressed {id : Nat} {psi : UInt8} (uri smRef : String)
    (found : n.context.findSession? u psi = some id) :
    ∃ ms, ((sessionConfirmed u psi uri smRef).handle n).2.links.offered = n.links.offered ++ ms ∧
      ((∀ m ∈ ms, m.Addressed) ↔ ¬(sessionConfirmed u psi uri smRef).Misdirects n) := by
  obtain ⟨_, s, _, _, session, _⟩ := exists_of_findSession? found
  refine ⟨n.context.setupsHeld s,
    (handle_sessionConfirmed uri smRef found).offered_confirm session, ?_⟩
  constructor
  · rintro all ⟨_, _, _, _, id', s', pdu, k, l, is, found', there, held, leg, not⟩
    cases is
    rw [found] at found'
    cases found'
    rw [session] at there
    cases there
    refine not (all (.radio (.toLeg l.gnb l.ids pdu)) ?_)
    unfold setupsHeld
    rw [held, leg]
    exact List.mem_cons_self
  · intro directs m mem
    unfold setupsHeld at mem
    split at mem
    · rename_i pdu k l held leg
      rw [List.mem_singleton.1 mem]
      refine Classical.byContradiction fun not => directs ?_
      exact ⟨u, psi, uri, smRef, id, s, pdu, k, l, rfl, found, session, held, leg, not⟩
    · cases mem

/-- **What an event hands over carries the identifiers of its legs exactly if it does not misdirect
a request.** -/
theorem handle_addressed (e : Event) (n : Node) :
    ∃ ms, (e.handle n).2.links.offered = n.links.offered ++ ms ∧
      ((∀ m ∈ ms, m.Addressed) ↔ ¬e.Misdirects n) := by
  by_cases confirms : ∃ u psi uri smRef id, e = sessionConfirmed u psi uri smRef ∧
      n.context.findSession? u psi = some id
  · obtain ⟨u, psi, uri, smRef, id, rfl, found⟩ := confirms
    exact sessionConfirmed_addressed uri smRef found
  · have directs : ¬e.Misdirects n := by
      rintro ⟨u, psi, uri, smRef, id, _, _, _, _, is, found, -⟩
      exact confirms ⟨u, psi, uri, smRef, id, is, found⟩
    suffices addressed : ∃ ms, (e.handle n).2.links.offered = n.links.offered ++ ms ∧
        ∀ m ∈ ms, m.Addressed by
      obtain ⟨ms, offered, all⟩ := addressed
      exact ⟨ms, offered, iff_of_true all directs⟩
    refine (e.handle_course n).chain.keeps
      (P := fun m => ∃ ms, m.links.offered = n.links.offered ++ ms ∧ ∀ m ∈ ms, m.Addressed) ?_
      ⟨[], (List.append_nil _).symm, fun m mem => absurd mem List.not_mem_nil⟩
    rintro a m m' may step ⟨ms, offered, all⟩
    obtain ⟨ms', offered', all'⟩ := step.addressed fun id s is _ => by
      subst is
      obtain ⟨u, psi, uri, smRef, is, found⟩ := may
      exact absurd ⟨u, psi, uri, smRef, id, is, found⟩ confirms
    refine ⟨ms ++ ms', ?_, fun x mem => ?_⟩
    · rw [offered', offered, List.append_assoc]
    · rcases List.mem_append.1 mem with mem | mem
      · exact all x mem
      · exact all' x mem

/-! ## Runs -/

/-- What a run hands over, after what was handed over before. -/
theorem run_addressed (es : List Event) (n : Node) :
    ∃ ms, (run es n).links.offered = n.links.offered ++ ms ∧
      ((∀ m ∈ ms, m.Addressed) ↔
        ∀ (k : Nat) (e : Event), es[k]? = some e → ¬e.Misdirects (stateAt es n k)) := by
  induction es generalizing n with
  | nil =>
    refine ⟨[], (List.append_nil _).symm, iff_of_true (fun m mem => absurd mem List.not_mem_nil) ?_⟩
    intro k e at_
    cases at_
  | cons e es ih =>
    obtain ⟨first, offered, now⟩ := handle_addressed e n
    obtain ⟨rest, offered', later⟩ := ih (e.handle n).2
    refine ⟨first ++ rest, ?_, ?_⟩
    · rw [run_cons, offered', offered, List.append_assoc]
    · rw [List.forall_mem_append, now, later]
      constructor
      · rintro ⟨directs, others⟩ (_ | k) e' at_
        · cases at_
          exact directs
        · exact others k e' at_
      · intro all
        exact ⟨all 0 e rfl, fun k e' at_ => all (k + 1) e' at_⟩

/-- A run in which a request that is held back finds another leg than its own. -/
theorem exists_misdirected (fresh : n.context.Fresh) (holds : ¬NeverHolds n) :
    ∃ es, ∃ m ∈ (run es n).links.offered, ¬m.Addressed := by
  obtain ⟨r, o, u, psi, asks⟩ := Asks.exists_of_not_neverHolds fresh holds
  obtain ⟨asks₁, -, -, k, l, leg₁, ran, only⟩ := asks.connect 0 fresh.legs
  obtain ⟨asks₂, -, legs₂, ⟨l₂, leg₂, -, -⟩, s, x, nas, n2, session, held⟩ := asks₁.hold leg₁
  obtain ⟨asks₃, sessions₃, -, empty⟩ := asks₂.release leg₂ fun j there => only j (legs₂ j ▸ there)
  obtain ⟨asks₄, sessions₄, -, k', l', leg₄, ran', -⟩ := asks₃.connect 1 empty
  rw [← sessions₃, ← sessions₄] at session
  have offered := asks₄.confirm leg₄ session held "" ""
  refine ⟨[connected u 0 0 .nr, request r, released u, connected u 0 1 .nr,
    sessionConfirmed u psi "" ""], ?_⟩
  show ∃ m ∈ ((sessionConfirmed u psi "" "").handle _).2.links.offered, ¬m.Addressed
  rw [offered]
  refine ⟨_, List.mem_append_right _ List.mem_cons_self, fun carries => ?_⟩
  obtain ⟨-, same⟩ := (Ngap.carries_octets_iff _ _ _).1 carries
  rw [ran, ran'] at same
  exact absurd same (by decide)

/-- **Messages carry the identifiers of their legs if nothing is held back, and only then.** In a
run from a context that was set up, every message that is handed to the transport on a leg carries
the identifiers of that leg exactly if no session is confirmed whose setup request was made for
another leg than its UE has by then. That is so in every run if and only if nothing is ever held
back: there is no room for a leg, or every session that a request may set up is confirmed. -/
theorem addressed_iff {config : Config} {c : Context} (provisioned : Provisioned config c)
    (metrics : Metrics) (links : Links) (nothing : links.offered = []) :
    let n : Node := { context := c, metrics, links }
    (∀ es, (∀ m ∈ (run es n).links.offered, m.Addressed) ↔
      ∀ (k : Nat) (e : Event), es[k]? = some e → ¬e.Misdirects (stateAt es n k)) ∧
    ((∀ es, ∀ m ∈ (run es n).links.offered, m.Addressed) ↔ c.maxLegs = 0 ∨ OnlyConfirmed n) := by
  intro n
  have fresh : n.context.Fresh := provisioned.fresh
  refine ⟨fun es => ?_, ⟨fun law => ?_, fun never es => ?_⟩⟩
  · obtain ⟨ms, offered, iff⟩ := run_addressed es n
    rw [offered, nothing, List.nil_append, iff]
  · refine Classical.byContradiction fun holds => ?_
    obtain ⟨es, m, mem, not⟩ := exists_misdirected fresh holds
    exact not (law es m mem)
  · have never : NeverHolds n := never
    have none : ∀ m ∈ n.links.offered, m.Addressed := by
      intro m mem
      rw [show n.links.offered = [] from nothing] at mem
      cases mem
    refine (never.run_keeps fresh (P := fun n => n.context.NothingHeld ∧
      ∀ m ∈ n.links.offered, m.Addressed) ?_ ⟨fresh.nothingHeld, none⟩ es).2
    rintro a n₁ n₂ other step ⟨held, all⟩
    obtain ⟨ms, offered, now⟩ := step.addressed fun id s _ session => held id s session
    refine ⟨step.nothingHeld other held, fun m mem => ?_⟩
    rw [offered] at mem
    rcases List.mem_append.1 mem with mem | mem
    · exact all m mem
    · exact now m mem

/-- The hypotheses are satisfiable. -/
theorem addressed_iff_oneSession :
    let n : Node := { context := .oneSession }
    (∀ es, (∀ m ∈ (run es n).links.offered, m.Addressed) ↔
      ∀ (k : Nat) (e : Event), es[k]? = some e → ¬e.Misdirects (stateAt es n k)) ∧
    ((∀ es, ∀ m ∈ (run es n).links.offered, m.Addressed) ↔
      Context.oneSession.maxLegs = 0 ∨ OnlyConfirmed n) :=
  addressed_iff provisioned_oneSession {} {} rfl

set_option maxRecDepth 4000 in
/-- A setup is held back, the UE connects anew, and the setup leaves with the identifiers of the
former leg. -/
theorem not_addressed_held :
    ¬∀ m ∈ (run [connected 1 0 101 .nr, request .setUp, connected 1 0 102 .nr,
      sessionConfirmed 1 5 "" "sm"] { context := .oneSession }).links.offered, m.Addressed := by
  decide

end Event
end Amf
