import Amf.Proofs.Held

/-!
# The first setup on a leg

The first setup that leaves on a leg is an initial context setup and every later one is a resource
setup, as long as nothing is held back: the leg then remembers exactly whether a setup left on it
(`Orderly`). A request that is held back marks its leg when it is made, so the one that takes its
place is a resource setup, and is the first that leaves. So the law holds in every run if nothing is
ever held back, and only then (`Event.initialFirst_iff`).

| act | flag of the leg | setups that left on it |
| --- | --- | --- |
| `connect` | down, on the new leg | none |
| `setUp` | up | one more, initial if the flag was down |
| `holdSetup` | up | as before |
| any other | as before | as before, if nothing is held back |
-/

namespace Amf

open Context Octets

/-- The procedure code that a message opens with. -/
def Ngap.code (pdu : Octets) : Nat := value (pdu.take 2)

/-- The procedure code of a message on the leg of an identifier, if it is that of an initial context
setup or of a resource setup. -/
def Outbound.setup? (amf : Nat) : Outbound → Option Nat
  | .radio (.toLeg _ ids pdu) =>
    if ids.amf = amf ∧ (Ngap.code pdu = 14 ∨ Ngap.code pdu = 29) then some (Ngap.code pdu) else none
  | _ => none

/-- The procedure codes of the setups that were handed to the transport on the leg of an identifier,
in order. -/
def Links.setups (l : Links) (amf : Nat) : List Nat := l.offered.filterMap (Outbound.setup? amf)

/-- The first setup is an initial context setup, and every later one is a resource setup. -/
def InitialFirst : List Nat → Prop
  | [] => True
  | code :: later => code = 14 ∧ ∀ c ∈ later, c = 29

variable {n n' : Node} {a : Act} {l : Leg} {amf : Nat}

/-! ## Codes -/

/-- A message opens with the code of its procedure. -/
theorem Ngap.code_octets (r : Ngap.Request) (ids : Ngap.UeIds) : code (r.octets ids) = r.procedure := by
  have opens : (r.octets ids).take 2 = word 2 r.procedure := by
    unfold Ngap.Request.octets
    simp only [List.append_assoc]
    exact List.take_left' (length_word 2 _)
  unfold code
  rw [opens, value_word]
  cases r <;> rfl

/-- A setup of a session is an initial context setup on a leg without one. -/
theorem Delivery.procedure_setupRequest (c : Context) (u : Ue) (l : Leg) (s : Session)
    (nas : Option Octets) (n2 : Octets) :
    (setupRequest c u l s nas n2).procedure = if l.setupSent then 29 else 14 := by
  unfold setupRequest
  split <;> rfl

/-- Every other message is none of the two. -/
theorem Ngap.Request.procedure_of_plain {r : Ngap.Request} (plain : r.isSetup = false) :
    r.procedure ≠ 14 ∧ r.procedure ≠ 29 := by
  cases r with
  | initialContextSetup | resourceSetup => cases plain
  | downlinkNas | resourceModify | resourceRelease | contextModification => simp [procedure]

/-- A setup request has the code that the flag of its leg selects. -/
theorem Outbound.setup?_setupRequest (amf : Nat) (gnb : UInt64) (l : Leg) (c : Context) (u : Ue)
    (s : Session) (nas : Option Octets) (n2 : Octets) :
    setup? amf (.radio (.toLeg gnb l.ids ((Delivery.setupRequest c u l s nas n2).octets l.ids))) =
      if l.ids.amf = amf then some (if l.setupSent then 29 else 14) else none := by
  unfold setup?
  simp only
  rw [Ngap.code_octets, Delivery.procedure_setupRequest]
  have either : (if l.setupSent = true then 29 else 14) = 14 ∨
      (if l.setupSent = true then 29 else 14) = 29 := by
    split
    · exact .inr rfl
    · exact .inl rfl
  simp only [and_iff_left either]

/-- A setup that follows the law leaves the law in force. -/
theorem InitialFirst.concat {codes : List Nat} {flag : Bool} (h : InitialFirst codes)
    (marked : flag = true ↔ codes ≠ []) : InitialFirst (codes ++ [if flag then 29 else 14]) := by
  cases codes with
  | nil =>
    have down : ¬flag = true := fun up => marked.1 up rfl
    rw [if_neg down]
    exact ⟨rfl, fun c mem => absurd mem List.not_mem_nil⟩
  | cons code later =>
    have up : flag = true := marked.2 (List.cons_ne_nil _ _)
    rw [if_pos up]
    refine ⟨h.1, fun c mem => ?_⟩
    rcases List.mem_append.1 mem with mem | last
    · exact h.2 c mem
    · exact List.mem_singleton.1 last

/-! ## Steps -/

/-- The law is in force on every leg, nothing is held back, and each leg remembers whether a setup
left on it. -/
structure Orderly (n : Node) : Prop where
  numbered : n.context.Numbered
  held : n.context.NothingHeld
  first : ∀ amf, InitialFirst (n.links.setups amf)
  /-- Nothing left under an identifier that is yet to be given. -/
  unused : ∀ amf, n.context.nextAmfId ≤ amf → n.links.setups amf = []
  marked : ∀ k l, n.context.legs.get? k = some l →
    (l.setupSent = true ↔ n.links.setups l.ids.amf ≠ [])

/-- **Only a setup that is made at once leaves**, if nothing is held back. -/
theorem Step.setups (step : Step a n n') (held : n.context.NothingHeld) (other : ∀ id, a ≠ .setUp id)
    (amf : Nat) : n'.links.setups amf = n.links.setups amf := by
  obtain ⟨ms, offered, may⟩ := step.offers
  have none : ms.filterMap (Outbound.setup? amf) = [] := by
    rw [List.filterMap_eq_nil_iff]
    intro m mem
    have may := may m mem
    match m, may with
    | .radio (.toLeg gnb ids pdu), may =>
      obtain ⟨r, rfl, setUp⟩ | ⟨id, s, -, session, waits⟩ := may
      · have plain : r.isSetup = false := by
          rw [Bool.eq_false_iff]
          intro setup
          obtain ⟨id, is⟩ := setUp setup
          exact other id is
        obtain ⟨notInitial, notResource⟩ := Ngap.Request.procedure_of_plain plain
        unfold Outbound.setup?
        simp only
        rw [Ngap.code_octets, if_neg]
        rintro ⟨-, initial | resource⟩
        · exact notInitial initial
        · exact notResource resource
      · rw [held id s session] at waits
        cases waits
    | .radio (.paging _ _), _ => rfl
    | .peer _, _ => rfl
  unfold Links.setups
  rw [offered, List.filterMap_append, none, List.append_nil]

/-- What leaves when a setup is made at once, on a leg that is marked by it. -/
theorem Step.exists_of_setUp {id : Nat} (step : Step (.setUp id) n n') :
    ∃ k l, n.context.legs.get? k = some l ∧ n'.context = n.context.markSetup k ∧
      ∀ amf, n'.links.setups amf =
        n.links.setups amf ++ if l.ids.amf = amf then [if l.setupSent then 29 else 14] else [] := by
  cases step with
  | @setUp _ _ k s u l nas n2 session ue leg confirmed =>
    refine ⟨k, l, (legOf?_eq_some_iff.1 leg).2, rfl, fun amf => ?_⟩
    unfold Links.setups Leg.message
    rw [Node.links_offer, Links.offered_offer, List.filterMap_append, List.filterMap_cons,
      Outbound.setup?_setupRequest]
    by_cases is : l.ids.amf = amf
    · rw [if_pos is, if_pos is]
      rfl
    · rw [if_neg is, if_neg is]
      rfl

/-- A setup that is made at once leaves the law in force. -/
theorem Orderly.setUp {id : Nat} (step : Step (.setUp id) n n') (h : Orderly n) : Orderly n' := by
  have numbered := step.numbered h.numbered
  have held := step.nothingHeld nofun h.held
  obtain ⟨k, l, there, context, setups⟩ := step.exists_of_setUp
  have setups_of_ne : ∀ amf, l.ids.amf ≠ amf → n'.links.setups amf = n.links.setups amf := by
    intro amf other
    rw [setups, if_neg other, List.append_nil]
  refine ⟨numbered, held, fun amf => ?_, fun amf unused => ?_, fun j m hm => ?_⟩
  · by_cases is : l.ids.amf = amf
    · rw [setups, if_pos is, ← is]
      exact (h.first _).concat (h.marked k l there)
    · rw [setups_of_ne amf is]
      exact h.first amf
  · rw [context] at unused
    have unused : n.context.nextAmfId ≤ amf := unused
    have given := (h.numbered.legs k l there).2
    rw [setups_of_ne amf (by omega)]
    exact h.unused amf unused
  · rw [context] at hm
    change (n.context.legs.modify k _).get? j = some m at hm
    rw [Table.get?_modify] at hm
    split at hm
    · rename_i is
      rw [is, there] at hm
      cases hm
      refine iff_of_true rfl ?_
      rw [setups, if_pos rfl]
      exact List.append_ne_nil_of_right_ne_nil _ (List.cons_ne_nil _ _)
    · rename_i other
      have ne : l.ids.amf ≠ m.ids.amf := by
        intro same
        exact other (h.numbered.unique k j l m there hm same).symm
      rw [setups_of_ne _ ne]
      exact h.marked j m hm

/-- A new leg has an identifier under which nothing left. -/
theorem Orderly.connect {u : Nat} (step : Step (.connect u) n n') (h : Orderly n) : Orderly n' := by
  have numbered := step.numbered h.numbered
  have held := step.nothingHeld nofun h.held
  have setups := step.setups h.held nofun
  cases step with
  | @connect _ _ k gnb ran rat c known room =>
    have next : (n.connect c u k rat).context.nextAmfId = n.context.nextAmfId + 1 :=
      congrArg (·.2.1) (Node.legNumbers_connect room)
    refine ⟨numbered, held, fun amf => ?_, fun amf unused => ?_, fun j m hm => ?_⟩
    · rw [setups]
      exact h.first amf
    · rw [setups]
      exact h.unused amf (by omega)
    · rw [setups]
      obtain ⟨-, ids, -, down⟩ | ⟨-, l₀, h₀, ids, -, flag⟩ := Node.legs_connect room hm
      · rw [down, ids, h.unused _ (Nat.le_refl _)]
        exact iff_of_false Bool.false_ne_true fun ne => ne rfl
      · rw [flag, ids]
        exact h.marked j l₀ h₀

/-- **Every step leaves the law in force**, but one that holds a request back. -/
theorem Step.orderly (step : Step a n n') (other : ∀ id, a ≠ .holdSetup id) (h : Orderly n) :
    Orderly n' := by
  cases changes : a.changesLegs with
  | true =>
    cases a with
    | setUp id => exact h.setUp step
    | connect u => exact h.connect step
    | holdSetup id => exact absurd rfl (other id)
    | _ => cases changes
  | false =>
    have drops := step.drops changes
    have setups := step.setups h.held fun id is => by
      rw [is] at changes
      cases changes
    refine ⟨step.numbered h.numbered, step.nothingHeld other h.held, fun amf => ?_,
      fun amf unused => ?_, fun k l hl => ?_⟩
    · rw [setups]
      exact h.first amf
    · rw [setups]
      have next : n'.context.nextAmfId = n.context.nextAmfId := congrArg (·.2.1) drops.numbers
      exact h.unused amf (next ▸ unused)
    · obtain ⟨l₀, h₀, ids, -, flag⟩ := drops.legs k l hl
      rw [setups, flag, ids]
      exact h.marked k l₀ h₀

/-- Before the first event nothing left. -/
theorem Context.Fresh.orderly (h : n.context.Fresh) (nothing : n.links.offered = []) : Orderly n := by
  have setups : ∀ amf, n.links.setups amf = [] := by
    intro amf
    unfold Links.setups
    rw [nothing]
    rfl
  refine ⟨h.numbered, h.nothingHeld, fun amf => ?_, fun amf _ => setups amf, fun k l hl => ?_⟩
  · rw [setups]
    trivial
  · rw [h.legs] at hl
    cases hl

/-! ## Runs -/

namespace Event

/-- A run in which a request that is held back is replaced, and its successor leaves first. -/
theorem exists_resourceSetup (fresh : n.context.Fresh) (nothing : n.links.offered = [])
    (holds : ¬NeverHolds n) : ∃ es amf, (run es n).links.setups amf = [29] := by
  obtain ⟨r, o, u, psi, asks⟩ := Asks.exists_of_not_neverHolds fresh holds
  obtain ⟨asks₁, -, links₁, k, l, leg₁, -⟩ := asks.connect 0 fresh.legs
  obtain ⟨asks₂, links₂, -, ⟨l₂, leg₂, -, up⟩, -⟩ := asks₁.hold leg₁
  obtain ⟨asks₃, links₃, -, ⟨l₃, leg₃, ids, -⟩, s, x, nas, n2, session, held⟩ := asks₂.hold leg₂
  have offered := asks₃.confirm leg₃ session held "" ""
  refine ⟨[connected u 0 0 .nr, request r, request r, sessionConfirmed u psi "" ""], l₂.ids.amf, ?_⟩
  refine (congrArg (List.filterMap _) offered).trans ?_
  rw [links₃, links₂, links₁, nothing, ids, List.nil_append, List.filterMap_cons,
    Outbound.setup?_setupRequest, if_pos rfl, if_pos up]
  rfl

/-- **The first setup on a leg is the initial context setup if nothing is held back, and only
then.** From a context that was set up, the law is in force on every leg throughout a run in which
every session is confirmed before it is set up. It is in force in every run if and only if nothing
is ever held back: there is no room for a leg, or every session that a request may set up is
confirmed. -/
theorem initialFirst_iff {config : Config} {c : Context} (provisioned : Provisioned config c)
    (metrics : Metrics) (links : Links) (nothing : links.offered = []) :
    let n : Node := { context := c, metrics, links }
    (∀ es, Confirms es n → ∀ amf, InitialFirst ((run es n).links.setups amf)) ∧
    ((∀ es amf, InitialFirst ((run es n).links.setups amf)) ↔ c.maxLegs = 0 ∨ OnlyConfirmed n) := by
  intro n
  have fresh : n.context.Fresh := provisioned.fresh
  have orderly : Orderly n := fresh.orderly nothing
  have step : ∀ a m m', (∀ id, a ≠ Act.holdSetup id) → Step a m m' → Orderly m → Orderly m' :=
    fun _ _ _ other act h => act.orderly other h
  refine ⟨fun es confirms => (run_keeps_of_confirmed step confirms orderly).first, ⟨fun law => ?_, ?_⟩⟩
  · refine Classical.byContradiction fun holds => ?_
    obtain ⟨es, amf, setups⟩ := exists_resourceSetup fresh nothing holds
    have first := law es amf
    rw [setups] at first
    exact absurd first.1 (by decide)
  · intro never es
    have never : NeverHolds n := never
    exact (never.run_keeps fresh step orderly es).first

/-- The hypotheses are satisfiable. -/
theorem initialFirst_iff_oneSession :
    let n : Node := { context := .oneSession }
    (∀ es, Confirms es n → ∀ amf, InitialFirst ((run es n).links.setups amf)) ∧
    ((∀ es amf, InitialFirst ((run es n).links.setups amf)) ↔
      Context.oneSession.maxLegs = 0 ∨ OnlyConfirmed n) :=
  initialFirst_iff provisioned_oneSession {} {} rfl

instance : DecidablePred InitialFirst
  | [] => .isTrue trivial
  | _ :: _ => inferInstanceAs (Decidable (_ ∧ _))

set_option maxRecDepth 4000 in
/-- The setup that is held back first never leaves, and the one that takes its place is a resource
setup. -/
theorem not_initialFirst_held :
    ¬InitialFirst ((run [connected 1 0 101 .nr, request .setUp, request .setUp,
      sessionConfirmed 1 5 "" "sm"] { context := .oneSession }).links.setups 1) := by
  decide

end Event
end Amf
