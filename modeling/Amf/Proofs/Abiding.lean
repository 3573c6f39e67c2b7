import Amf.Proofs.FirstSetup
import Amf.Proofs.Followed
import Amf.Proofs.Guarded

/-!
# What a deregistration request abides

While a UE is asked to deregister, whatever else happens leaves the request that is kept for it and
its timer T3522 as they are, and asks it nothing (`Event.handle_abides`): the request abides it.

| event | request, T3522 | messages that ask to deregister |
| --- | --- | --- |
| a notification that asks the UE itself | changed | one to the UE |
| an expiry of its T3522 that counts | changed | one to the UE at most |
| a report that another AMF took the UE over | gone | none |
| a notification that asks other UEs, an expiry of theirs | as before | to these |
| any other event | as before | none |

A message asks no UE but one (`Outbound.asks`) if it goes to the leg of no other one, so that one on a
leg which the UE has had before would be seen. What sessions hold back might be any message; it never
asks to deregister (`Context.HoldsSetups`).
-/

namespace Amf

open Context Procedure

variable {A : Act → Prop} {a : Act} {n n' : Node} {u v k : Nat} {l : Leg} {r : Ngap.Request}

/-! ## Messages that ask a UE to deregister -/

/-- The octets are those of a request for a UE to deregister. -/
def Ngap.isDeregistration (pdu : Octets) : Bool := code pdu = 4 && (pdu.drop 21)[4]? = some 0x47

/-- A message on a leg asks to deregister exactly if its NAS message does. -/
theorem Ngap.isDeregistration_octets (r : Request) (ids : UeIds) :
    isDeregistration (r.octets ids) = r.isDeregistration := by
  unfold isDeregistration
  rw [code_octets]
  cases r with
  | downlinkNas nas =>
    have carried : ((Request.downlinkNas nas).octets ids).drop 21 = nas := rfl
    rw [carried]
    rfl
  | _ => rfl

namespace Outbound

variable {c c' : Context} {m : Outbound}

/-- The message asks a UE to deregister. -/
def isDeregistration : Outbound → Bool
  | radio (.toLeg _ _ pdu) => Ngap.isDeregistration pdu
  | _ => false

/-- The message goes to the leg that a UE has. -/
def reaches (c : Context) (u : Nat) : Outbound → Bool
  | radio (.toLeg gnb ids _) => (c.legOf? u).any fun has => has.2.gnb = gnb && has.2.ids = ids
  | _ => false

/-- The message asks to deregister, and goes to the leg of no UE but one. -/
def asks (c : Context) (u : Nat) (m : Outbound) : Bool :=
  m.isDeregistration && !c.ues.keys.any fun v => v ≠ u && m.reaches c v

theorem reaches_of_leg {ids : Ngap.UeIds} {pdu : Octets} (leg : c.legOf? u = some (k, l)) :
    (radio (.toLeg l.gnb ids pdu)).reaches c u = decide (l.ids = ids) := by
  unfold reaches
  simp [leg]

theorem exists_of_reaches (h : m.reaches c u = true) :
    ∃ k l pdu, c.legOf? u = some (k, l) ∧ m = radio (.toLeg l.gnb l.ids pdu) := by
  unfold reaches at h
  split at h
  · rename_i gnb ids pdu
    obtain ⟨⟨k, l⟩, leg, is⟩ := (Option.any_eq_true _ _).1 h
    obtain ⟨rfl, rfl⟩ : l.gnb = gnb ∧ l.ids = ids := by simpa using is
    exact ⟨k, l, pdu, leg, rfl⟩
  · cases h

theorem asks_iff : m.asks c u = true ↔
    m.isDeregistration = true ∧ ∀ v, v ≠ u → m.reaches c v = false := by
  unfold asks
  rw [Bool.and_eq_true, Bool.not_eq_true', List.any_eq_false]
  refine and_congr_right fun _ => ⟨fun h v other => ?_, fun h v _ is => ?_⟩
  · rw [Bool.eq_false_iff]
    intro reaches
    obtain ⟨k, l, pdu, leg, -⟩ := exists_of_reaches reaches
    have known := (Context.mem_connectedUes.2 ⟨k, l, leg⟩ : v ∈ c.connectedUes)
    refine h v (List.mem_filter.1 known).1 ?_
    rw [reaches, Bool.and_true]
    exact decide_eq_true other
  · obtain ⟨other, reaches⟩ := Bool.and_eq_true_iff.1 is
    rw [h v (of_decide_eq_true other)] at reaches
    cases reaches

theorem asks_of_plain (plain : m.isDeregistration = false) : m.asks c u = false := by
  unfold asks
  rw [plain]
  rfl

theorem asks_congr (same : ∀ v, c'.legOf? v = c.legOf? v) (m : Outbound) :
    m.asks c' u = m.asks c u := by
  rw [Bool.eq_iff_iff, asks_iff, asks_iff]
  unfold reaches
  simp only [same]

/-- What goes to the leg of a UE asks no other one. -/
theorem asks_message (joined : c.Joined) (leg : c.legOf? u = some (k, l)) :
    (l.message r).asks c u = r.isDeregistration := by
  have plain : (l.message r).isDeregistration = r.isDeregistration := Ngap.isDeregistration_octets r _
  rw [Bool.eq_iff_iff, asks_iff, plain]
  refine and_iff_left fun v other => ?_
  rw [Bool.eq_false_iff]
  intro reaches
  obtain ⟨j, l', pdu, leg', same⟩ := exists_of_reaches reaches
  obtain ⟨there, serves⟩ := joined.paired.legOf?_eq_some_iff.1 leg
  obtain ⟨there', serves'⟩ := joined.paired.legOf?_eq_some_iff.1 leg'
  -- Legs of the same identifiers are one leg, which serves one UE.
  obtain ⟨-, ids, -⟩ := RadioMessage.toLeg.inj (radio.inj same)
  obtain rfl := joined.numbered.unique j k l' l there' there (congrArg (·.amf) ids.symm)
  cases there.symm.trans there'
  exact other (Option.some.inj (serves'.symm.trans serves))

/-- What is for another UE asks that one at most. -/
theorem asks_of_isFor {m : RadioMessage} (other : v ≠ u) (is : m.IsFor c v) :
    (radio m).asks c u = false := by
  cases m with
  | paging => rfl
  | toLeg gnb ids pdu =>
    obtain ⟨k, l, leg, rfl, rfl⟩ := is
    rw [Bool.eq_false_iff, ne_eq, asks_iff]
    rintro ⟨-, elsewhere⟩
    have reaches : (radio (.toLeg l.gnb l.ids pdu)).reaches c v = false := elsewhere v other
    rw [reaches_of_leg leg] at reaches
    exact of_decide_eq_false reaches rfl

end Outbound

/-! ## What leaves -/

namespace Node

/-- Of messages that are handed over in order some leave, in this order. -/
theorem exists_sent_offerAll (ms : List Outbound) (n : Node) :
    ∃ xs, xs.Sublist ms ∧ (n.offerAll ms).links.sent = n.links.sent ++ xs := by
  induction ms generalizing n with
  | nil => exact ⟨[], .refl _, (List.append_nil _).symm⟩
  | cons m ms ih =>
    obtain ⟨xs, sublist, sent⟩ := ih (n.offer m)
    cases accepted : n.links.accepts m with
    | true =>
      refine ⟨m :: xs, sublist.cons_cons m, sent.trans ?_⟩
      rw [links_offer, Links.sent_offer_of_accepted accepted, List.append_assoc]
      rfl
    | false =>
      refine ⟨xs, sublist.cons m, sent.trans ?_⟩
      rw [links_offer, Links.sent_offer_of_refused accepted]

theorem offerAll_append (ms ms' : List Outbound) (n : Node) :
    n.offerAll (ms ++ ms') = (n.offerAll ms).offerAll ms' :=
  List.foldl_append

/-- The requests to deregister that have left since, but for those to the legs of other UEs. -/
def requestsSince (n : Node) (u : Nat) (n' : Node) : List Outbound :=
  (n'.links.sent.drop n.links.sent.length).filter (·.asks n'.context u)

theorem requestsSince_of_sent {ms : List Outbound} (sent : n'.links.sent = n.links.sent ++ ms) :
    n.requestsSince u n' = ms.filter (·.asks n'.context u) := by
  unfold requestsSince
  rw [sent, List.drop_left]

theorem requestsSince_of_links (same : n'.links = n.links) : n.requestsSince u n' = [] := by
  have sent : n'.links.sent = n.links.sent ++ [] := by rw [same, List.append_nil]
  exact requestsSince_of_sent sent

/-- The request of a UE is as before, and so is its timer; and no message asks it to deregister. -/
structure Abides (u : Nat) (n n' : Node) : Prop where
  request : n'.context.requestOf u = n.context.requestOf u
  timer : Timers.SameOf .t3522 u n.context.timers n'.context.timers
  /-- What was handed over. -/
  offers : ∃ ms, n'.links = (n.offerAll ms).links ∧ ∀ m ∈ ms, m.asks n'.context u = false

theorem Abides.refl : n.Abides u n := ⟨rfl, .refl, [], rfl, nofun⟩

theorem Abides.requestsSince_eq_nil (h : n.Abides u n') : n.requestsSince u n' = [] := by
  obtain ⟨ms, links, silent⟩ := h.offers
  obtain ⟨xs, sublist, sent⟩ := exists_sent_offerAll ms n
  rw [requestsSince_of_sent (links ▸ sent), List.filter_eq_nil_iff]
  intro m mem
  rw [silent m (sublist.subset mem)]
  exact Bool.false_ne_true

/-- A request that leaves is the only one if it abides what follows. -/
theorem Abides.requestsSince_of_accepted {n₀ : Node} {m : Outbound} (h : n₀.Abides u n')
    (first : n₀.links = n.links.offer m) (accepted : n.links.accepts m = true)
    (asks : m.asks n'.context u = true) : n.requestsSince u n' = [m] := by
  obtain ⟨ms, links, silent⟩ := h.offers
  obtain ⟨xs, sublist, sent⟩ := exists_sent_offerAll ms n₀
  have all : n'.links.sent = n.links.sent ++ m :: xs := by
    rw [links, sent, first, Links.sent_offer_of_accepted accepted]
    exact List.append_assoc _ [m] xs
  rw [requestsSince_of_sent all, List.filter_cons_of_pos asks]
  refine congrArg _ (List.filter_eq_nil_iff.2 fun x mem => ?_)
  rw [silent x (sublist.subset mem)]
  exact Bool.false_ne_true

/-- While UEs have the same legs, nothing asks one twice if nothing asks it once. -/
theorem Abides.trans {m : Node} (first : n.Abides u m) (second : m.Abides u n')
    (legs : ∀ v, n'.context.legOf? v = m.context.legOf? v) : n.Abides u n' := by
  obtain ⟨ms, links, silent⟩ := first.offers
  obtain ⟨ms', links', silent'⟩ := second.offers
  refine ⟨second.request.trans first.request, first.timer.trans second.timer, ms ++ ms', ?_,
    fun x mem => ?_⟩
  · rw [offerAll_append, links']
    exact links_offerAll_congr ms' links
  · obtain mem | mem := List.mem_append.1 mem
    · rw [Outbound.asks_congr legs]
      exact silent x mem
    · exact silent' x mem

end Node

/-! ## Setup requests that are held back -/

/-- What sessions hold back asks no UE to deregister. -/
def Context.HoldsSetups (c : Context) : Prop :=
  ∀ id s pdu, c.sessions.get? id = some s → s.heldSetup = some pdu →
    Ngap.isDeregistration pdu = false

theorem Context.HoldsSetups.of_within {c c' : Context} (h : c.HoldsSetups)
    (within : Table.Within Session.LetsGo c.sessions c'.sessions) : c'.HoldsSetups := by
  intro id t pdu there held
  obtain ⟨s, before, same | gone⟩ := within id t there
  · exact h id s pdu before (same ▸ held)
  · rw [gone] at held
    cases held

theorem Delivery.isDeregistration_setupRequest (c : Context) (x : Ue) (l : Leg) (s : Session)
    (nas : Option Octets) (n2 : Octets) :
    (setupRequest c x l s nas n2).isDeregistration = false := by
  unfold setupRequest
  split <;> rfl

theorem Step.holdsSetups (step : Step a n n') (h : n.context.HoldsSetups) :
    n'.context.HoldsSetups := by
  by_cases holds : ∃ id, a = .holdSetup id
  · obtain ⟨id, rfl⟩ := holds
    cases step with
    | @holdSetup _ _ _ s x l nas n2 session =>
      intro j t pdu there held
      change (n.context.sessions.modify id _).get? j = some t at there
      rw [Table.get?_modify] at there
      split at there
      · obtain ⟨s, -, rfl⟩ := Option.map_eq_some_iff.1 there
        cases held
        rw [Ngap.isDeregistration_octets, Delivery.isDeregistration_setupRequest]
      · exact h j t pdu there held
  · exact h.of_within (step.within Session.allows_letsGo fun id is => absurd ⟨id, is⟩ holds)

/-! ## Acts that ask nobody -/

/-- The act asks no UE to deregister. -/
def Act.Plain (a : Act) : Prop := ∀ v r, a = .tell v r → r.isDeregistration = false

/-- **An act that asks nobody hands over no request to deregister.** -/
theorem Step.hands_plain (step : Step a n n') (held : n.context.HoldsSetups) (plain : a.Plain) :
    ∃ ms, n'.links = (n.offerAll ms).links ∧ ∀ m ∈ ms, m.isDeregistration = false := by
  have nothing : ∃ ms, n.links = (n.offerAll ms).links ∧ ∀ m ∈ ms, m.isDeregistration = false :=
    ⟨[], rfl, nofun⟩
  have one : ∀ m : Outbound, n'.links = n.links.offer m → m.isDeregistration = false →
      ∃ ms, n'.links = (n.offerAll ms).links ∧ ∀ m ∈ ms, m.isDeregistration = false :=
    fun m links is => ⟨[m], links, fun x mem => List.mem_singleton.1 mem ▸ is⟩
  cases step with
  | @tell _ v k l r =>
    exact one (l.message r) rfl ((Ngap.isDeregistration_octets r _).trans (plain v r rfl))
  | @setUp _ _ _ s x l nas n2 =>
    exact one (l.message (Delivery.setupRequest n.context x l s nas n2)) rfl
      ((Ngap.isDeregistration_octets _ _).trans (Delivery.isDeregistration_setupRequest ..))
  | confirmHeld session holds => exact one (.radio (.toLeg _ _ _)) rfl (held _ _ _ session holds)
  | ask => exact one (.peer _) rfl rfl
  | park | refusePaging | repeatPaging | repeatRefused => exact one (.radio (.paging _ _)) rfl rfl
  | repeatNothing _ lost => obtain ⟨-, rfl⟩ | ⟨-, rfl⟩ := lost <;> exact nothing
  | giveUp =>
    refine ⟨_, Node.links_offerAll_congr _ rfl, fun m mem => ?_⟩
    cases m with
    | radio => exact absurd mem not_radio_of_mem_reports
    | peer => rfl
  | connect =>
    rw [Node.links_connect]
    exact nothing
  | detach =>
    rw [Node.links_change]
    split <;> exact nothing
  | _ => exact nothing

namespace Chain

theorem holdsSetups (chain : Chain A n n') (h : n.context.HoldsSetups) : n'.context.HoldsSetups :=
  chain.keeps (P := fun m => m.context.HoldsSetups) (fun _ _ _ _ step => step.holdsSetups) h

/-- What a chain hands over. -/
theorem hands (chain : Chain A n n') : ∃ ms, n'.links = (n.offerAll ms).links := by
  refine chain.keeps (P := fun m => ∃ ms, m.links = (n.offerAll ms).links) (fun a m m' _ step => ?_)
    ⟨[], rfl⟩
  rintro ⟨ms, links⟩
  obtain ⟨ms', links', -⟩ := step.hands
  exact ⟨ms ++ ms', by rw [Node.offerAll_append, links', Node.links_offerAll_congr ms' links]⟩

/-- A request abides acts that do not turn its timer, if they ask its UE for nothing. -/
theorem abides (chain : Chain A n n') (other : ∀ a, A a → ¬a.Times .t3522 u)
    (offers : ∃ ms, n'.links = (n.offerAll ms).links ∧ ∀ m ∈ ms, m.asks n'.context u = false) :
    n.Abides u n' := by
  have kept := chain.keeps
    (P := fun m => m.context.requestOf u = n.context.requestOf u ∧
      Timers.SameOf .t3522 u n.context.timers m.context.timers)
    (fun a m m' may step ⟨request, timer⟩ => by
      refine ⟨(step.requestOf_eq (other a may)).trans request, timer.trans (step.sameIn ?_)⟩
      intro kind w times
      rw [Bool.and_eq_false_iff, decide_eq_false_iff_not, decide_eq_false_iff_not]
      refine not_and_or.1 ?_
      rintro ⟨rfl, rfl⟩
      exact other a may times)
    ⟨rfl, .refl⟩
  exact ⟨kept.1, kept.2, offers⟩

/-- **A request abides acts that ask nobody.** -/
theorem abides_of_plain (chain : Chain A n n') (held : n.context.HoldsSetups)
    (plain : ∀ a, A a → a.Plain ∧ ¬a.Times .t3522 u) : n.Abides u n' := by
  have silent := chain.keeps
    (P := fun m => m.context.HoldsSetups ∧
      ∃ ms, m.links = (n.offerAll ms).links ∧ ∀ x ∈ ms, x.isDeregistration = false)
    (fun a m m' may step ⟨held, ms, links, silent⟩ => by
      obtain ⟨ms', links', silent'⟩ := step.hands_plain held (plain a may).1
      refine ⟨step.holdsSetups held, ms ++ ms', ?_, fun x mem => ?_⟩
      · rw [Node.offerAll_append, links', Node.links_offerAll_congr ms' links]
      · exact (List.mem_append.1 mem).elim (silent x) (silent' x))
    ⟨held, [], rfl, nofun⟩
  obtain ⟨-, ms, links, silent⟩ := silent
  exact chain.abides (fun a may => (plain a may).2)
    ⟨ms, links, fun x mem => Outbound.asks_of_plain (silent x mem)⟩

/-- **A request abides acts of another UE**, which may be asked to deregister itself. -/
theorem abides_of_other (chain : Chain A n n') (ordered : n.context.Ordered)
    (touches : ∀ a, A a → a.Touches n.context v ∧ a.rewires = false) (other : v ≠ u) :
    n.Abides u n' := by
  have notTimes : ∀ a, A a → ¬a.Times .t3522 u := by
    intro a may times
    have touches := (touches a may).1
    cases a with
    | deregister | expireRequest => exact other (touches.symm.trans times.2)
    | detach => exact other (touches.symm.trans times)
    | park | repeatPaging | giveUp | connect => cases times.1
    | _ => cases times
  obtain ⟨ms, links⟩ := chain.hands
  obtain ⟨ms', offered, isFor⟩ := chain.addresses ordered (fun a may => (touches a may).1)
    (fun a may => (touches a may).2) (.of_links rfl)
  have same : ms' = ms := by
    rw [links, Node.offered_offerAll] at offered
    exact (List.append_cancel_left offered).symm
  refine chain.abides notTimes ⟨ms, links, fun m mem => ?_⟩
  cases m with
  | radio m => exact Outbound.asks_of_isFor other (isFor m (same ▸ mem))
  | peer => rfl

end Chain

/-! ## What happens in between -/

theorem Node.abides_offer {m : Outbound} (silent : m.asks n.context u = false) :
    n.Abides u (n.offer m) :=
  ⟨rfl, .refl, [m], rfl, fun _ mem => List.mem_singleton.1 mem ▸ silent⟩

theorem Node.abides_note (v : Nat) (state : DeregistrationState) :
    n.Abides u (n.change (·.note v state)) :=
  ⟨Table.map_get?_modify fun _ => rfl, .refl, [], rfl, nofun⟩

/-- The request of another UE is kept, and its timer started. -/
theorem Node.abides_guardRequest (nas : Octets) (other : v ≠ u) :
    n.Abides u (n.change (·.guardRequest v nas)) :=
  ⟨Table.map_get?_modify_of_ne other.symm,
    .start (Bool.and_eq_false_iff.2 (.inr (decide_eq_false other))), [], rfl, nofun⟩

namespace Deregistration

/-- A notification makes a UE be asked to deregister. -/
def Asks (c : Context) (u : Nat) (d : Document.Deregistration) : Prop :=
  d.reason.isSome = true ∧ d.access = .threeGpp ∧ c.connection u = .connected

variable {d : Document.Deregistration}

/-- **What a notification comes to**: it fails at once, or its UE is marked, or asked and marked. -/
theorem notify_cases (u : Nat) (d : Document.Deregistration) (n : Node) :
    (∃ fault, (notify u d).exec n = (.error fault, n)) ∨
    (notify u d).exec n = (do
      mark u .implicitIncomplete
      return .implicitIncomplete : Procedure DeregistrationState).exec n ∨
    ∃ x reason, n.context.ues.get? u = some x ∧ d.reason = some reason ∧ Asks n.context u d ∧
      (notify u d).exec n = (do
        Delivery.deregister u (reason = .reregistrationRequired) (some .servicesNotAllowed)
        mark u .explicit
        return .explicit : Procedure DeregistrationState).exec n := by
  unfold notify
  rw [exec_context_bind]
  cases there : n.context.ues.get? u with
  | none => exact .inl ⟨_, rfl⟩
  | some x =>
    cases given : d.reason with
    | none => exact .inl ⟨_, rfl⟩
    | some reason =>
      rw [exec_bind_of_ok (exec_need_some _ _ _), exec_bind_of_ok (exec_need_some _ _ _)]
      split
      · exact .inl ⟨_, rfl⟩
      · rename_i access
        simp only [exec_context_bind]
        split
        · rename_i connected
          have asks : Asks n.context u d :=
            ⟨given ▸ rfl, Decidable.not_not.1 access, connected⟩
          exact .inr (.inr ⟨x, reason, rfl, rfl, asks, rfl⟩)
        · exact .inr (.inl rfl)

/-- A notification that does not make its UE be asked marks it at most. -/
theorem exec_notify_of_not_asks (unasked : ¬Asks n.context u d) :
    ((notify u d).exec n).2 = n ∨
      ((notify u d).exec n).2 = ((mark u .implicitIncomplete).exec n).2 := by
  obtain ⟨fault, failed⟩ | marked | ⟨x, reason, -, -, asks, -⟩ := notify_cases u d n
  · exact .inl (congrArg (·.2) failed)
  · rw [marked]
    exact .inr (exec_bind_pure_snd (mark u .implicitIncomplete) (fun _ => _) n)
  · exact absurd asks unasked

/-- **A request abides a notification of a deregistration**, of another UE or one that is not asked. -/
theorem abides_notify (ordered : n.context.Ordered) (held : n.context.HoldsSetups)
    (unasked : v = u → ¬Asks n.context v d) : n.Abides u ((notify v d).exec n).2 := by
  by_cases is : v = u
  · obtain same | same := exec_notify_of_not_asks (unasked is) <;> rw [same]
    · exact .refl
    · have chain : Chain (fun a => a = .mark v ∨ ∃ q, a = .ask q) n
          ((mark v .implicitIncomplete).exec n).2 := mark_chain (.inl rfl) fun q => .inr ⟨q, rfl⟩
      refine chain.abides_of_plain held fun a may => ?_
      obtain rfl | ⟨q, rfl⟩ := may <;> exact ⟨fun _ _ is => (nomatch is), id⟩
  · have chain : Chain (fun a => a.Touches n.context v ∧ a.rewires = false) n
        ((notify v d).exec n).2 :=
      notify_chain (fun _ => ⟨rfl, rfl⟩) ⟨rfl, rfl⟩ ⟨rfl, rfl⟩ fun _ => ⟨trivial, rfl⟩
    exact chain.abides_of_other ordered (fun _ touches => touches) is

/-- A request abides an expiry of T3522 of another UE, and one that does not count. -/
theorem abides_expired {g : Nat} (ordered : n.context.Ordered)
    (stale : v = u → n.context.timers.live? .t3522 v g = none) :
    n.Abides u ((expired v g).exec n).2 := by
  by_cases is : v = u
  · rw [exec_expired_of_none (stale is)]
    exact .refl
  · have chain : Chain (fun a => a.Touches n.context v ∧ a.rewires = false) n
        ((expired v g).exec n).2 := expired_chain (fun _ => ⟨rfl, rfl⟩) ⟨rfl, rfl⟩
    exact chain.abides_of_other ordered (fun _ touches => touches) is

end Deregistration

namespace Subscription

variable {c : Context} {x : Ue} {rated : Prop} {outcome : Except Fault Action}
  {m : Document.Modification}

/-- A notification of changes makes a UE be asked to deregister: it is taken, and the UE is named in
it and has a leg of an access technology that is restricted then. -/
def Restricts (c : Context) (m : Document.Modification) (u : Nat) : Prop :=
  Applies c m ∧ u ∈ touched c m ∧ ∃ x k l, c.ues.get? u = some x ∧ c.legOf? u = some (k, l) ∧
    l.rat ∈ (applyAll (changesFor c u m.items) (policyOf x)).restrictions

theorem abides_ends {ended : Except Fault Unit} (ends : Ends x n ended n') : n.Abides u n' := by
  cases ends with
  | nothing => exact .refl
  | subscription _ message | association _ _ message =>
    subst message
    exact Node.abides_offer rfl

theorem Settled.of_ends {ended : Except Fault Unit} (settled : Settled c n.context)
    (ends : Ends x n ended n') : Settled c n'.context := by
  cases ends <;> exact settled

/-- A request abides what is done for a UE, unless this asks its own UE to deregister. -/
theorem abides_acts (settled : Settled c n.context)
    (acts : Acts c v x rated n outcome n')
    (free : v = u → ∀ k l, c.legOf? v = some (k, l) → l.rat ∉ x.restrictions) : n.Abides u n' := by
  -- A message on the leg of another UE asks that one.
  have silent : ∀ {k : Nat} {l : Leg} {r : Ngap.Request}, c.legOf? v = some (k, l) → v ≠ u →
      (l.message r).asks n.context u = false := by
    intro k l r leg other
    rw [Outbound.asks_congr settled.legOf?]
    exact Outbound.asks_of_isFor other ⟨k, l, leg, rfl, rfl⟩
  cases acts with
  | idle => exact Node.abides_note v _
  | nothing => exact .refl
  | modified leg _ _ message =>
    subst message
    exact Node.abides_offer (Outbound.asks_of_plain (Ngap.isDeregistration_octets _ _))
  | unasked leg restricted message =>
    subst message
    exact Node.abides_offer (silent leg fun is => free is _ _ leg restricted)
  | asked leg restricted message _ ends =>
    subst message
    have other : v ≠ u := fun is => free is _ _ leg restricted
    have guarded := Settled.guardRequest settled v (reregistration x)
    have marked := Settled.note guarded v .explicit
    have same : ∀ {d d' : Context}, Settled c d → Settled c d' → ∀ w, d'.legOf? w = d.legOf? w :=
      fun first second w => (second.legOf? w).trans (first.legOf? w).symm
    exact ((((Node.abides_offer (silent leg other)).trans (Node.abides_guardRequest _ other)
      (same settled guarded)).trans (Node.abides_note v .explicit) (same guarded marked)).trans
      (abides_ends ends) (same marked (Settled.of_ends marked ends)))

/-- **A request abides what is done for UEs in order**, unless this asks its own UE to deregister. -/
theorem abides_follows {rates : Nat → Prop} {us : List Nat}
    {outcomes : List (Nat × Except Fault Action)}
    (follows : Follows c rates us n outcomes n') (settled : Settled c n.context)
    (free : u ∈ us → ∀ x k l, c.ues.get? u = some x → c.legOf? u = some (k, l) →
      l.rat ∉ x.restrictions) : Settled c n'.context ∧ n.Abides u n' := by
  induction follows with
  | nil => exact ⟨settled, .refl⟩
  | cons there first _ ih =>
    have abides := abides_acts settled first fun is k l leg =>
      free (is ▸ List.mem_cons_self) _ k l (is ▸ there) (is ▸ leg)
    have settled' := settled.of_acts first
    obtain ⟨settled'', rest⟩ := ih settled' fun mem => free (List.mem_cons_of_mem _ mem)
    exact ⟨settled'', abides.trans rest fun w => (settled''.legOf? w).trans (settled'.legOf? w).symm⟩

/-- Committed policies leave requests alone. -/
theorem abides_commit (w : Working) (held : n.context.HoldsSetups) :
    n.Abides u (n.change (commit · w)) := by
  have chain : Chain (fun a => ∃ v, a = .setPolicy v) n (n.change (commit · w)) :=
    commit_chain (fun v => ⟨v, rfl⟩) w n
  refine chain.abides_of_plain held fun a may => ?_
  obtain ⟨v, rfl⟩ := may
  exact ⟨fun _ _ is => (nomatch is), id⟩

/-- **A request abides a notification of changes** that does not make its UE be asked. -/
theorem abides_notify (held : n.context.HoldsSetups)
    (free : ¬Restricts n.context m u) : n.Abides u ((notify m).exec n).2 := by
  cases applied : working? n.context m with
  | error e =>
    have refused : (notify m).exec n = (.error (.change e), n) := by
      unfold notify
      rw [exec_context_bind, applied]
      rfl
    rw [refused]
    exact .refl
  | ok w =>
    obtain ⟨commits, adopted⟩ := commits_commit applied
    have leg : ∀ v, (commit n.context w).legOf? v = n.context.legOf? v := by
      intro v
      refine Context.legOf?_congr ?_ (by rw [commits])
      rw [adopted, Option.map_map]
      rfl
    obtain ⟨outcomes, -, follows⟩ := follows_of_working applied
    -- A UE that is named is asked where its access is restricted in the committed context.
    have unrestricted : u ∈ touched n.context m → ∀ y k l, (commit n.context w).ues.get? u = some y →
        (commit n.context w).legOf? u = some (k, l) → l.rat ∉ y.restrictions := by
      intro names y k l there has restricted
      rw [adopted] at there
      obtain ⟨x, known, rfl⟩ := Option.map_eq_some_iff.1 there
      exact free ⟨exists_working_iff.1 ⟨w, applied⟩, names, x, k, l, known, leg u ▸ has, restricted⟩
    obtain ⟨settled, abides⟩ := abides_follows follows (.refl _) unrestricted
    rw [snd_notify applied]
    exact (abides_commit w held).trans abides settled.legOf?

end Subscription

/-! ## Events -/

namespace Routing

variable {r : Request}

theorem reads_relocation (r : Request) : Reads (relocation r) :=
  (constant_parse _ r _).reads.bind fun b => Reads.bind (Relocation.reads_request _ b) fun _ =>
    reads_pure _

/-- A notification of a deregistration is for the UE that its path names, or comes to nothing. -/
theorem deregistration_cases (r : Request) (n : Node) : ((deregistration r).exec n).2 = n ∨
    ∃ d v, ((parse r "DeregistrationData").exec n).1 = .ok d ∧
      (r.component? 0).bind n.context.findSupi? = some v ∧
      ((deregistration r).exec n).2 = ((Deregistration.notify v d).exec n).2 := by
  unfold deregistration
  rw [(constant_parse _ r _).reads.exec_bind]
  split
  · rename_i d parsed
    rw [(reads_findSupi _).exec_bind]
    split
    · rename_i v found
      exact .inr ⟨d, v, parsed, eq_of_findSupi found,
        exec_bind_pure_snd (Deregistration.notify v d) (fun _ => _) n⟩
    · exact .inl rfl
  · exact .inl rfl

theorem subscriberData_cases (r : Request) (n : Node) : ((subscriberData r).exec n).2 = n ∨
    ∃ m, ((parse r "ModificationNotification").exec n).1 = .ok m ∧
      ((subscriberData r).exec n).2 = ((Subscription.notify m).exec n).2 := by
  unfold subscriberData
  rw [(constant_parse _ r _).reads.exec_bind]
  split
  · rename_i m parsed
    exact .inr ⟨m, parsed, exec_bind_pure_snd (Subscription.notify m) (fun _ => _) n⟩
  · exact .inl rfl

end Routing

namespace Event

variable {e : Event}

/-- The event makes a UE be asked to deregister: it is a notification of its deregistration, or one of
changes of subscriber data. -/
def Deregisters (e : Event) (n : Node) (u : Nat) : Prop :=
  ∃ r, e = .request r ∧ r.service = Api.callback ∧ r.method = "POST" ∧
    ((r.component? 1 = some Api.deregistration ∧
        (r.component? 0).bind n.context.findSupi? = some u ∧
        ∃ d, ((Routing.parse r "DeregistrationData").exec n).1 = .ok d ∧
          Deregistration.Asks n.context u d) ∨
      (r.component? 1 = some Api.subscriberData ∧
        ∃ m, ((Routing.parse r "ModificationNotification").exec n).1 = .ok m ∧
          Subscription.Restricts n.context m u))

/-- The event is an expiry of the request to a UE, and counts. -/
def isDue (e : Event) (u : Nat) (n : Node) : Bool :=
  match e with
  | .timer .t3522 v g => v = u && (n.context.timers.live? .t3522 u g).isSome
  | _ => false

/-- A request abides events that are no notifications and no expiries of requests. -/
theorem abides_of_other (held : n.context.HoldsSetups) (undetached : ¬e.Detaches n u)
    (unnoticed : ¬e.IsNotice) (untimed : ∀ v g, e ≠ .timer .t3522 v g) :
    n.Abides u (e.handle n).2 := by
  refine (does_course e n).chain.abides_of_plain held fun a does => ⟨fun v r is => ?_, fun times => ?_⟩
  · subst is
    rw [Bool.eq_false_iff]
    intro asks
    obtain notice | ⟨v, g, timed⟩ := does.may asks
    · exact unnoticed notice
    · exact untimed v g timed
  · cases a with
    | deregister => exact unnoticed does.may
    | expireRequest v =>
      obtain ⟨g, timed⟩ := does.may
      exact untimed v g timed
    | detach v =>
      obtain rfl : v = u := times
      exact undetached does.may
    | park | repeatPaging | giveUp | connect => cases times.1
    | _ => cases times

/-- A request abides a notification that does not make its UE be asked. -/
theorem abides_of_notice {r : Request} (ordered : n.context.Ordered) (held : n.context.HoldsSetups)
    (free : ¬(request r).Deregisters n u) (notice : (request r).IsNotice) :
    n.Abides u ((request r).handle n).2 := by
  obtain ⟨_, is, service, resource⟩ := notice
  cases is
  have elsewhere : ∀ {name}, ¬Routing.Reaches r name := fun reaches => by
    rw [reaches.1] at service
    exact absurd service (by decide)
  show n.Abides u (Routing.handle r n).2
  rw [Routing.handle_snd]
  obtain ⟨fault, failed⟩ | ⟨reaches, -⟩ | ⟨reaches, -⟩ | ⟨-, handler, notifies, same⟩ :=
    Routing.route_cases r n
  · rw [failed]
    exact .refl
  · exact absurd reaches elsewhere
  · exact absurd reaches elsewhere
  · rw [same]
    cases notifies with
    | relocation =>
      rw [Routing.reads_relocation r n]
      exact .refl
    | sessionStatus _ other =>
      obtain resource | resource := resource <;> rw [other] at resource <;>
        exact absurd (Option.some.inj resource) (by decide)
    | deregistration _ resource post =>
      obtain nothing | ⟨d, v, parsed, found, done⟩ := Routing.deregistration_cases r n
      · rw [nothing]
        exact .refl
      · rw [done]
        refine Deregistration.abides_notify ordered held ?_
        rintro rfl asks
        exact free ⟨r, rfl, service, post, .inl ⟨resource, found, d, parsed, asks⟩⟩
    | subscriberData _ resource post =>
      obtain nothing | ⟨m, parsed, done⟩ := Routing.subscriberData_cases r n
      · rw [nothing]
        exact .refl
      · rw [done]
        refine Subscription.abides_notify held fun restricts => ?_
        exact free ⟨r, rfl, service, post, .inr ⟨resource, m, parsed, restricts⟩⟩

/-- **A request abides every event** but those that ask its UE to deregister, that detach the UE, and
the expiries that count. -/
theorem handle_abides (ordered : n.context.Ordered) (held : n.context.HoldsSetups)
    (free : ¬e.Deregisters n u) (undetached : ¬e.Detaches n u) (undue : e.isDue u n = false) :
    n.Abides u (e.handle n).2 := by
  by_cases notice : e.IsNotice
  · obtain ⟨r, rfl, -⟩ := id notice
    exact abides_of_notice ordered held free notice
  · by_cases timed : ∃ v g, e = .timer .t3522 v g
    · obtain ⟨v, g, rfl⟩ := timed
      refine Deregistration.abides_expired ordered ?_
      rintro rfl
      simpa only [isDue, decide_true, Bool.true_and, Option.isSome_eq_false_iff,
        Option.isNone_iff_eq_none] using undue
    · exact abides_of_other held undetached notice fun v g is => timed ⟨v, g, is⟩

end Event
end Amf
