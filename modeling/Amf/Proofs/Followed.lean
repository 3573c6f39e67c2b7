import Amf.Proofs.Legs
import Amf.Proofs.Patched

/-!
# What follows a notification of changes

The policies are committed for all UEs first, and the acts that follow are read off the committed
context alone: those for one UE change nothing that decides on those for another (`Settled`), so
that they are the same whatever the transports have refused before.

| | one UE | all UEs |
| --- | --- | --- |
| what it is to be | `Acts` | `Follows` |
| what is done | `follow` | `followAll` |
| that it is done | `acts_follow` | `follows_followAll` |

The requests to other network functions, of which a UE that is deregistered has one at most, are
`Ends`.
-/

namespace Amf

open Procedure

/-- The UE without what is noted of its deregistration. -/
def Ue.settled (x : Ue) : Ue := { x with deregistration := none, deregistrationMessage := none }

/-- The message goes to the radio network. -/
def Outbound.isRadio : Outbound → Bool
  | radio _ => true
  | peer _ => false

namespace Context

/-- The context with the deregistration of a UE noted. -/
def note (c : Context) (u : Nat) (state : DeregistrationState) : Context :=
  c.modifyUe u fun x => { x with deregistration := some state }

/-- The context with a deregistration request kept for a UE, and its timer started. -/
def guardRequest (c : Context) (u : Nat) (nas : Octets) : Context :=
  { c.modifyUe u fun x => { x with deregistrationMessage := some nas } with
    timers := c.timers.start .t3522 u }

/-- Two UEs, the first of them on a leg. -/
def oneServed : Context := ((twoUes.addLeg 1 7).elim twoUes (·.2)).associate 1 1

end Context

namespace Subscription

variable {c d : Context} {u : Nat} {x y : Ue} {n n' : Node} {m : Document.Modification}
  {p q : Policy} {item : Document.ChangeItem} {changes : List Document.ChangeItem}

/-! ## What is to follow -/

/-- The UEs that a notification names, in the order in which it names them first. -/
def touched (c : Context) (m : Document.Modification) : List Nat :=
  (m.items.filterMap (addressee? c)).eraseDups

/-- The change is one of the bit rate. -/
def SetsRate (item : Document.ChangeItem) : Prop :=
  Puts item.op ∧ item.path = some "" ∨
    item.op ≠ .move ∧ (item.path = some "/subscribedUeAmbr" ∨
      item.path = some "/subscribedUeAmbr/uplink" ∨ item.path = some "/subscribedUeAmbr/downlink")

/-- The context is another one with the policies that a notification asks for. -/
def Commits (c : Context) (m : Document.Modification) (c' : Context) : Prop :=
  c' = { c with ues := c'.ues } ∧ ∀ u, c'.ues.get? u =
    (c.ues.get? u).map fun x => x.adopt (applyAll (changesFor c u m.items) (policyOf x))

/-- The request that a UE deregister and register again, without a cause. -/
def reregistration (x : Ue) : Octets :=
  [0x7e, 0x02, 0x7e, 0x00, 0x47, match x.access with
    | .threeGpp => 0b101
    | .nonThreeGpp => 0b110]

/-- What other network functions are asked for a UE that is deregistered: to end its subscription,
and only without one its policy association. -/
inductive Ends (x : Ue) : Node → Except Fault Unit → Node → Prop
  | nothing {n : Node} (unsubscribed : x.subscriptionId = none) (unassociated : x.policyId = none) :
      Ends x n (.ok ()) n
  | subscription {n : Node} {id : String} {m : Outbound} (subscribed : x.subscriptionId = some id)
      (message : m = .peer (.endSubscription x.name id (some .explicit))) :
      Ends x n (verdict n m) (n.offer m)
  | association {n : Node} {id : String} {m : Outbound} (unsubscribed : x.subscriptionId = none)
      (associated : x.policyId = some id)
      (message : m = .peer (.endPolicy x.name id (some .explicit))) :
      Ends x n (verdict n m) (n.offer m)

/-- What is done for a UE of a context with committed policies, whose bit rate was changed or not. -/
inductive Acts (c : Context) (u : Nat) (x : Ue) (rated : Prop) :
    Node → Except Fault Action → Node → Prop
  /-- A UE without a leg is marked. -/
  | idle {n : Node} (leg : c.legOf? u = none) :
      Acts c u x rated n (.ok .implicitDeregistration) (n.change (·.note u .implicitIncomplete))
  /-- The request to a UE whose access is restricted now is refused. -/
  | unasked {n : Node} {k : Nat} {l : Leg} {m : Outbound} (leg : c.legOf? u = some (k, l))
      (restricted : l.rat ∈ x.restrictions)
      (message : m = l.message (.downlinkNas (reregistration x)))
      (refused : n.links.accepts m = false) :
      Acts c u x rated n (.error (.send (.transportClosed "NGAP"))) (n.offer m)
  /-- A UE whose access is restricted now is asked to deregister and register again. -/
  | asked {n n' : Node} {k : Nat} {l : Leg} {m : Outbound} {ended : Except Fault Unit}
      (leg : c.legOf? u = some (k, l)) (restricted : l.rat ∈ x.restrictions)
      (message : m = l.message (.downlinkNas (reregistration x)))
      (accepted : n.links.accepts m = true)
      (ends : Ends x (((n.offer m).change (·.guardRequest u (reregistration x))).change
        (·.note u .explicit)) ended n') :
      Acts c u x rated n (ended.map fun _ => .explicitDeregistration) n'
  /-- The radio network is told the bit rate and the restrictions. -/
  | modified {n : Node} {k : Nat} {l : Leg} {m : Outbound} (leg : c.legOf? u = some (k, l))
      (free : l.rat ∉ x.restrictions) (rate : rated)
      (message : m = l.message (.contextModification x.ambr x.restrictions)) :
      Acts c u x rated n ((verdict n m).map fun _ => .contextModification) (n.offer m)
  | nothing {n : Node} {k : Nat} {l : Leg} (leg : c.legOf? u = some (k, l))
      (free : l.rat ∉ x.restrictions) (unrated : ¬rated) : Acts c u x rated n (.ok .nothing) n

/-- What is done for UEs in order, each from the state that those before it have left. -/
inductive Follows (c : Context) (rated : Nat → Prop) :
    List Nat → Node → List (Nat × Except Fault Action) → Node → Prop
  | nil {n : Node} : Follows c rated [] n [] n
  | cons {n m n' : Node} {u : Nat} {us : List Nat} {x : Ue} {outcome : Except Fault Action}
      {outcomes : List (Nat × Except Fault Action)} (there : c.ues.get? u = some x)
      (first : Acts c u x (rated u) n outcome m) (rest : Follows c rated us m outcomes n') :
      Follows c rated (u :: us) n ((u, outcome) :: outcomes) n'

/-! ## What decides -/

/-- The context differs from another one in what is noted of deregistrations, and in timers. -/
structure Settled (c d : Context) : Prop where
  legs : d.legs = c.legs
  ues : ∀ u, (d.ues.get? u).map Ue.settled = (c.ues.get? u).map Ue.settled

theorem Settled.refl (c : Context) : Settled c c := ⟨rfl, fun _ => rfl⟩

theorem Settled.legOf? (settled : Settled c d) (u : Nat) : d.legOf? u = c.legOf? u := by
  refine Context.legOf?_congr ?_ settled.legs
  have same := congrArg (Option.map Ue.leg) (settled.ues u)
  rwa [Option.map_map, Option.map_map] at same

theorem Settled.get? (settled : Settled c d) (there : c.ues.get? u = some x) :
    ∃ y, d.ues.get? u = some y ∧ y.settled = x.settled := by
  have same := settled.ues u
  rw [there] at same
  exact Option.map_eq_some_iff.1 same

/-- What is noted of one deregistration settles nothing else. -/
theorem Settled.modifyUe (settled : Settled c d) {f : Ue → Ue}
    (same : ∀ x, (f x).settled = x.settled) : Settled c (d.modifyUe u f) :=
  ⟨settled.legs, fun v => (Table.map_get?_modify same).trans (settled.ues v)⟩

theorem Settled.note (settled : Settled c d) (u : Nat) (state : DeregistrationState) :
    Settled c (d.note u state) :=
  settled.modifyUe fun _ => rfl

theorem Settled.guardRequest (settled : Settled c d) (u : Nat) (nas : Octets) :
    Settled c (d.guardRequest u nas) := by
  have kept : Settled c (d.modifyUe u fun x => { x with deregistrationMessage := some nas }) :=
    settled.modifyUe fun _ => rfl
  exact ⟨kept.legs, kept.ues⟩

/-! ## What is done -/

/-- A deregistration request is handed over; if it is accepted, it is kept and its timer started. -/
theorem exec_deregister (reregister : Bool) (cause : Option Nas.Cause) {k : Nat} {l : Leg}
    (there : n.context.ues.get? u = some x) (leg : n.context.legOf? u = some (k, l)) :
    let nas := Nas.Deregistration.octets { access := x.access, reregister, cause }
    let m := l.message (.downlinkNas nas)
    (Delivery.deregister u reregister cause).exec n =
      if n.links.accepts m then (.ok (), (n.offer m).change (·.guardRequest u nas))
      else (.error (.send (.transportClosed "NGAP")), n.offer m) := by
  intro nas m
  have handed : (emitNas l nas).exec n = (verdict n m, n.offer m) := exec_emitOn l _ n
  unfold Delivery.deregister
  rw [exec_bind_of_ok (exec_ue_of_some there), exec_bind_of_ok (exec_legOf_of_some leg)]
  unfold verdict at handed
  by_cases accepted : n.links.accepts m = true
  · rw [if_pos accepted] at handed ⊢
    exact exec_bind_of_ok handed _
  · rw [if_neg accepted] at handed ⊢
    exact exec_bind_of_error handed _

/-- A UE is marked, and what it has with another network function is ended. -/
theorem exec_mark {state : DeregistrationState} (there : n.context.ues.get? u = some x) :
    (Deregistration.mark u state).exec n =
      match Deregistration.endRequest? x (some state) with
      | none => (.ok (), n.change (·.note u state))
      | some q => (verdict n (.peer q), (n.change (·.note u state)).offer (.peer q)) := by
  have marked : (n.context.note u state).ues.get? u = some { x with deregistration := some state } :=
    Table.get?_modify_of_some there
  unfold Deregistration.mark
  rw [exec_change_bind, exec_context_bind]
  show (need ((n.context.note u state).ues.get? u) _ >>= _).exec (n.change (·.note u state)) = _
  rw [marked, exec_bind_of_ok (exec_need_some _ _ _)]
  unfold Deregistration.unsubscribe
  have same : Deregistration.endRequest? { x with deregistration := some state } (some state) =
      Deregistration.endRequest? x (some state) := rfl
  rw [same]
  cases Deregistration.endRequest? x (some state) with
  | none => rfl
  | some q =>
    have asked : (emit (.peer q)).exec (n.change (·.note u state)) = (verdict n (.peer q), _) :=
      exec_emit _ _
    rw [exec_bind, exec_bind, asked]
    dsimp only
    cases verdict n (.peer q) <;> rfl

theorem reregistration_eq (x : Ue) : reregistration x =
    Nas.Deregistration.octets { access := x.access, reregister := true, cause := none } := by
  unfold reregistration Nas.Deregistration.octets Nas.Deregistration.typeOctet
  cases x.access <;> rfl

/-- Marking a UE ends what it has with another network function. -/
theorem ends_mark (there : n.context.ues.get? u = some y) (same : y.settled = x.settled) :
    Ends x (n.change (·.note u .explicit)) ((Deregistration.mark u .explicit).exec n).1
      ((Deregistration.mark u .explicit).exec n).2 := by
  have subscription : y.subscriptionId = x.subscriptionId := (congrArg Ue.subscriptionId same :)
  have association : y.policyId = x.policyId := (congrArg Ue.policyId same :)
  have name : y.name = x.name := (congrArg Ue.name same :)
  rw [exec_mark there]
  unfold Deregistration.endRequest?
  rw [subscription, association, name]
  cases subscribed : x.subscriptionId with
  | some id => exact .subscription subscribed rfl
  | none =>
    cases associated : x.policyId with
    | some id => exact .association subscribed associated rfl
    | none => exact .nothing subscribed associated

/-- **What is done for a UE is what is to be done for it**, whatever was done for others. -/
theorem acts_follow (changed : Bool) (settled : Settled c n.context)
    (there : c.ues.get? u = some x) :
    Acts c u x (changed = true) n ((follow u changed).exec n).1 ((follow u changed).exec n).2 := by
  obtain ⟨y, found, same⟩ := settled.get? there
  have restrictions : y.restrictions = x.restrictions := (congrArg Ue.restrictions same :)
  have ambr : y.ambr = x.ambr := (congrArg Ue.ambr same :)
  have access : y.access = x.access := (congrArg Ue.access same :)
  unfold follow
  rw [exec_context_bind, found, exec_bind_of_ok (exec_need_some _ _ _), settled.legOf?]
  cases leg : c.legOf? u with
  | none => exact .idle leg
  | some has =>
    obtain ⟨k, l⟩ := has
    dsimp only
    rw [restrictions]
    by_cases restricted : l.rat ∈ x.restrictions
    · rw [if_pos restricted]
      have request : Nas.Deregistration.octets
          { access := y.access, reregister := true, cause := none } = reregistration x := by
        rw [access, reregistration_eq]
      have asked := exec_deregister true none found ((settled.legOf? u).trans leg)
      simp only [request] at asked
      by_cases accepted : n.links.accepts (l.message (.downlinkNas (reregistration x))) = true
      · rw [if_pos accepted] at asked
        have ends := ends_mark (n := (n.offer (l.message (.downlinkNas (reregistration x)))).change
          (·.guardRequest u (reregistration x)))
          (Table.get?_modify_of_some found) same
        rw [exec_bind_of_ok asked, exec_bind_pure]
        exact .asked leg restricted rfl accepted ends
      · rw [if_neg accepted] at asked
        rw [exec_bind_of_error asked]
        exact .unasked leg restricted rfl (Bool.eq_false_iff.2 accepted)
    · rw [if_neg restricted]
      cases changed with
      | true =>
        rw [if_pos rfl, ambr, exec_bind_pure, exec_emitOn]
        exact .modified leg restricted rfl rfl
      | false => exact .nothing leg restricted nofun

/-- What is done for a UE leaves what decides on others as it is. -/
theorem Settled.of_acts {rated : Prop} {outcome : Except Fault Action}
    (settled : Settled c n.context) (acts : Acts c u x rated n outcome n') : Settled c n'.context := by
  cases acts with
  | idle => exact settled.note u .implicitIncomplete
  | asked _ _ _ _ ends =>
    have marked := (settled.guardRequest u (reregistration x)).note u .explicit
    cases ends with
    | nothing | subscription | association => exact marked
  | unasked | modified | nothing => exact settled

/-- **What is done for UEs in order is what is to be done**, also after one has failed. -/
theorem follows_followAll {w : Working} (rated : Nat → Prop) (settled : Settled c n.context)
    (there : ∀ e ∈ w, ∃ x, c.ues.get? e.1 = some x)
    (rate : ∀ e ∈ w, (e.2.ambrChanged = true ↔ rated e.1)) :
    ∃ outcomes, ((followAll w).exec n).1 = .ok outcomes ∧
      Follows c rated (named w) n outcomes ((followAll w).exec n).2 := by
  induction w generalizing n with
  | nil => exact ⟨[], rfl, .nil⟩
  | cons e w ih =>
    obtain ⟨⟨x, found⟩, others⟩ := List.forall_mem_cons.1 there
    obtain ⟨first, rest⟩ := List.forall_mem_cons.1 rate
    have acts := acts_follow e.2.ambrChanged settled found
    rw [propext first] at acts
    obtain ⟨outcomes, done, follows⟩ := ih (settled.of_acts acts) others rest
    unfold followAll
    rw [exec_bind_of_ok (exec_observe _ n), exec_bind_pure, done]
    exact ⟨_, rfl, .cons found acts follows⟩

/-! ## Messages -/

/-- At most one of the messages goes to the radio network, and this one on the leg of the UE. -/
def OneAtMost (c : Context) (u : Nat) (ms : List Outbound) : Prop :=
  ms.filter (·.isRadio) = [] ∨
    ∃ k l r, c.legOf? u = some (k, l) ∧ ms.filter (·.isRadio) = [l.message r]

theorem offered_ends {ended : Except Fault Unit} (ends : Ends x n ended n') :
    ∃ ms, n'.links.offered = n.links.offered ++ ms ∧ ms.filter (·.isRadio) = [] := by
  cases ends with
  | nothing => exact ⟨[], (List.append_nil _).symm, rfl⟩
  | subscription _ message | association _ _ message =>
    subst message
    exact ⟨_, Links.offered_offer _ _, rfl⟩

theorem offered_acts {rated : Prop} {outcome : Except Fault Action}
    (acts : Acts c u x rated n outcome n') :
    ∃ ms, n'.links.offered = n.links.offered ++ ms ∧ OneAtMost c u ms := by
  cases acts with
  | idle | nothing => exact ⟨[], (List.append_nil _).symm, .inl rfl⟩
  | unasked leg _ message | modified leg _ _ message =>
    subst message
    exact ⟨_, Links.offered_offer _ _, .inr ⟨_, _, _, leg, rfl⟩⟩
  | @asked _ k l m _ leg _ message _ ends =>
    obtain ⟨ms, offered, peers⟩ := offered_ends ends
    have radio : m.isRadio = true := message ▸ rfl
    refine ⟨m :: ms, ?_, .inr ⟨k, l, .downlinkNas (reregistration x), leg, ?_⟩⟩
    · rw [offered]
      exact (congrArg (· ++ ms) (Links.offered_offer _ m)).trans (List.append_assoc _ [m] ms)
    · rw [List.filter_cons_of_pos radio, peers, message]

/-- What is offered while UEs are acted for falls into the messages for each. -/
theorem offered_follows {rated : Nat → Prop} {us : List Nat}
    {outcomes : List (Nat × Except Fault Action)} (follows : Follows c rated us n outcomes n') :
    ∃ sends, n'.links.offered = n.links.offered ++ sends.flatten ∧
      List.Forall₂ (OneAtMost c) us sends := by
  induction follows with
  | nil => exact ⟨[], (List.append_nil _).symm, .nil⟩
  | cons _ first _ ih =>
    obtain ⟨ms, offered, one⟩ := offered_acts first
    obtain ⟨sends, offered', ones⟩ := ih
    refine ⟨ms :: sends, ?_, .cons one ones⟩
    rw [offered', offered, List.append_assoc, List.flatten_cons]

/-! ## Outcomes -/

theorem map_eq_error_iff {α β ε : Type} {x : Except ε α} {f : α → β} {e : ε} :
    x.map f = .error e ↔ x = .error e := by
  cases x <;> simp [Except.map]

/-- The outcomes of actions none of which has failed. -/
def taken (actions : List (Nat × Action)) : List (Nat × Except Fault Action) :=
  actions.map fun action => (action.1, .ok action.2)

section
variable {actions : List (Nat × Action)} {outcomes : List (Nat × Except Fault Action)}

theorem actions?_cons_ok {a : Action} : actions? ((u, .ok a) :: outcomes) =
    (actions? outcomes).map ((u, a) :: ·) := by
  have split : actions? ((u, .ok a) :: outcomes) =
      actions? outcomes >>= fun actions => .ok ((u, a) :: actions) := by
    unfold actions?
    rw [List.mapM_cons]
    rfl
  rw [split]
  cases actions? outcomes <;> rfl

/-- The actions are yielded exactly if none has failed. -/
theorem actions?_eq_ok_iff : actions? outcomes = .ok actions ↔ outcomes = taken actions := by
  unfold taken
  induction outcomes generalizing actions with
  | nil =>
    constructor
    · rintro ⟨⟩
      rfl
    · intro is
      rw [List.map_eq_nil_iff.1 is.symm]
      rfl
  | cons o outcomes ih =>
    obtain ⟨u, why | a⟩ := o
    · refine ⟨nofun, fun is => ?_⟩
      obtain ⟨action, rest, -, failed, -⟩ := List.map_eq_cons_iff.1 is.symm
      cases failed
    · rw [actions?_cons_ok, map_eq_ok_iff]
      constructor
      · rintro ⟨rest, others, rfl⟩
        exact congrArg (_ :: ·) (ih.1 others)
      · intro is
        obtain ⟨⟨v, b⟩, rest, rfl, same, others⟩ := List.map_eq_cons_iff.1 is.symm
        cases same
        exact ⟨rest, ih.2 others.symm, rfl⟩

/-- What is reported is the first failure. -/
theorem actions?_eq_error_iff {fault : Fault} : actions? outcomes = .error fault ↔
    ∃ actions u rest, outcomes = taken actions ++ (u, .error fault) :: rest := by
  induction outcomes with
  | nil =>
    refine ⟨nofun, ?_⟩
    rintro ⟨actions, u, rest, is⟩
    exact absurd is.symm (List.append_ne_nil_of_right_ne_nil _ (List.cons_ne_nil _ _))
  | cons o outcomes ih =>
    obtain ⟨u, why | a⟩ := o
    · constructor
      · rintro ⟨⟩
        exact ⟨[], u, outcomes, rfl⟩
      · rintro ⟨_ | ⟨action, actions⟩, v, rest, is⟩
        · cases is
          rfl
        · cases is
    · rw [actions?_cons_ok, map_eq_error_iff, ih]
      constructor
      · rintro ⟨actions, v, rest, rfl⟩
        exact ⟨(u, a) :: actions, v, rest, rfl⟩
      · rintro ⟨_ | ⟨action, actions⟩, v, rest, is⟩
        · cases is
        · cases is
          exact ⟨actions, v, rest, rfl⟩

end

/-! ## Policies -/

/-- A change that is taken marks the bit rate exactly if it is one of it. -/
theorem ambrChanged_of_patches {op : Document.ChangeType} {place : Place} {value : Option Json}
    (patches : Patches p op place value q) : q.ambrChanged = true ↔ p.ambrChanged = true ∨
      (Puts op ∧ place = .document ∨
        op ≠ .move ∧ (place = .ambr ∨ place = .uplink ∨ place = .downlink)) := by
  cases patches with
  | clear is => obtain rfl | rfl := is <;> simp [Puts]
  | document puts | restrictions puts | ambr puts | uplink puts | downlink puts =>
    obtain rfl | rfl := puts <;> simp [Puts]
  | _ => simp [Puts]

theorem ambrChanged_of_apply (taken : (apply item).exec p = (.ok (), q)) :
    q.ambrChanged = true ↔ p.ambrChanged = true ∨ SetsRate item := by
  obtain ⟨path, names, patches⟩ := apply_eq_ok_iff.1 taken
  rw [ambrChanged_of_patches patches]
  simp only [ofPath_eq_iff, Place.IsAt, SetsRate, names, Option.some.injEq]

/-- **Changes that are taken mark the bit rate exactly if one of them is one of it.** -/
theorem ambrChanged_applyAll (all : AllApply changes p) : (applyAll changes p).ambrChanged = true ↔
    p.ambrChanged = true ∨ ∃ change ∈ changes, SetsRate change := by
  induction changes generalizing p with
  | nil => simp [applyAll]
  | cons change changes ih =>
    obtain ⟨taken, all⟩ := allApply_cons.1 all
    have first := ambrChanged_of_apply (Prod.ext taken rfl : (apply change).exec p = (.ok (), _))
    show (applyAll changes ((apply change).exec p).2).ambrChanged = true ↔ _
    rw [ih all, first, or_assoc]
    simp

section
variable {w w' : Working} {items : List Document.NotifyItem}

/-- A copy is made for each UE when it is first named. -/
theorem named_of_foldlM (applied : items.foldlM (applyItem? c) w = .ok w') :
    named w' = named w ++
      ((items.filterMap (addressee? c)).filter fun u => !(named w).contains u).eraseDups := by
  induction items generalizing w with
  | nil =>
    cases applied
    exact (List.append_nil _).symm
  | cons item items ih =>
    rw [List.foldlM_cons] at applied
    obtain ⟨w₁, first, applied⟩ := bind_eq_ok_iff.1 applied
    obtain ⟨v, p, q, addressed, has, -, rfl⟩ := applyItem?_eq_ok_iff.1 first
    rw [ih applied, List.filterMap_cons_some addressed, named_put]
    by_cases mem : v ∈ named w
    · rw [if_pos mem, List.filter_cons_of_neg (by simpa using mem)]
    · have new : (fun u => !(u == v) && !(named w).contains u) =
          fun u => !(named w ++ [v]).contains u := by
        funext u
        rw [List.contains_append, Bool.not_or, Bool.and_comm]
        simp
        rfl
      rw [if_neg mem, List.filter_cons_of_pos (by simpa using mem), List.eraseDups_cons,
        List.filter_filter, new, List.append_assoc]
      rfl

theorem named_working (applied : working? c m = .ok w) : named w = touched c m := by
  have is := named_of_foldlM (w := []) applied
  rw [is]
  simp [touched, named]

theorem commits_commit (applied : working? c m = .ok w) : Commits c m (commit c w) := by
  have distinct : (named w).Nodup := nodup_of_foldlM (w := []) List.nodup_nil applied
  refine ⟨?_, fun u => ?_⟩
  · have only : ∀ (w : Working) (c : Context), commit c w = { c with ues := (commit c w).ues } := by
      intro w
      induction w with
      | nil => exact fun _ => rfl
      | cons e w ih => exact fun c => ih (c.modifyUe e.1 _)
    exact only w c
  · rw [get?_commit distinct]
    refine Option.map_congr fun x there => ?_
    rw [getD_valueOf applied there]

theorem valueOf_of_mem (distinct : (named w).Nodup) {e : Nat × Policy} (mem : e ∈ w) :
    valueOf e.1 w = some e.2 := by
  induction w with
  | nil => cases mem
  | cons f w ih =>
    obtain ⟨absent, distinct⟩ := List.nodup_cons.1 distinct
    unfold valueOf
    obtain rfl | mem := List.mem_cons.1 mem
    · exact if_pos rfl
    · have there : e.1 ∈ named w := List.mem_map_of_mem mem
      have other : e.1 ≠ f.1 := by
        intro is
        rw [is] at there
        exact absent there
      rw [if_neg other, ih distinct mem]

/-- A UE that has a copy is there, and its bit rate is marked in the copy exactly if one of its
changes is one of it. -/
theorem rated_of_working (applied : working? c m = .ok w) {e : Nat × Policy} (mem : e ∈ w) :
    (∃ x, c.ues.get? e.1 = some x) ∧
      (e.2.ambrChanged = true ↔ ∃ change ∈ changesFor c e.1 m.items, SetsRate change) := by
  have distinct : (named w).Nodup := nodup_of_foldlM (w := []) List.nodup_nil applied
  have applies : Applies c m := exists_working_iff.1 ⟨w, applied⟩
  have touches : e.1 ∈ touched c m := named_working applied ▸ List.mem_map_of_mem mem
  obtain ⟨item, listed, addressed⟩ := List.mem_filterMap.1 (List.mem_eraseDups.1 touches)
  obtain ⟨u, x, addressed', there⟩ := applies.1 item listed
  obtain rfl : e.1 = u := Option.some.inj (addressed.symm.trans addressed')
  have copy := getD_valueOf applied there
  rw [valueOf_of_mem distinct mem, Option.getD_some] at copy
  refine ⟨⟨x, there⟩, ?_⟩
  rw [copy, ambrChanged_applyAll (applies.2 e.1 x there)]
  simp [policyOf]

/-- **What follows once the policies are committed is what is to follow.** -/
theorem follows_of_working (applied : working? n.context m = .ok w) :
    ∃ outcomes, ((followAll w).exec (n.change (commit · w))).1 = .ok outcomes ∧
      Follows (commit n.context w) (fun u => ∃ change ∈ changesFor n.context u m.items, SetsRate change)
        (touched n.context m) (n.change (commit · w)) outcomes
        ((followAll w).exec (n.change (commit · w))).2 := by
  have there : ∀ e ∈ w, ∃ x, (commit n.context w).ues.get? e.1 = some x := by
    intro e mem
    obtain ⟨⟨x, there⟩, -⟩ := rated_of_working applied mem
    rw [(commits_commit applied).2, there]
    exact ⟨_, rfl⟩
  rw [← named_working applied]
  exact follows_followAll (n := n.change (commit · w))
    (fun u => ∃ change ∈ changesFor n.context u m.items, SetsRate change)
    (.refl (commit n.context w)) there fun e mem => (rated_of_working applied mem).2

/-- What is reported of a notification is what comes of the acts that follow. -/
theorem fst_notify {outcomes : List (Nat × Except Fault Action)}
    (applied : working? n.context m = .ok w)
    (done : ((followAll w).exec (n.change (commit · w))).1 = .ok outcomes) :
    ((notify m).exec n).1 = actions? outcomes := by
  unfold notify
  rw [exec_context_bind, applied]
  show (Procedure.exec (change _ >>= _) n).1 = _
  rw [exec_change_bind, exec_bind_of_ok (Prod.ext done rfl)]
  cases actions? outcomes <;> rfl

end

/-- **What follows a notification of changes.** If all its changes can be applied, the policies of
all UEs that it names are committed, whatever the transports refuse; and then, once for each of these
UEs in the order in which it names them first, also after the acts for an earlier one have failed,
there follows what the committed context asks for (`Acts`): a UE without a leg is marked as
implicitly deregistered; one whose access is restricted now is asked to deregister and register
again, with T3522 started, the UE marked, and its subscription or else its policy association ended;
for any other one whose bit rate was changed the radio network is told; and else nothing is done. For
no UE more than one message goes to the radio network. The actions are yielded, one for each UE in
this order, exactly if none has failed, and otherwise the first failure. -/
theorem notify_follows (n : Node) (m : Document.Modification) (applies : Applies n.context m) :
    ∃ c outcomes sends, Commits n.context m c ∧
      Follows c (fun u => ∃ change ∈ changesFor n.context u m.items, SetsRate change)
        (touched n.context m) (n.change fun _ => c) outcomes ((notify m).exec n).2 ∧
      (∀ u, cached ((notify m).exec n).2.context u = cached c u) ∧
      ((notify m).exec n).2.links.offered = n.links.offered ++ sends.flatten ∧
      List.Forall₂ (OneAtMost c) (touched n.context m) sends ∧
      (∀ actions, ((notify m).exec n).1 = .ok actions ↔ outcomes = taken actions) ∧
      ∀ fault, ((notify m).exec n).1 = .error fault ↔
        ∃ actions u rest, outcomes = taken actions ++ (u, .error fault) :: rest := by
  obtain ⟨w, applied⟩ := exists_working_iff.2 applies
  obtain ⟨outcomes, done, follows⟩ := follows_of_working applied
  obtain ⟨sends, offered, ones⟩ := offered_follows follows
  rw [fst_notify applied done, snd_notify applied]
  refine ⟨commit n.context w, outcomes, sends, commits_commit applied, follows, fun u => ?_, offered,
    ones, fun _ => actions?_eq_ok_iff, fun _ => actions?_eq_error_iff⟩
  exact cached_of_chain
    (followAll_chain (fun _ _ => rfl) (fun _ => rfl) (fun _ => rfl) (fun _ => rfl) w _)

/-- The hypothesis is satisfiable: the access of the first of two UEs is restricted, no message is
accepted by the radio network, and something follows for both of them. -/
theorem notify_follows_refused :
    let n : Node := { context := .oneServed, links := { radioAccepts := fun _ => false } }
    Applies n.context interleaved ∧ touched n.context interleaved = [1, 2] ∧
      ∃ c outcomes, Commits n.context interleaved c ∧
        Follows c (fun u => ∃ change ∈ changesFor n.context u interleaved.items, SetsRate change)
          [1, 2] (n.change fun _ => c) outcomes ((notify interleaved).exec n).2 := by
  intro n
  have applies : Applies n.context interleaved := exists_working_iff.1 ⟨_, rfl⟩
  have names : touched n.context interleaved = [1, 2] := by decide +kernel
  obtain ⟨c, outcomes, -, commits, follows, -⟩ := notify_follows n interleaved applies
  rw [names] at follows
  exact ⟨applies, names, c, outcomes, commits, follows⟩

end Subscription
end Amf
