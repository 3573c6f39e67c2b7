import Amf.Proofs.Connections
import Amf.Proofs.Framing
import Amf.Proofs.Procedures

/-!
# What messages are composed of

Messages to the radio network are made of what transfers bring and of what is known about UEs, at
once or later: what a transfer brings may be parked, or be held back by its session, encoded or not,
and paging messages and deregistration requests are kept to be repeated. A state is composed within
limits if everything that was handed over, and everything that is kept to be handed over later, is
made of parts within them (`Node.Composed`).

Steps that bring nothing new keep such a state (`Step.composed`). Every other procedure keeps it if
what the procedure brings is within the limits (`Procedure.Keeps`, `Transfer.keeps_run`).
-/

namespace Amf

namespace Table

variable {α : Type} {P : α → Prop} {t u : Table α} {k : Nat} {a : α} {f : α → α}

/-- Every record has a property. -/
def All (P : α → Prop) (t : Table α) : Prop := ∀ k a, t.get? k = some a → P a

theorem All.insert (h : t.All P) (new : P a) : (t.insert k a).All P := by
  intro j b there
  rw [get?_insert] at there
  split at there
  · exact Option.some.inj there ▸ new
  · exact h j b there

theorem All.erase (h : t.All P) : (t.erase k).All P := by
  intro j b there
  rw [get?_erase] at there
  split at there
  · cases there
  · exact h j b there

theorem All.modify (h : t.All P) (changed : ∀ a, P a → P (f a)) : (t.modify k f).All P := by
  intro j b there
  rw [get?_modify] at there
  split at there
  · obtain ⟨a, before, rfl⟩ := Option.map_eq_some_iff.1 there
    exact changed a (h j a before)
  · exact h j b there

/-- Records that have the property as often as others. -/
theorem All.of_map (h : t.All P) (same : ∀ k, (u.get? k).map P = (t.get? k).map P) : u.All P := by
  intro j b there
  have same := same j
  rw [there] at same
  obtain ⟨a, before, is⟩ := Option.map_eq_some_iff.1 same.symm
  exact is ▸ h j a before

end Table

open Procedure

variable {L : Limits} {α β : Type}

/-! ## What is composed within limits -/

/-- A message on a leg that is made of parts within limits, for this leg or another one. -/
def Ngap.Composed (L : Limits) (pdu : Octets) : Prop :=
  ∃ (r : Request) (ids : UeIds), pdu = r.octets ids ∧ r.Made L

/-- A message that is handed over is made of parts within limits. -/
def Outbound.Composed (L : Limits) : Outbound → Prop
  | .radio (.toLeg _ _ pdu) => Ngap.Composed L pdu
  | .radio (.paging _ pdu) => ∃ p : Ngap.Paging, pdu = p.octets
  | .peer _ => True

/-- A payload is within limits. -/
def Payload.Within (L : Limits) : Payload → Prop
  | .setup nas n2 => (∀ xs, nas = some xs → Nas.Made L.n1 xs) ∧ L.n2 n2
  | .modify n1 n2 => L.n1 n1 ∧ L.n2 n2
  | .release n1 n2 => (∀ xs, n1 = some xs → L.n1 xs) ∧ L.n2 n2

/-- A command is within limits. -/
def HeldCommand.Within (L : Limits) (c : HeldCommand) : Prop :=
  (∀ xs, c.n1 = some xs → L.n1 xs) ∧ L.n2 c.n2

/-- The lists of a UE are within limits. -/
def Ue.Within (L : Limits) (x : Ue) : Prop :=
  L.slices (x.allowed.map (·.serving)) ∧ L.restrictions x.restrictions

/-- The lists of a UE are within limits, and so are the messages that are kept to be repeated. -/
def Ue.Composed (L : Limits) (x : Ue) : Prop :=
  x.Within L ∧ (∀ pdu, x.pagingMessage = some pdu → ∃ p : Ngap.Paging, pdu = p.octets) ∧
    ∀ nas, x.deregistrationMessage = some nas → Nas.Made L.n1 nas

/-- What a session holds back is within limits. -/
def Session.Composed (L : Limits) (s : Session) : Prop :=
  (∀ pdu, s.heldSetup = some pdu → Ngap.Composed L pdu) ∧
    ∀ c, s.heldCommand = some c → c.Within L

/-- What is kept to be sent later is within limits. -/
structure Context.Composed (L : Limits) (c : Context) : Prop where
  ues : c.ues.All (·.Composed L)
  sessions : c.sessions.All (·.Composed L)
  parked : c.parked.All (·.payload.Within L)

/-- What was handed over is within limits, and so is what is kept to be sent later. -/
structure Node.Composed (L : Limits) (n : Node) : Prop where
  context : n.context.Composed L
  offered : ∀ m ∈ n.links.offered, m.Composed L

/-! ## Changes of the state -/

namespace Ue.Composed

variable {x : Ue}

theorem unpaged (h : x.Composed L) : Ue.Composed L { x with pagingMessage := none } :=
  ⟨h.1, nofun, h.2.2⟩

theorem unasked (h : x.Composed L) : Ue.Composed L { x with deregistrationMessage := none } :=
  ⟨h.1, h.2.1, nofun⟩

theorem paged (h : x.Composed L) (p : Ngap.Paging) :
    Ue.Composed L { x with pagingMessage := some p.octets } :=
  ⟨h.1, fun _ is => ⟨p, (Option.some.inj is).symm⟩, h.2.2⟩

theorem asked (h : x.Composed L) (d : Nas.Deregistration) :
    Ue.Composed L { x with deregistrationMessage := some d.octets } :=
  ⟨h.1, h.2.1, fun _ is => Option.some.inj is ▸ .deregistration d⟩

end Ue.Composed

namespace Context.Composed

variable {c : Context} {u id : Nat} {f : Ue → Ue} {g : Session → Session}

theorem modifyUe (h : c.Composed L) (changed : ∀ x : Ue, x.Composed L → (f x).Composed L) :
    (c.modifyUe u f).Composed L :=
  ⟨h.ues.modify changed, h.sessions, h.parked⟩

theorem modifySession (h : c.Composed L)
    (changed : ∀ s : Session, s.Composed L → (g s).Composed L) : (c.modifySession id g).Composed L :=
  ⟨h.ues, h.sessions.modify changed, h.parked⟩

theorem confirm {uri smRef : String} (h : c.Composed L) : (c.confirm id uri smRef).Composed L :=
  h.modifySession fun _ composed => composed

theorem holdSetup {pdu : Option Octets} (h : c.Composed L)
    (composed : ∀ xs, pdu = some xs → Ngap.Composed L xs) : (c.holdSetup id pdu).Composed L :=
  h.modifySession fun _ before => ⟨composed, before.2⟩

theorem holdCommand {command : Option HeldCommand} (h : c.Composed L)
    (within : ∀ x, command = some x → x.Within L) : (c.holdCommand id command).Composed L :=
  h.modifySession fun _ before => ⟨before.1, within⟩

theorem withTimers {timers : Timers} (h : c.Composed L) : (c.withTimers timers).Composed L :=
  ⟨h.ues, h.sessions, h.parked⟩

theorem withClients {clients : Clients} (h : c.Composed L) : (c.withClients clients).Composed L :=
  ⟨h.ues, h.sessions, h.parked⟩

/-- What happens to legs alone does not matter. -/
theorem of_legs {c' : Context} (h : c.Composed L) (same : c.SameButLegs c')
    (ues : ∀ v, (c'.ues.get? v).map (Ue.Composed L) = (c.ues.get? v).map (Ue.Composed L)) :
    c'.Composed L :=
  ⟨h.ues.of_map ues, same.sessions ▸ h.sessions, same.parked ▸ h.parked⟩

theorem modifyLeg {k : Nat} {f : Leg → Leg} (h : c.Composed L) : (c.modifyLeg k f).Composed L :=
  ⟨h.ues, h.sessions, h.parked⟩

theorem quitPaging (h : c.Composed L) {timers : Timers} : (c.quitPaging u timers).Composed L :=
  ⟨h.ues.modify fun _ => Ue.Composed.unpaged, h.sessions, h.parked.erase⟩

theorem removeSession (h : c.Composed L) : (c.removeSession id).Composed L := by
  unfold Context.removeSession
  split
  · exact h
  · refine ⟨h.ues.modify fun _ composed => composed, h.sessions.erase, ?_⟩
    unfold unpark
    split
    · exact h.parked.erase
    · exact h.parked

theorem letGoAll : ∀ (ids : List Nat) {t : Table Session}, t.All (·.Composed L) →
    (letGoAll t ids).All (·.Composed L)
  | [], _, h => h
  | _ :: ids, _, h => letGoAll ids (h.modify fun _ _ => ⟨nofun, nofun⟩)

theorem detach (h : c.Composed L) : Context.Composed L (Relocation.detach c u) := by
  have free : (c.withoutLeg u).Composed L :=
    h.of_legs same_withoutLeg fun _ => map_ues_withoutLeg fun _ _ => rfl
  rw [detach_eq]
  exact ⟨free.ues.modify fun _ composed => composed.unpaged.unasked, letGoAll _ h.sessions,
    h.parked.erase⟩

end Context.Composed

namespace Node.Composed

variable {n : Node} {m : Outbound} {f : Context → Context} {u id : Nat}

theorem change (h : n.Composed L) (changed : (f n.context).Composed L) : (n.change f).Composed L :=
  ⟨changed, h.offered⟩

theorem offer (h : n.Composed L) (composed : m.Composed L) : (n.offer m).Composed L := by
  refine ⟨h.context, fun x mem => ?_⟩
  rw [links_offer, Links.offered_offer] at mem
  rcases List.mem_append.1 mem with mem | mem
  · exact h.offered x mem
  · exact List.mem_singleton.1 mem ▸ composed

theorem offerAll {ms : List Outbound} (h : n.Composed L) (composed : ∀ m ∈ ms, m.Composed L) :
    (n.offerAll ms).Composed L := by
  induction ms generalizing n with
  | nil => exact h
  | cons m ms ih =>
    exact ih (h.offer (composed m List.mem_cons_self)) fun x mem =>
      composed x (List.mem_cons_of_mem m mem)

theorem count {x : Metric} (h : n.Composed L) : (n.count x).Composed L := ⟨h.context, h.offered⟩

theorem uncount {x : Metric} (h : n.Composed L) : (n.uncount x).Composed L := ⟨h.context, h.offered⟩

theorem ue {x : Ue} (h : n.Composed L) (known : n.context.ues.get? u = some x) : x.Composed L :=
  h.context.ues u x known

theorem session {s : Session} (h : n.Composed L) (there : n.context.sessions.get? id = some s) :
    s.Composed L := h.context.sessions id s there

end Node.Composed

/-! ## Steps that bring nothing new -/

/-- The act brings something new to be sent, now or later. -/
def Act.brings : Act → Bool
  | .tell .. | .setUp _ | .holdSetup _ | .holdCommand _ | .park .. | .refusePaging _ | .deregister _
  | .setPolicy _ => true
  | _ => false

theorem Context.composed_of_reports {c : Context} {u : Nat} {m : Outbound} (mem : m ∈ c.reports u) :
    m.Composed L := by
  unfold reports Parked.reports at mem
  split at mem
  · cases mem
  · split at mem
    · cases mem
    · exact List.mem_singleton.1 mem ▸ trivial

/-- A new leg brings nothing. -/
theorem Node.Composed.connect {n : Node} {c : Context} {u k : Nat} {gnb ran : UInt64} {rat : RatType}
    (h : n.Composed L) (room : n.context.addLeg gnb ran = some (k, c)) :
    (n.connect c u k rat).Composed L := by
  have served : ((c.freeLeg u).serve u k rat).Composed L := by
    refine h.context.of_legs ((Context.same_addLeg room).trans
      (Context.same_freeLeg.trans Context.same_serve)) fun v => ?_
    obtain ⟨-, rfl, rfl⟩ := Context.addLeg_eq_some_iff.1 room
    exact (Context.map_ues_serve fun _ _ => rfl).trans (Context.map_ues_freeLeg fun _ _ => rfl)
  constructor
  · rw [Node.context_connect]
    exact served.quitPaging
  · rw [Node.links_connect]
    exact h.offered

/-- **A step that brings nothing new keeps what is composed within limits so.** -/
theorem Step.composed {a : Act} {n n' : Node} (step : Step a n n') (old : a.brings = false)
    (h : n.Composed L) : n'.Composed L := by
  cases step with
  | tell | setUp | holdSetup | holdCommand | park | refusePaging | deregister | setPolicy => cases old
  | ask => exact h.offer trivial
  | confirm => exact h.change h.context.confirm
  | confirmIdle => exact .change (.change h h.context.confirm) (h.context.confirm.holdSetup nofun)
  | @confirmHeld n id _ _ _ _ uri smRef session held =>
    have let_go : ((n.change (·.confirm id uri smRef)).change (·.holdSetup id none)).Composed L :=
      .change (.change h h.context.confirm) (h.context.confirm.holdSetup nofun)
    exact let_go.offer ((h.session session).1 _ held)
  | dropCommand => exact h.change (h.context.holdCommand nofun)
  | @record _ _ _ i =>
    exact h.change (h.context.modifySession fun _ composed => by cases i <;> exact composed)
  | remove => exact (h.change h.context.removeSession).uncount
  | repeatNothing _ lost =>
    obtain ⟨-, rfl⟩ | ⟨-, rfl⟩ := lost
    · exact .change (.change h h.context.withTimers) h.context.withTimers
    · exact .change (.change h h.context.withTimers) h.context.withTimers.withTimers
  | @repeatPaging _ u _ _ _ _ pdu _ known kept =>
    exact ((h.change h.context.withTimers).offer (m := .radio (.paging u pdu))
      ((h.ue known).2.1 pdu kept)).count
  | @repeatRefused _ u _ _ _ _ pdu _ known kept =>
    exact (h.change h.context.withTimers).offer (m := .radio (.paging u pdu))
      ((h.ue known).2.1 pdu kept)
  | giveUp => exact (h.change h.context.quitPaging).offerAll fun _ => Context.composed_of_reports
  | connect _ room => exact h.connect room
  | @disconnect n u k =>
    have free : ((n.context.deassociate u).removeLeg k).Composed L :=
      h.context.of_legs Context.same_disconnect fun _ =>
        (Context.map_ues_removeLeg fun _ _ => rfl).trans (Context.map_ues_deassociate fun _ _ => rfl)
    exact (h.change free).uncount
  | answerSetup => exact h.change h.context.modifyLeg
  | expireRequest | stopRequest => exact h.change h.context.withTimers
  | forgetRequest => exact h.change (h.context.modifyUe fun _ => Ue.Composed.unasked)
  | mark => exact h.change (h.context.modifyUe fun _ composed => composed)
  | detach =>
    split
    · exact h.uncount.change h.context.detach
    · exact h.change h.context.detach

/-! ## Procedures -/

/-- The procedure keeps states that are composed within limits so. -/
abbrev Procedure.Keeps (L : Limits) (p : Procedure α) : Prop :=
  Preserves (Node.Composed L) p fun _ => True

namespace Procedure

theorem keeps_of_chain {p : Procedure α} (chain : ∀ n, Chain (·.brings = false) n (p.exec n).2) :
    Keeps L p :=
  fun n h => ⟨(chain n).keeps (fun _ _ _ old step => step.composed old) h, fun _ _ => trivial⟩

theorem keeps_of_course {p : Procedure α} (course : ∀ n, Course (·.brings = false) n (p.exec n).2) :
    Keeps L p :=
  keeps_of_chain fun n => (course n).chain

theorem keeps_context_bind {f : Context → Procedure α}
    (rest : ∀ c : Context, c.Composed L → Keeps L (f c)) : Keeps L (context >>= f) :=
  .bind (.read reads_context fun _ _ h is => Except.ok.inj is ▸ h.context) rest

theorem keeps_session_bind {id : Nat} {f : Session → Procedure α}
    (rest : ∀ s : Session, s.Composed L → Keeps L (f s)) : Keeps L (session id >>= f) :=
  .bind (.read (reads_session id) fun _ _ h is => h.session (exec_session_eq_ok.1 is)) rest

theorem keeps_ue_bind {id : Nat} {f : Ue → Procedure α}
    (rest : ∀ x : Ue, x.Composed L → Keeps L (f x)) : Keeps L (ue id >>= f) :=
  .bind (.read (reads_ue id) fun _ _ h is => h.ue (exec_ue_eq_ok.1 is)) rest

theorem keeps_change {f : Context → Context}
    (changed : ∀ c : Context, c.Composed L → (f c).Composed L) : Keeps L (change f) :=
  .change fun _ h => h.change (changed _ h.context)

theorem keeps_emit {m : Outbound} (composed : m.Composed L) : Keeps L (emit m) :=
  .emit fun _ h => h.offer composed

theorem keeps_emitOn {leg : Leg} {r : Ngap.Request} (made : r.Made L) :
    Keeps L (emitOn leg (r.octets leg.ids)) :=
  keeps_emit ⟨r, leg.ids, rfl, made⟩

theorem keeps_emitNas {leg : Leg} {nas : Octets} (made : Nas.Made L.n1 nas) :
    Keeps L (emitNas leg nas) :=
  keeps_emitOn (r := .downlinkNas nas) made

end Procedure

namespace Delivery

/-- A setup request is made of what it brings, and of the slices and the capability of its UE. -/
theorem made_setupRequest {c : Context} {x : Ue} {leg : Leg} {s : Session} {nas : Option Octets}
    {n2 : Octets} (within : x.Within L) (made : ∀ xs, nas = some xs → Nas.Made L.n1 xs)
    (holds : L.n2 n2) : (setupRequest c x leg s nas n2).Made L := by
  unfold setupRequest
  split
  · exact ⟨made, holds⟩
  · exact ⟨within.1, ⟨x.capability, rfl⟩, made, holds⟩

theorem made_commandRequest {psi : UInt8} {c : HeldCommand} (within : c.Within L) :
    (commandRequest psi c).Made L := by
  obtain ⟨n1, n2⟩ := within
  unfold commandRequest
  cases c.kind with
  | modification =>
    refine ⟨.session psi ?_, n2⟩
    cases payload : c.n1 with
    | none => exact L.n1_nil
    | some xs => exact n1 xs payload
  | release =>
    refine ⟨fun xs is => ?_, n2⟩
    obtain ⟨payload, given, rfl⟩ := Option.map_eq_some_iff.1 is
    exact .session psi (n1 payload given)

theorem keeps_setup {id : Nat} {nas : Option Octets} {n2 : Octets}
    (made : ∀ xs, nas = some xs → Nas.Made L.n1 xs) (holds : L.n2 n2) :
    Keeps L (setup id nas n2) := by
  unfold setup
  refine keeps_session_bind fun s _ => ?_
  refine keeps_ue_bind fun x known => ?_
  refine .read_bind (reads_legOf _) fun ⟨k, leg⟩ => ?_
  refine keeps_context_bind fun c _ => ?_
  have made : (setupRequest c x leg s nas n2).Made L := made_setupRequest known.1 made holds
  refine .bind (keeps_change fun _ h => h.modifyLeg) fun _ _ => ?_
  split
  · exact keeps_emitOn made
  · refine keeps_change fun c h => h.holdSetup ?_
    intro pdu is
    exact Option.some.inj is ▸ ⟨_, leg.ids, rfl, made⟩

theorem keeps_command {id : Nat} {c : HeldCommand} (within : c.Within L) :
    Keeps L (command id c) := by
  unfold command
  refine keeps_session_bind fun s _ => ?_
  refine .read_bind (reads_legOf _) fun ⟨k, leg⟩ => ?_
  exact keeps_emitOn (made_commandRequest within)

theorem keeps_commandOrHold {u id : Nat} {c : HeldCommand} (within : c.Within L) :
    Keeps L (commandOrHold u id c) := by
  unfold commandOrHold
  refine keeps_context_bind fun _ _ => ?_
  split
  · exact keeps_command within
  · exact keeps_change fun _ h => h.holdCommand fun x is => Option.some.inj is ▸ within

theorem keeps_releaseCommand {id : Nat} : Keeps L (releaseCommand id) := by
  unfold releaseCommand
  refine keeps_context_bind fun c composed => ?_
  split
  · exact .pure trivial
  · rename_i held
    obtain ⟨s, there, held⟩ := Option.bind_eq_some_iff.1 held
    refine .bind (keeps_change fun _ h => h.holdCommand nofun) fun _ _ => ?_
    exact .bind (keeps_command ((composed.sessions id s there).2 _ held)) fun _ _ => .pure trivial

theorem keeps_reject {id : Nat} {n1 : Octets} (holds : L.n1 n1) : Keeps L (reject id n1) := by
  unfold reject
  refine keeps_session_bind fun s _ => ?_
  refine keeps_context_bind fun _ _ => ?_
  split
  · exact .pure trivial
  · exact .bind (keeps_emitNas (.session _ holds)) fun _ _ => .pure trivial

theorem keeps_deregister {u : Nat} {reregister : Bool} {cause : Option Nas.Cause} :
    Keeps L (deregister u reregister cause) := by
  unfold deregister
  refine keeps_ue_bind fun x _ => ?_
  refine .read_bind (reads_legOf _) fun ⟨k, leg⟩ => ?_
  refine .bind (keeps_emitNas (.deregistration _)) fun _ _ => keeps_change fun c h => ?_
  exact ⟨h.ues.modify fun _ composed => composed.asked _, h.sessions, h.parked⟩

theorem keeps_repeatDeregistration {u : Nat} : Keeps L (repeatDeregistration u) := by
  unfold repeatDeregistration
  refine keeps_ue_bind fun x known => ?_
  refine .bind (.need known.2.2) fun nas made => ?_
  exact .read_bind (reads_legOf _) fun _ => keeps_emitNas made

end Delivery

namespace Paging

theorem keeps_resolve {uri : Option String} : Keeps L (resolve uri) := by
  intro n h
  refine ⟨?_, fun _ _ => trivial⟩
  obtain ⟨fault, failed⟩ | ⟨clients, target, added, done, -⟩ := resolve_cases uri n
  · rw [failed]
    exact h
  · have kept : (n.change (·.withClients clients)).Composed L := h.change h.context.withClients
    rwa [done]

/-- A payload that is parked is within limits if it was when it came. -/
theorem keeps_start {id : Nat} {payload : Payload} {uri : Option String}
    (within : payload.Within L) : Keeps L (start id payload uri) := by
  unfold start
  refine keeps_session_bind fun s _ => ?_
  refine keeps_ue_bind fun x _ => ?_
  refine .read_bind (reads_need _ _) fun guti => ?_
  refine .bind keeps_resolve fun resolved _ => ?_
  refine keeps_context_bind fun c _ => ?_
  have paging : Keeps L (emit (.radio (.paging s.ue (Ngap.Paging.octets { guti, tai := x.tai })))) :=
    keeps_emit ⟨_, rfl⟩
  refine .bind (.tryCatch paging fun fault => ?_) fun _ _ => ?_
  · refine .bind (keeps_change fun c h => ?_) fun _ _ => .throw
    rw [forget_eq]
    exact h.withClients
  · refine .bind (keeps_change fun c h => ?_) fun _ _ => ?_
    · exact ⟨h.ues.modify fun _ composed => composed.paged _, h.sessions, h.parked.insert within⟩
    · exact .bind (.count fun _ h => h.count) fun _ _ => .pure trivial

theorem keeps_deliver {u : Nat} {p : Parked} (within : p.payload.Within L) :
    Keeps L (deliver u p) := by
  unfold deliver
  split
  · rename_i is
    rw [is] at within
    exact Delivery.keeps_setup within.1 within.2
  · rename_i is
    rw [is] at within
    exact Delivery.keeps_commandOrHold ⟨fun xs is => Option.some.inj is ▸ within.1, within.2⟩
  · rename_i is
    rw [is] at within
    exact Delivery.keeps_commandOrHold within

end Paging

namespace Transfer

/-- What a transfer brings is within limits. -/
def Order.Within (L : Limits) (o : Order) : Prop :=
  (∀ xs, o.n1 = some xs → L.n1 xs) ∧ ∀ xs, o.n2 = some xs → L.n2 xs

variable {o : Order} (within : o.Within L)
include within

theorem keeps_needN1_bind {f : Octets → Procedure α} (rest : ∀ xs, L.n1 xs → Keeps L (f xs)) :
    Keeps L (o.needN1 >>= f) :=
  .bind (.need within.1) rest

theorem keeps_needN2_bind {f : Octets → Procedure α} (rest : ∀ xs, L.n2 xs → Keeps L (f xs)) :
    Keeps L (o.needN2 >>= f) :=
  .bind (.need within.2) rest

omit within in
theorem keeps_park {payload : Payload} (within : payload.Within L) : Keeps L (park o payload) :=
  .bind (Paging.keeps_start within) fun _ _ => .pure trivial

theorem keeps_setup {s : Session} : Keeps L (setup o s) := by
  unfold setup
  refine keeps_needN2_bind within fun n2 holds => ?_
  have made : ∀ xs, o.n1.map (Nas.wrapSession s.psi) = some xs → Nas.Made L.n1 xs := by
    intro xs is
    obtain ⟨payload, given, rfl⟩ := Option.map_eq_some_iff.1 is
    exact .session s.psi (within.1 payload given)
  refine keeps_context_bind fun _ _ => ?_
  split
  · exact .bind (Delivery.keeps_setup made holds) fun _ _ => .pure trivial
  · exact .read_bind (reads_need _ _) fun _ => keeps_park ⟨made, holds⟩

theorem keeps_modification {s : Session} : Keeps L (modification o s) := by
  unfold modification
  refine keeps_needN1_bind within fun n1 holds => ?_
  refine keeps_needN2_bind within fun n2 holds' => ?_
  refine keeps_context_bind fun _ _ => ?_
  split
  · refine .bind (Delivery.keeps_commandOrHold ⟨fun xs is => ?_, holds'⟩) fun _ _ => .pure trivial
    exact Option.some.inj is ▸ holds
  · exact keeps_park ⟨holds, holds'⟩

theorem keeps_release {s : Session} : Keeps L (release o s) := by
  unfold release
  refine keeps_needN2_bind within fun n2 holds => ?_
  refine keeps_context_bind fun _ _ => ?_
  split
  · exact .bind (Delivery.keeps_commandOrHold ⟨within.1, holds⟩) fun _ _ => .pure trivial
  · split
    · exact .pure trivial
    · exact keeps_park ⟨within.1, holds⟩

theorem keeps_reject : Keeps L (reject o) := by
  unfold reject
  refine keeps_needN1_bind within fun n1 holds => ?_
  refine .bind (Delivery.keeps_reject holds) fun _ _ => ?_
  refine .bind (keeps_change fun _ h => h.removeSession) fun _ _ => ?_
  exact .bind (.uncount fun _ h => h.uncount) fun _ _ => .pure trivial

/-- **A transfer keeps what is composed within limits so, if what it brings is within them.** -/
theorem keeps_run : Keeps L (run o) := by
  unfold run
  refine keeps_context_bind fun _ _ => ?_
  refine .read_bind (reads_need _ _) fun s => ?_
  refine keeps_context_bind fun _ _ => ?_
  refine .read_bind (reads_need _ _) fun _ => ?_
  split
  · exact keeps_setup within
  · exact keeps_modification within
  · exact keeps_release within
  · exact keeps_reject within
  · exact .throw

end Transfer

namespace Deregistration

theorem keeps_mark {u : Nat} {state : DeregistrationState} : Keeps L (mark u state) :=
  keeps_of_chain fun _ => mark_chain rfl fun _ => rfl

theorem keeps_notify {u : Nat} {d : Document.Deregistration} : Keeps L (notify u d) := by
  unfold notify
  refine keeps_context_bind fun _ _ => ?_
  refine .read_bind (reads_need _ _) fun _ => ?_
  refine .read_bind (reads_need _ _) fun _ => ?_
  split
  · exact .throw
  · refine keeps_context_bind fun _ _ => ?_
    split
    · refine .bind Delivery.keeps_deregister fun _ _ => ?_
      exact .bind keeps_mark fun _ _ => .pure trivial
    · exact .bind keeps_mark fun _ _ => .pure trivial

theorem keeps_expired {u g : Nat} : Keeps L (expired u g) := by
  unfold expired
  refine keeps_context_bind fun _ _ => ?_
  split
  rename_i timers _
  refine .bind (keeps_change fun c h => h.withTimers) fun _ _ => ?_
  split
  · exact .pure trivial
  · refine .tryCatch Delivery.keeps_repeatDeregistration fun fault => ?_
    split
    · exact keeps_change fun c h => h.withTimers
    · exact .throw
  · exact keeps_change fun c h => h.modifyUe fun _ => Ue.Composed.unasked

end Deregistration

namespace Subscription

theorem keeps_follow {u : Nat} {changed : Bool} : Keeps L (follow u changed) := by
  unfold follow
  refine keeps_context_bind fun c composed => ?_
  refine .bind (.need fun x => composed.ues u x) fun x known => ?_
  split
  · refine .bind (keeps_change fun c h => ?_) fun _ _ => .pure trivial
    exact h.modifyUe fun _ composed => composed
  · split
    · refine .bind Delivery.keeps_deregister fun _ _ => ?_
      exact .bind Deregistration.keeps_mark fun _ _ => .pure trivial
    · split
      · exact .bind (keeps_emitOn (r := .contextModification _ _) known.1.2) fun _ _ => .pure trivial
      · exact .pure trivial

theorem keeps_followAll : ∀ w : Working, Keeps L (followAll w)
  | [] => .pure trivial
  | _ :: w =>
    .bind (.observe keeps_follow) fun _ _ => .bind (keeps_followAll w) fun _ _ => .pure trivial

end Subscription

end Amf
