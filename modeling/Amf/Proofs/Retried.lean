import Amf.Proofs.Deferred
import Amf.Proofs.FirstSetup

/-!
# Refused transfers

A transfer for a connected UE hands at most one message over, as the last thing that may fail
(`run_hands`). If the radio network refuses it, nothing is left half done, and the same transfer hands
the same message over once the radio network takes messages again. One case differs
(`refused_iff`): the first setup on a leg marks the leg before its message is handed over, so what is
repeated is a resource setup in the place of an initial context setup.

| transfer | hands over | leaves behind when refused |
| --- | --- | --- |
| first setup on a leg | an initial context setup | the mark of the leg |
| later setup | a resource setup | nothing |
| modification, release of an established UE | the command | nothing |
| reject | the message to the UE | nothing |
-/

namespace Amf

open Context Procedure

namespace Transfer

variable {o : Order} {n : Node} {s : Session} {u k : Nat} {l : Leg} {m : Outbound}

/-- A transfer fails because a transport refuses its message. -/
def Refused (o : Order) (n : Node) : Prop :=
  ∃ transport, ((run o).exec n).1 = .error (.send (.transportClosed transport))

/-- The context, the metrics and what has left are after a transfer as before it. -/
def AsBefore (o : Order) (n : Node) : Prop :=
  let n' := ((run o).exec n).2
  n'.context = n.context ∧ n'.metrics = n.metrics ∧ n'.links.sent = n.links.sent

/-- A transfer hands a message over, and if it is repeated after that, while the radio network takes
messages, then it succeeds and exactly this message leaves. -/
def SentAgain (o : Order) (n : Node) : Prop :=
  let n' := ((run o).exec n).2
  ∃ m, n'.links.offered = n.links.offered ++ [m] ∧ ∀ links : Links, links.accepts m = true →
    ((run o).exec { n' with links }).1 = .ok .initiated ∧
      ((run o).exec { n' with links }).2.links.sent = links.sent ++ [m]

/-- The mark that a transfer leaves on a leg before its message is handed over. -/
def Order.mark (o : Order) (leg : Nat) (c : Context) : Context :=
  if o.kind = .setup then c.markSetup leg else c

/-- What follows a message succeeds and hands nothing over. -/
def Finishes (finish : Procedure Outcome) : Prop :=
  ∀ n, (finish.exec n).1 = .ok .initiated ∧ (finish.exec n).2.links = n.links

/-- In every state of a context a transfer marks the leg if it is a setup, hands a message over, and
finishes if that is taken. -/
def Hands (o : Order) (c : Context) (leg : Nat) (m : Outbound) : Prop :=
  ∃ finish, Finishes finish ∧ ∀ n : Node, n.context = c →
    (run o).exec n = (do emit m; finish).exec (n.change (o.mark leg))

/-- A message that is refused is handed over, and leaves the mark of the leg behind. -/
theorem Hands.refused (hands : Hands o n.context k m) (refused : n.links.accepts m = false) :
    (run o).exec n =
      (.error (.send (.transportClosed m.transport)), (n.change (o.mark k)).offer m) := by
  obtain ⟨finish, -, same⟩ := hands
  have no : verdict (n.change (o.mark k)) m = .error (.send (.transportClosed m.transport)) :=
    if_neg (by rw [Node.links_change, refused]; exact Bool.false_ne_true)
  rw [same n rfl, exec_bind, exec_emit, no]

theorem Hands.accepted (hands : Hands o n.context k m) (accepted : n.links.accepts m = true) :
    ((run o).exec n).1 = .ok .initiated ∧ ((run o).exec n).2.links = n.links.offer m := by
  obtain ⟨finish, finishes, same⟩ := hands
  have yes : verdict (n.change (o.mark k)) m = .ok () := if_pos accepted
  rw [same n rfl, exec_bind, exec_emit, yes]
  exact finishes _

/-- A refusal is one of the message that is handed over. -/
theorem Hands.accepts_of_refused (hands : Hands o n.context k m) (refused : Refused o n) :
    n.links.accepts m = false := by
  rw [Bool.eq_false_iff]
  intro accepted
  obtain ⟨t, failed⟩ := refused
  rw [(hands.accepted accepted).1] at failed
  cases failed

/-! ## What a transfer hands over -/

section
variable {c : Context} {d : Procedure Unit}

/-- A delivery that comes to one message. -/
theorem Hands.of_delivery
    (runs : ∀ n : Node, n.context = c →
      (run o).exec n = (do d; return Outcome.initiated : Procedure Outcome).exec n)
    (hands : ∀ n : Node, n.context = c → d.exec n = (emit m).exec (n.change (o.mark k))) :
    Hands o c k m := by
  refine ⟨pure .initiated, fun _ => ⟨rfl, rfl⟩, fun n is => ?_⟩
  rw [runs n is, exec_bind, hands n is, exec_bind]

/-- A delivery that succeeds is not refused. -/
theorem not_refused_of_delivery
    (runs : (run o).exec n = (do d; return Outcome.initiated : Procedure Outcome).exec n)
    (succeeds : (d.exec n).1 = .ok ()) : ¬Refused o n := by
  rintro ⟨t, failed⟩
  rw [runs, exec_bind] at failed
  generalize d.exec n = result at succeeds failed
  obtain ⟨_, m⟩ := result
  subst succeeds
  cases failed

/-- A transfer that lacks a part is not refused by a transport. -/
theorem not_refused_of_missing {α : Type} {a : Option α} {text : String}
    {rest : α → Procedure Outcome} (missing : a = none)
    (runs : (run o).exec n = (need a (.badRequest text) >>= rest).exec n) : ¬Refused o n := by
  rintro ⟨t, failed⟩
  subst missing
  rw [runs, exec_bind_of_error (exec_need_none _ n)] at failed
  cases failed

/-- The transfer hands a message over that is made for the leg, and a setup is made as the mark of
the leg tells; or it is not refused. -/
def HandsAtMost (o : Order) (c : Context) (leg : Nat) (l : Leg) : Prop :=
  (∃ r : Ngap.Request, (o.kind = .setup → r.procedure = if l.setupSent then 29 else 14) ∧
    Hands o c leg (l.message r)) ∨ ∀ n : Node, n.context = c → ¬Refused o n

section
variable (session : c.sessions.get? o.session = some s) (leg : c.legOf? s.ue = some (k, l))
include session leg

/-- A setup of a session that is confirmed hands over what the mark of the leg selects. -/
theorem hands_setup_of_confirmed {n2 : Octets} (kind : o.kind = .setup) (part : o.n2 = some n2)
    (confirmed : s.confirmed = true) :
    ∃ r : Ngap.Request, r.procedure = (if l.setupSent then 29 else 14) ∧ Hands o c k (l.message r) := by
  have known := contains_of_leg leg
  obtain ⟨x, ue⟩ := Table.contains_iff.1 known
  let nas := o.n1.map (Nas.wrapSession s.psi)
  refine ⟨Delivery.setupRequest c x l s nas n2, Delivery.procedure_setupRequest c x l s nas n2,
    Hands.of_delivery (d := Delivery.setup o.session nas n2) ?_ ?_⟩
  · rintro n rfl
    rw [exec_run session known, kind]
    unfold setup Order.needN2
    rw [part, exec_bind_of_ok (exec_need_some n2 _ n), exec_context_bind, connection_of_leg leg]
  · rintro n rfl
    rw [Delivery.exec_setup nas n2 session ue leg]
    unfold Order.mark
    simp only [if_pos confirmed, if_pos kind]
    rfl

/-- A setup that lacks its part, or that is held back, is not refused. -/
theorem confirmed_of_refused (kind : o.kind = .setup) (is : n.context = c) (refused : Refused o n) :
    s.confirmed = true ∧ ∃ n2, o.n2 = some n2 := by
  subst is
  have known := contains_of_leg leg
  obtain ⟨x, ue⟩ := Table.contains_iff.1 known
  have runs : (run o).exec n = (setup o s).exec n := by
    rw [exec_run session known, kind]
  unfold setup at runs
  cases part : o.n2 with
  | none => exact absurd refused (not_refused_of_missing part runs)
  | some n2 =>
    refine ⟨?_, n2, rfl⟩
    by_contra unconfirmed
    have delivers := runs
    rw [Order.needN2, part, exec_bind_of_ok (exec_need_some n2 _ n), exec_context_bind,
      connection_of_leg leg] at delivers
    refine not_refused_of_delivery delivers ?_ refused
    rw [Delivery.exec_setup _ n2 session ue leg]
    simp only [if_neg unconfirmed]
    rfl

theorem hands_setup (kind : o.kind = .setup) : HandsAtMost o c k l := by
  by_cases refused : ∃ n : Node, n.context = c ∧ Refused o n
  · obtain ⟨n, is, refused⟩ := refused
    obtain ⟨confirmed, n2, part⟩ := confirmed_of_refused session leg kind is refused
    obtain ⟨r, procedure, hands⟩ := hands_setup_of_confirmed session leg kind part confirmed
    exact .inl ⟨r, fun _ => procedure, hands⟩
  · exact .inr fun n is here => refused ⟨n, is, here⟩

/-- A command leaves for a UE that is established, and is held back for one that is not. -/
theorem hands_command (command : HeldCommand) (kind : o.kind ≠ .setup)
    (delivers : ∀ n : Node, n.context = c → (run o).exec n =
      (do Delivery.commandOrHold s.ue o.session command
          return Outcome.initiated : Procedure Outcome).exec n) : HandsAtMost o c k l := by
  by_cases established : c.established s.ue = true
  · refine .inl ⟨Delivery.commandRequest s.psi command, fun is => absurd is kind,
      .of_delivery delivers ?_⟩
    rintro n rfl
    unfold Delivery.commandOrHold Order.mark
    rw [exec_context_bind, if_pos established, Delivery.exec_command command session leg]
    simp only [if_neg kind]
    rfl
  · refine .inr fun n is => not_refused_of_delivery (delivers n is) ?_
    subst is
    unfold Delivery.commandOrHold
    rw [exec_context_bind, if_neg established]
    rfl

theorem hands_modification (kind : o.kind = .modification) : HandsAtMost o c k l := by
  have runs : ∀ n : Node, n.context = c → (run o).exec n = (modification o s).exec n := by
    rintro n rfl
    rw [exec_run session (contains_of_leg leg), kind]
  unfold modification at runs
  cases part₁ : o.n1 with
  | none => exact .inr fun n is => not_refused_of_missing part₁ (runs n is)
  | some n1 =>
    cases part₂ : o.n2 with
    | none =>
      refine .inr fun n is => ?_
      have without := runs n is
      rw [Order.needN1, part₁, exec_bind_of_ok (exec_need_some n1 _ n)] at without
      exact not_refused_of_missing part₂ without
    | some n2 =>
      refine hands_command session leg ⟨.modification, some n1, n2⟩ (by simp [kind]) fun n is => ?_
      rw [runs n is, Order.needN1, Order.needN2, part₁, part₂, exec_bind_of_ok (exec_need_some n1 _ n),
        exec_bind_of_ok (exec_need_some n2 _ n), exec_context_bind, is, connection_of_leg leg]

theorem hands_release (kind : o.kind = .release) : HandsAtMost o c k l := by
  have runs : ∀ n : Node, n.context = c → (run o).exec n = (release o s).exec n := by
    rintro n rfl
    rw [exec_run session (contains_of_leg leg), kind]
  unfold release at runs
  cases part : o.n2 with
  | none => exact .inr fun n is => not_refused_of_missing part (runs n is)
  | some n2 =>
    refine hands_command session leg ⟨.release, o.n1, n2⟩ (by simp [kind]) fun n is => ?_
    rw [runs n is, Order.needN2, part, exec_bind_of_ok (exec_need_some n2 _ n), exec_context_bind, is,
      connection_of_leg leg]

omit session leg in
/-- The rejection of a session of a connected UE is the message to the UE. -/
theorem exec_reject {n : Node} (n1 : Octets) (session : n.context.sessions.get? o.session = some s)
    (leg : n.context.legOf? s.ue = some (k, l)) : (Delivery.reject o.session n1).exec n =
      (do emit (l.message (.downlinkNas (Nas.wrapSession s.psi n1)))
          return true : Procedure Bool).exec n := by
  unfold Delivery.reject
  rw [exec_bind_of_ok (exec_session_of_some session), exec_context_bind, leg]
  rfl

/-- The message that rejects a session leaves in any case, and the session goes after it. -/
theorem hands_reject (kind : o.kind = .reject) : HandsAtMost o c k l := by
  have runs : ∀ n : Node, n.context = c → (run o).exec n = (reject o).exec n := by
    rintro n rfl
    rw [exec_run session (contains_of_leg leg), kind]
  unfold reject at runs
  cases part : o.n1 with
  | none => exact .inr fun n is => not_refused_of_missing part (runs n is)
  | some n1 =>
    let r := Ngap.Request.downlinkNas (Nas.wrapSession s.psi n1)
    let finish : Procedure Outcome := do
      change fun c => c.removeSession o.session
      uncount .sessions
      return .initiated
    refine .inl ⟨r, fun is => absurd is (by simp [kind]), finish,
      fun _ => ⟨rfl, rfl⟩, fun n is => ?_⟩
    subst is
    have unmarked : n.change (o.mark k) = n := by
      unfold Order.mark
      rw [kind]
      rfl
    rw [runs n rfl, Order.needN1, part, exec_bind_of_ok (exec_need_some n1 _ n), exec_bind,
      exec_reject n1 session leg, unmarked, exec_bind, exec_bind, exec_emit]
    cases verdict n (l.message r) <;> rfl

end
end

/-- **A transfer for a connected UE hands at most one message over**, and in all states of a context
the same. -/
theorem run_hands {c : Context} (session : c.sessions.get? o.session = some s)
    (leg : c.legOf? s.ue = some (k, l)) : HandsAtMost o c k l := by
  cases kind : o.kind with
  | setup => exact hands_setup session leg kind
  | modification => exact hands_modification session leg kind
  | release => exact hands_release session leg kind
  | reject => exact hands_reject session leg kind
  | other ie =>
    refine .inr fun n is => ?_
    rintro ⟨t, failed⟩
    subst is
    rw [exec_run session (contains_of_leg leg), kind] at failed
    cases failed

/-! ## Refusals -/

theorem legOf?_markSetup {c : Context} (leg : c.legOf? u = some (k, l)) :
    (c.markSetup k).legOf? u = some (k, { l with setupSent := true }) := by
  obtain ⟨uses, there⟩ := legOf?_eq_some_iff.1 leg
  refine legOf?_eq_some_iff.2 ⟨uses, ?_⟩
  exact Table.get?_modify_of_some there

/-- A leg that is marked already stays as it is. -/
theorem markSetup_of_marked {c : Context} (leg : c.legOf? u = some (k, l))
    (marked : l.setupSent = true) : c.markSetup k = c := by
  have there := (legOf?_eq_some_iff.1 leg).2
  have same : c.legs.modify k (fun l => { l with setupSent := true }) = c.legs := by
    refine Table.modify_eq_self fun l' there' => ?_
    rw [there] at there'
    cases there'
    rw [← marked]
  unfold markSetup modifyLeg
  rw [same]

theorem markSetup_ne {c : Context} (leg : c.legOf? u = some (k, l))
    (unmarked : l.setupSent = false) : c.markSetup k ≠ c := by
  intro same
  have marked := legOf?_markSetup leg
  rw [same, leg] at marked
  have up : l.setupSent = true := congrArg (·.2.setupSent) (Option.some.inj marked)
  rw [unmarked] at up
  cases up

section
variable (session : n.context.sessions.get? o.session = some s)
  (leg : n.context.legOf? s.ue = some (k, l)) (refused : Refused o n)
include session leg refused

/-- A refused transfer has handed over the message of its leg, and left nothing behind but the mark of
the leg. -/
theorem exists_of_refused :
    ∃ r : Ngap.Request, Hands o n.context k (l.message r) ∧
      (o.kind = .setup → r.procedure = if l.setupSent then 29 else 14) ∧
      n.links.accepts (l.message r) = false ∧
      ((run o).exec n).2 = (n.change (o.mark k)).offer (l.message r) := by
  rcases run_hands session leg with ⟨r, procedure, hands⟩ | never
  · have no := hands.accepts_of_refused refused
    exact ⟨r, hands, procedure, no, congrArg Prod.snd (hands.refused no)⟩
  · exact absurd refused (never n rfl)

/-- **What a refused transfer leaves behind**: the mark of the leg, if it is a setup. -/
theorem left_of_refused :
    let n' := ((run o).exec n).2
    n'.context = o.mark k n.context ∧ n'.metrics = n.metrics ∧ n'.links.sent = n.links.sent := by
  obtain ⟨r, -, -, no, after⟩ := exists_of_refused session leg refused
  rw [after]
  exact ⟨rfl, rfl, Links.sent_offer_of_refused no⟩

/-- **A refused transfer that leaves no mark sends its message when it is repeated.** -/
theorem sentAgain_of_mark (same : o.mark k n.context = n.context) : SentAgain o n := by
  obtain ⟨r, hands, -, -, after⟩ := exists_of_refused session leg refused
  unfold SentAgain
  rw [after]
  refine ⟨l.message r, Links.offered_offer _ _, fun links accepted => ?_⟩
  have hands' : Hands o (o.mark k n.context) k (l.message r) := same.symm ▸ hands
  obtain ⟨done, sends⟩ := Hands.accepted
    (n := { (n.change (o.mark k)).offer (l.message r) with links }) hands' accepted
  exact ⟨done, (congrArg Links.sent sends).trans (Links.sent_offer_of_accepted accepted)⟩

/-- **What is repeated of the first setup on a leg is not the message that was refused**: it is a
resource setup in the place of an initial context setup. -/
theorem not_sentAgain_of_first (kind : o.kind = .setup) (unmarked : l.setupSent = false) :
    ¬SentAgain o n := by
  obtain ⟨r, -, procedure, -, after⟩ := exists_of_refused session leg refused
  obtain ⟨confirmed, n2, part⟩ := confirmed_of_refused session leg kind rfl refused
  have marks : o.mark k n.context = n.context.markSetup k := if_pos kind
  obtain ⟨r', procedure', hands'⟩ :=
    hands_setup_of_confirmed (o := o) (c := n.context.markSetup k) session (legOf?_markSetup leg) kind
      part confirmed
  intro again
  unfold SentAgain at again
  rw [after] at again
  obtain ⟨m, offered, again⟩ := again
  obtain rfl : l.message r = m := by
    rw [Node.links_offer, Links.offered_offer, Node.links_change] at offered
    exact List.singleton_inj.1 (List.append_cancel_left offered)
  obtain ⟨-, sent⟩ := again {} rfl
  obtain ⟨-, sends⟩ := Hands.accepted
    (n := { (n.change (o.mark k)).offer (l.message r) with links := {} }) (marks ▸ hands') rfl
  rw [sends, Links.sent_offer_of_accepted rfl] at sent
  have same := List.singleton_inj.1 (List.append_cancel_left sent)
  have octets : r'.octets l.ids = r.octets l.ids := by
    injection same with same
    injection same
  have codes : r'.procedure = r.procedure := by
    rw [← Ngap.code_octets r' l.ids, octets, Ngap.code_octets]
  rw [procedure', procedure kind, unmarked] at codes
  simp at codes

end

/-- **A refused transfer can be repeated, unless it was the first setup on its leg.** A transfer for a
session of a connected UE that fails because the radio network refuses its message leaves the context
as before but for the mark of the leg, and the metrics and what has left as before. The context is as
before altogether exactly if the transfer is no setup or the leg is marked already; and exactly then
the same transfer, repeated while the radio network takes messages again, succeeds and sends exactly
the message that was refused. -/
theorem refused_iff (session : n.context.sessions.get? o.session = some s)
    (leg : n.context.legOf? s.ue = some (k, l)) (refused : Refused o n) :
    let n' := ((run o).exec n).2
    (n'.context = (if o.kind = .setup then n.context.markSetup k else n.context) ∧
      n'.metrics = n.metrics ∧ n'.links.sent = n.links.sent) ∧
    (AsBefore o n ↔ (o.kind = .setup → l.setupSent = true)) ∧
    (SentAgain o n ↔ (o.kind = .setup → l.setupSent = true)) := by
  obtain ⟨context, metrics, sent⟩ := left_of_refused session leg refused
  have same : (o.kind = .setup → l.setupSent = true) → o.mark k n.context = n.context := by
    intro marked
    unfold Order.mark
    split
    · rename_i kind
      exact markSetup_of_marked leg (marked kind)
    · rfl
  refine ⟨⟨context, metrics, sent⟩, ⟨fun before kind => ?_, fun marked => ?_⟩, fun again kind => ?_,
    fun marked => sentAgain_of_mark session leg refused (same marked)⟩
  · by_contra unmarked
    have marks : o.mark k n.context = n.context.markSetup k := if_pos kind
    have same : n.context.markSetup k = n.context := marks.symm.trans (context.symm.trans before.1)
    exact markSetup_ne leg (Bool.eq_false_iff.2 unmarked) same
  · exact ⟨context.trans (same marked), metrics, sent⟩
  · by_contra unmarked
    exact not_sentAgain_of_first session leg refused kind (Bool.eq_false_iff.2 unmarked) again

/-- A transfer that rejects session 1. -/
def Order.reject : Order :=
  { session := 1, kind := .reject, n1 := some [1], n2 := none, skip := false, failureUri := none }

/-- A connected UE with a confirmed session, and a radio network that refuses the first message. -/
def refusing : Node :=
  Event.run [.sessionConfirmed 1 5 "" "sm", .connected 1 3 7 .nr]
    { context := .oneSession, links := { radioAccepts := fun i => decide (i ≠ 0) } }

/-- The hypotheses are satisfiable: a rejection is refused, and sent when it is repeated. -/
theorem refused_iff_reject :
    Refused .reject refusing ∧ AsBefore .reject refusing ∧ SentAgain .reject refusing := by
  have session : refusing.context.sessions.get? 1 =
      some { psi := 5, ue := 1, smUri := some "", smRef := some "sm" } := rfl
  have leg : refusing.context.legOf? 1 = some (1, { ids := ⟨1, 7⟩, gnb := 3, ue := some 1 }) := rfl
  have refused : Refused .reject refusing := ⟨_, rfl⟩
  obtain ⟨-, before, again⟩ := refused_iff (o := .reject) session leg refused
  exact ⟨refused, before.2 nofun, again.2 nofun⟩

/-- **The first setup on a leg is refused, and what is sent when it is repeated is another message.** -/
theorem not_sentAgain_setUp :
    Refused .setUp refusing ∧ ¬AsBefore .setUp refusing ∧ ¬SentAgain .setUp refusing := by
  have session : refusing.context.sessions.get? 1 =
      some { psi := 5, ue := 1, smUri := some "", smRef := some "sm" } := rfl
  have leg : refusing.context.legOf? 1 = some (1, { ids := ⟨1, 7⟩, gnb := 3, ue := some 1 }) := rfl
  have refused : Refused .setUp refusing := ⟨_, rfl⟩
  refine ⟨refused, fun before => ?_, not_sentAgain_of_first session leg refused rfl rfl⟩
  have marks := (left_of_refused session leg refused).1
  exact markSetup_ne leg rfl (marks.symm.trans before.1)

end Transfer
end Amf
