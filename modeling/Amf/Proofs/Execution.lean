import Amf.Event

/-!
# Execution of procedures

What `Procedure.exec` makes of every way in which a procedure is put together, and the state after
each elementary one. With these laws a procedure is carried out on a state that is not known in
full, up to the next value that decides how it goes on.

| procedure | outcome | state after `n` |
| --- | --- | --- |
| `change f` | | `n.change f` |
| `count m`, `uncount m` | | `n.count m`, `n.uncount m` |
| `emit m` | as the transport decides | `n.offer m` |
| `attempt p` | | as after `p` |
-/

namespace Amf

namespace Node

/-- The state with its context changed. -/
def change (n : Node) (f : Context → Context) : Node := { n with context := f n.context }

/-- The state with one more of a metric. -/
def count (n : Node) (m : Metric) : Node := { n with metrics := n.metrics.inc m }

/-- The state with one less of a metric. -/
def uncount (n : Node) (m : Metric) : Node := { n with metrics := n.metrics.dec m }

/-- The state after a message was handed to its transport. -/
def offer (n : Node) (m : Outbound) : Node := { n with links := n.links.offer m }

variable (n : Node)

@[simp] theorem context_change (f : Context → Context) : (n.change f).context = f n.context := rfl

@[simp] theorem links_change (f : Context → Context) : (n.change f).links = n.links := rfl

@[simp] theorem context_count (m : Metric) : (n.count m).context = n.context := rfl

@[simp] theorem links_count (m : Metric) : (n.count m).links = n.links := rfl

@[simp] theorem context_uncount (m : Metric) : (n.uncount m).context = n.context := rfl

@[simp] theorem links_uncount (m : Metric) : (n.uncount m).links = n.links := rfl

@[simp] theorem context_offer (m : Outbound) : (n.offer m).context = n.context := rfl

@[simp] theorem links_offer (m : Outbound) : (n.offer m).links = n.links.offer m := rfl

end Node

@[simp] theorem Links.offered_offer (l : Links) (m : Outbound) :
    (l.offer m).offered = l.offered ++ [m] := by
  cases m <;> rfl

theorem Links.sent_offer_of_accepted {l : Links} {m : Outbound} (accepted : l.accepts m = true) :
    (l.offer m).sent = l.sent ++ [m] := by
  cases m <;> exact if_pos accepted

theorem Links.sent_offer_of_refused {l : Links} {m : Outbound} (refused : l.accepts m = false) :
    (l.offer m).sent = l.sent := by
  cases m <;> exact if_neg (by rw [refused]; exact Bool.false_ne_true)

/-- The transport of a message accepts whatever it is offered. -/
def Links.Takes (l : Links) : Outbound → Prop
  | .radio _ => ∀ i, l.radioAccepts i = true
  | .peer _ => ∀ i, l.peerAccepts i = true

theorem Links.Takes.accepts {l : Links} {m : Outbound} (h : l.Takes m) : l.accepts m = true := by
  cases m <;> exact h _

theorem Links.takes_offer {l : Links} {m m' : Outbound} (h : l.Takes m) : (l.offer m').Takes m := by
  cases m <;> cases m' <;> exact h

/-- Messages are accepted when they are handed over in order. -/
def Links.acceptsAll : Links → List Outbound → Bool
  | _, [] => true
  | l, m :: ms => l.accepts m && (l.offer m).acceptsAll ms

theorem Links.acceptsAll_of_takes :
    ∀ {ms : List Outbound} {l : Links}, (∀ m ∈ ms, l.Takes m) → l.acceptsAll ms = true
  | [], _, _ => rfl
  | m :: ms, l, takes => by
    rw [acceptsAll, (takes m List.mem_cons_self).accepts, Bool.true_and]
    exact acceptsAll_of_takes fun m' mem => takes_offer (takes m' (List.mem_cons_of_mem m mem))

namespace Procedure

variable {α β : Type}

@[simp] theorem exec_pure (a : α) (n : Node) : (pure a : Procedure α).exec n = (.ok a, n) := rfl

@[simp] theorem exec_throw (fault : Fault) (n : Node) :
    (throw fault : Procedure α).exec n = (.error fault, n) := rfl

/-- A sequence goes on from the state after its first part, unless that part fails. -/
theorem exec_bind (p : Procedure α) (f : α → Procedure β) (n : Node) :
    (p >>= f).exec n = match p.exec n with
      | (.ok a, n') => (f a).exec n'
      | (.error fault, n') => (.error fault, n') := by
  change (p.run >>= ExceptT.bindCont f).run n = _
  unfold exec
  simp only [StateT.run_bind]
  generalize (p.run).run n = outcome
  obtain ⟨_ | _, _⟩ := outcome <;> rfl

theorem exec_bind_of_ok {p : Procedure α} {n n' : Node} {a : α} (h : p.exec n = (.ok a, n'))
    (f : α → Procedure β) : (p >>= f).exec n = (f a).exec n' := by
  rw [exec_bind, h]

theorem exec_bind_of_error {p : Procedure α} {n n' : Node} {fault : Fault}
    (h : p.exec n = (.error fault, n')) (f : α → Procedure β) :
    (p >>= f).exec n = (.error fault, n') := by
  rw [exec_bind, h]

@[simp] theorem exec_pure_bind (a : α) (f : α → Procedure β) (n : Node) :
    ((pure a : Procedure α) >>= f).exec n = (f a).exec n := rfl

/-- What is returned at the end is all that is left of an outcome. -/
theorem exec_bind_pure (p : Procedure α) (g : α → β) (n : Node) :
    (p >>= fun a => pure (g a)).exec n = ((p.exec n).1.map g, (p.exec n).2) := by
  rw [exec_bind]
  generalize p.exec n = outcome
  obtain ⟨_ | _, _⟩ := outcome <;> rfl

/-- What is returned at the end does not change the state. -/
theorem exec_bind_pure_snd (p : Procedure α) (g : α → β) (n : Node) :
    ((do return g (← p)).exec n).2 = (p.exec n).2 :=
  congrArg (·.2) (exec_bind_pure p g n)

@[simp] theorem exec_context (n : Node) : context.exec n = (.ok n.context, n) := rfl

@[simp] theorem exec_context_bind (f : Context → Procedure β) (n : Node) :
    (context >>= f).exec n = (f n.context).exec n := rfl

@[simp] theorem exec_change (f : Context → Context) (n : Node) :
    (change f).exec n = (.ok (), n.change f) := rfl

@[simp] theorem exec_change_bind (f : Context → Context) (g : Unit → Procedure β) (n : Node) :
    (change f >>= g).exec n = (g ()).exec (n.change f) := rfl

@[simp] theorem exec_count (m : Metric) (n : Node) : (count m).exec n = (.ok (), n.count m) := rfl

@[simp] theorem exec_count_bind (m : Metric) (g : Unit → Procedure β) (n : Node) :
    (count m >>= g).exec n = (g ()).exec (n.count m) := rfl

@[simp] theorem exec_uncount (m : Metric) (n : Node) :
    (uncount m).exec n = (.ok (), n.uncount m) := rfl

@[simp] theorem exec_uncount_bind (m : Metric) (g : Unit → Procedure β) (n : Node) :
    (uncount m >>= g).exec n = (g ()).exec (n.uncount m) := rfl

@[simp] theorem exec_need_some (a : α) (fault : Fault) (n : Node) :
    (need (some a) fault).exec n = (.ok a, n) := rfl

@[simp] theorem exec_need_none (fault : Fault) (n : Node) :
    (need (none : Option α) fault).exec n = (.error fault, n) := rfl

/-- What becomes of a message that is handed to its transport. -/
def verdict (n : Node) (m : Outbound) : Except Fault Unit :=
  if n.links.accepts m then .ok () else .error (.send (.transportClosed m.transport))

/-- A message is handed over whether its transport accepts it or not. -/
@[simp] theorem exec_emit (m : Outbound) (n : Node) :
    (emit m).exec n = (verdict n m, n.offer m) := by
  unfold emit verdict
  rw [exec_bind]
  change (if n.links.accepts m = true then pure () else
    throw (.send (.transportClosed m.transport)) : Procedure Unit).exec (n.offer m) = _
  split <;> rfl

@[simp] theorem exec_emitOn (l : Leg) (pdu : Octets) (n : Node) :
    (emitOn l pdu).exec n =
      (verdict n (.radio (.toLeg l.gnb l.ids pdu)), n.offer (.radio (.toLeg l.gnb l.ids pdu))) :=
  exec_emit _ n

@[simp] theorem exec_observe (p : Procedure α) (n : Node) :
    (observe p).exec n = (.ok (p.exec n).1, (p.exec n).2) := rfl

@[simp] theorem exec_attempt (p : Procedure α) (n : Node) :
    (attempt p).exec n = (.ok (), (p.exec n).2) := rfl

/-- A handler goes on from the state in which the procedure failed. -/
theorem exec_tryCatch (p : Procedure α) (handler : Fault → Procedure α) (n : Node) :
    (tryCatch p handler).exec n = match p.exec n with
      | (.ok a, n') => (.ok a, n')
      | (.error fault, n') => (handler fault).exec n' := by
  unfold exec
  simp only [tryCatch, tryCatchThe, MonadExceptOf.tryCatch, ExceptT.tryCatch, ExceptT.run, ExceptT.mk,
    StateT.run_bind]
  generalize StateT.run p n = outcome
  obtain ⟨_ | _, _⟩ := outcome <;> rfl

/-! ## Procedures that only read -/

/-- The procedure leaves the state as it is. -/
def Reads (p : Procedure α) : Prop := ∀ n, (p.exec n).2 = n

theorem reads_pure (a : α) : Reads (pure a) := fun _ => rfl

theorem reads_context : Reads context := fun _ => rfl

theorem reads_need (a : Option α) (fault : Fault) : Reads (need a fault) := fun _ => by
  cases a <;> rfl

theorem Reads.exec_bind {p : Procedure α} (reads : Reads p) (f : α → Procedure β) (n : Node) :
    (p >>= f).exec n = match (p.exec n).1 with
      | .ok a => (f a).exec n
      | .error fault => (.error fault, n) := by
  have same := reads n
  rw [Procedure.exec_bind]
  generalize p.exec n = outcome at same ⊢
  obtain ⟨_ | _, m⟩ := outcome <;> subst same <;> rfl

theorem Reads.bind {p : Procedure α} {f : α → Procedure β} (first : Reads p)
    (rest : ∀ a, Reads (f a)) : Reads (p >>= f) := by
  intro n
  rw [first.exec_bind]
  split
  · exact rest _ n
  · rfl

/-- What goes before is read only, so a sequence succeeds if its parts do in the same state. -/
theorem Reads.exec_bind_eq_ok {p : Procedure α} {f : α → Procedure β} {n : Node} {b : β}
    (reads : Reads p) : ((p >>= f).exec n).1 = .ok b ↔
      ∃ a, (p.exec n).1 = .ok a ∧ ((f a).exec n).1 = .ok b := by
  rw [reads.exec_bind]
  cases (p.exec n).1 with
  | error fault => exact ⟨nofun, fun ⟨_, h, _⟩ => nomatch h⟩
  | ok a =>
    refine ⟨fun h => ⟨a, rfl, h⟩, ?_⟩
    rintro ⟨_, h, done⟩
    cases h
    exact done

theorem reads_session (id : Nat) : Reads (session id) :=
  reads_context.bind fun _ => reads_need _ _

theorem reads_ue (id : Nat) : Reads (ue id) := reads_context.bind fun _ => reads_need _ _

theorem reads_legOf (id : Nat) : Reads (legOf id) := reads_context.bind fun _ => reads_need _ _

theorem exec_session_of_some {id : Nat} {n : Node} {s : Session}
    (h : n.context.sessions.get? id = some s) : (session id).exec n = (.ok s, n) := by
  unfold session
  rw [exec_context_bind, h, exec_need_some]

theorem exec_session_of_none {id : Nat} {n : Node} (h : n.context.sessions.get? id = none) :
    (session id).exec n = (.error (.send (.contextGone "Session")), n) := by
  unfold session
  rw [exec_context_bind, h, exec_need_none]

theorem exec_ue_of_some {id : Nat} {n : Node} {u : Ue} (h : n.context.ues.get? id = some u) :
    (ue id).exec n = (.ok u, n) := by
  unfold ue
  rw [exec_context_bind, h, exec_need_some]

theorem exec_ue_of_none {id : Nat} {n : Node} (h : n.context.ues.get? id = none) :
    (ue id).exec n = (.error (.send (.contextGone "UE")), n) := by
  unfold ue
  rw [exec_context_bind, h, exec_need_none]

theorem exec_legOf_of_some {id : Nat} {n : Node} {l : Nat × Leg}
    (h : n.context.legOf? id = some l) : (legOf id).exec n = (.ok l, n) := by
  unfold legOf
  rw [exec_context_bind, h, exec_need_some]

theorem exec_legOf_of_none {id : Nat} {n : Node} (h : n.context.legOf? id = none) :
    (legOf id).exec n = (.error (.send (.noLeg id)), n) := by
  unfold legOf
  rw [exec_context_bind, h, exec_need_none]

theorem exec_need_eq_ok {a : Option α} {fault : Fault} {n : Node} {x : α} :
    ((need a fault).exec n).1 = .ok x ↔ a = some x := by
  cases a <;> simp

theorem exec_session_eq_ok {id : Nat} {n : Node} {s : Session} :
    ((session id).exec n).1 = .ok s ↔ n.context.sessions.get? id = some s := exec_need_eq_ok

theorem exec_ue_eq_ok {id : Nat} {n : Node} {u : Ue} :
    ((ue id).exec n).1 = .ok u ↔ n.context.ues.get? id = some u := exec_need_eq_ok

theorem exec_legOf_eq_ok {id : Nat} {n : Node} {l : Nat × Leg} :
    ((legOf id).exec n).1 = .ok l ↔ n.context.legOf? id = some l := exec_need_eq_ok

/-! ## Procedures that do not depend on the state -/

/-- The procedure leaves the state as it is, and comes to the same in every state. -/
def Constant (p : Procedure α) : Prop := ∃ outcome, ∀ n, p.exec n = (outcome, n)

theorem constant_pure (a : α) : Constant (pure a) := ⟨.ok a, fun _ => rfl⟩

theorem constant_need (a : Option α) (fault : Fault) : Constant (need a fault) := by
  cases a with
  | none => exact ⟨.error fault, fun _ => rfl⟩
  | some a => exact ⟨.ok a, fun _ => rfl⟩

theorem Constant.bind {p : Procedure α} {f : α → Procedure β} (first : Constant p)
    (rest : ∀ a, Constant (f a)) : Constant (p >>= f) := by
  obtain ⟨fault | a, same⟩ := first
  · exact ⟨.error fault, fun n => exec_bind_of_error (same n) f⟩
  · obtain ⟨outcome, same'⟩ := rest a
    exact ⟨outcome, fun n => (exec_bind_of_ok (same n) f).trans (same' n)⟩

theorem Constant.reads {p : Procedure α} (h : Constant p) : Reads p := by
  obtain ⟨outcome, same⟩ := h
  intro n
  rw [same]

theorem Constant.fst_exec {p : Procedure α} (h : Constant p) (n n' : Node) :
    (p.exec n).1 = (p.exec n').1 := by
  obtain ⟨outcome, same⟩ := h
  rw [same, same]

/-! ## What procedures yield -/

section
variable {p : Procedure α} {f : α → Procedure β} {P : α → Prop} {Q : β → Prop}

/-- Whatever the procedure yields has a property. -/
def Yields (p : Procedure α) (P : α → Prop) : Prop := ∀ n a, (p.exec n).1 = .ok a → P a

theorem yields_pure {a : α} (h : P a) : Yields (pure a) P := by
  intro n b is
  cases is
  exact h

theorem yields_throw {fault : Fault} : Yields (throw fault) P := fun _ _ is => nomatch is

theorem yields_bind (rest : ∀ a, Yields (f a) Q) : Yields (p >>= f) Q := by
  intro n b is
  rw [exec_bind] at is
  generalize p.exec n = outcome at is
  obtain ⟨_ | a, m⟩ := outcome
  · cases is
  · exact rest a m b is

theorem Yields.bind (first : Yields p P) (rest : ∀ a, P a → Yields (f a) Q) : Yields (p >>= f) Q := by
  intro n b is
  rw [exec_bind] at is
  have said := first n
  generalize p.exec n = outcome at is said
  obtain ⟨_ | a, m⟩ := outcome
  · cases is
  · exact rest a (said a rfl) m b is

end

/-! ## What procedures keep -/

section
variable {p : Procedure α} {f : α → Procedure β} {P : Node → Prop} {R : α → Prop} {S : β → Prop}

/-- From every state with a property the procedure leads to one with it, also where it fails; and
what it yields has a property of its own. -/
def Preserves (P : Node → Prop) (p : Procedure α) (R : α → Prop) : Prop :=
  ∀ n, P n → P (p.exec n).2 ∧ ∀ a, (p.exec n).1 = .ok a → R a

namespace Preserves

theorem pure {a : α} (h : R a) : Preserves P (Pure.pure a) R := by
  refine fun n holds => ⟨holds, fun b is => ?_⟩
  cases is
  exact h

theorem throw {fault : Fault} : Preserves P (MonadExcept.throw fault : Procedure α) R :=
  fun _ holds => ⟨holds, nofun⟩

theorem bind (first : Preserves P p R) (rest : ∀ a, R a → Preserves P (f a) S) :
    Preserves P (p >>= f) S := by
  intro n holds
  obtain ⟨kept, yields⟩ := first n holds
  rw [exec_bind]
  generalize p.exec n = outcome at kept yields
  obtain ⟨_ | a, m⟩ := outcome
  · exact ⟨kept, nofun⟩
  · exact rest a (yields a rfl) m kept

/-- What is read is as in the state. -/
theorem read (reads : Reads p) (known : ∀ n a, P n → (p.exec n).1 = .ok a → R a) :
    Preserves P p R := by
  intro n holds
  rw [reads n]
  exact ⟨holds, fun a is => known n a holds is⟩

theorem read_bind (reads : Reads p) (rest : ∀ a, Preserves P (f a) S) : Preserves P (p >>= f) S :=
  .bind (.read reads fun _ _ _ _ => trivial) fun a (_ : True) => rest a

theorem need {a : Option α} {fault : Fault} (known : ∀ x, a = some x → R x) :
    Preserves P (Procedure.need a fault) R :=
  .read (reads_need a fault) fun _ x _ is => known x (exec_need_eq_ok.1 is)

theorem change {f : Context → Context} (keeps : ∀ n, P n → P (n.change f)) :
    Preserves P (Procedure.change f) fun _ => True :=
  fun n holds => ⟨keeps n holds, fun _ _ => trivial⟩

theorem count {m : Metric} (keeps : ∀ n, P n → P (n.count m)) :
    Preserves P (Procedure.count m) fun _ => True :=
  fun n holds => ⟨keeps n holds, fun _ _ => trivial⟩

theorem uncount {m : Metric} (keeps : ∀ n, P n → P (n.uncount m)) :
    Preserves P (Procedure.uncount m) fun _ => True :=
  fun n holds => ⟨keeps n holds, fun _ _ => trivial⟩

theorem emit {m : Outbound} (keeps : ∀ n, P n → P (n.offer m)) :
    Preserves P (Procedure.emit m) fun _ => True := by
  intro n holds
  rw [exec_emit]
  exact ⟨keeps n holds, fun _ _ => trivial⟩

theorem observe (h : Preserves P p R) : Preserves P (Procedure.observe p) fun _ => True :=
  fun n holds => ⟨(h n holds).1, fun _ _ => trivial⟩

theorem attempt (h : Preserves P p R) : Preserves P (Procedure.attempt p) fun _ => True :=
  fun n holds => ⟨(h n holds).1, fun _ _ => trivial⟩

theorem tryCatch {handler : Fault → Procedure α} (first : Preserves P p R)
    (handled : ∀ fault, Preserves P (handler fault) R) :
    Preserves P (MonadExcept.tryCatch p handler) R := by
  intro n holds
  obtain ⟨kept, yields⟩ := first n holds
  rw [exec_tryCatch]
  generalize p.exec n = outcome at kept yields
  obtain ⟨fault | a, m⟩ := outcome
  · exact handled fault m kept
  · exact ⟨kept, yields⟩

end Preserves
end

end Procedure
end Amf
