import Amf.Proofs.Provisioned
import Mathlib.Data.List.Induction

/-!
# The release of sessions

The UE, the radio network and the session management function confirm the release of a session each on
its own. Inputs reach any number of sessions in any order (`Release.run`), and each session goes with
the first of its own inputs after which all three agree, and only then (`Release.run_conjoined`). A
status counts until the next one is reported, so the function may take back that a session is
released as long as one of the other two has not confirmed.

| input | session | parked transfer of its UE | gauge of sessions |
| --- | --- | --- | --- |
| all three agree after it | goes | goes, if it is for the session | one less |
| any other | keeps what was confirmed | as before | as before |
| the session is gone | | as before | as before |
-/

namespace Amf

open Procedure

/-- The status that an input reports. -/
def ReleaseInput.status? : ReleaseInput → Option (Option ResourceStatus)
  | .status s => some s
  | _ => none

/-- All three sides agree on the release of a session after inputs, in order; what the session has
recorded before them counts as well. -/
structure Session.Agreed (s : Session) (is : List ReleaseInput) : Prop where
  n1 : s.n1Released = true ∨ .n1Released ∈ is
  n2 : s.n2Released = true ∨ .n2Released ∈ is
  /-- The status that was reported last. -/
  status : (is.filterMap ReleaseInput.status?).getLast?.getD s.status = some .released

namespace Session

variable {s : Session} {is : List ReleaseInput} {i : ReleaseInput}

/-- The session after inputs, in order. -/
def recordAll (s : Session) (is : List ReleaseInput) : Session := is.foldl record s

theorem recordAll_concat : s.recordAll (is ++ [i]) = (s.recordAll is).record i :=
  List.foldl_append

theorem n1Released_record :
    (s.record i).n1Released = true ↔ s.n1Released = true ∨ i = .n1Released := by
  cases i <;> simp [record]

theorem n2Released_record :
    (s.record i).n2Released = true ↔ s.n2Released = true ∨ i = .n2Released := by
  cases i <;> simp [record]

theorem status_record : (s.record i).status = i.status?.getD s.status := by
  cases i <;> rfl

/-- **What a session has recorded says whether all three sides agree.** -/
theorem fullyReleased_recordAll : (s.recordAll is).fullyReleased = true ↔ s.Agreed is := by
  have recorded : ((s.recordAll is).n1Released = true ↔ s.n1Released = true ∨ .n1Released ∈ is) ∧
      ((s.recordAll is).n2Released = true ↔ s.n2Released = true ∨ .n2Released ∈ is) ∧
      (s.recordAll is).status = (is.filterMap ReleaseInput.status?).getLast?.getD s.status := by
    induction is using List.reverseRecOn with
    | nil => simp [recordAll]
    | append_singleton is i ih =>
      obtain ⟨n1, n2, status⟩ := ih
      rw [recordAll_concat]
      refine ⟨?_, ?_, ?_⟩
      · rw [n1Released_record, n1, List.mem_append, List.mem_singleton, eq_comm (a := i), or_assoc]
      · rw [n2Released_record, n2, List.mem_append, List.mem_singleton, eq_comm (a := i), or_assoc]
      · rw [status_record, status, List.filterMap_append, List.getLast?_append]
        cases i <;> rfl
  obtain ⟨n1, n2, status⟩ := recorded
  unfold fullyReleased
  rw [Bool.and_eq_true, Bool.and_eq_true, beq_iff_eq, n1, n2, status]
  exact ⟨fun h => ⟨h.1.1, h.1.2, h.2⟩, fun h => ⟨⟨h.n1, h.n2⟩, h.status⟩⟩

end Session

namespace Release

/-- Inputs in order, each with the session that it is for. -/
abbrev Inputs := List (Nat × ReleaseInput)

/-- The inputs that are for a session, in order. -/
def own (id : Nat) (is : Inputs) : List ReleaseInput :=
  is.filterMap fun i => if i.1 = id then some i.2 else none

/-- The state after inputs, in order. -/
def run (is : Inputs) (n : Node) : Node := is.foldl (fun n i => ((input i.1 i.2).exec n).2) n

/-- The state of a run before the input of a number. -/
def stateAt (is : Inputs) (n : Node) (k : Nat) : Node := run (is.take k) n

/-- The input of a number is for a session. -/
def Reaches (is : Inputs) (id k : Nat) : Prop := ∃ i, is[k]? = some (id, i)

/-- The input of a number is for a session, and completes its release. -/
def Completes (is : Inputs) (n : Node) (id k : Nat) : Prop :=
  ∃ i, is[k]? = some (id, i) ∧ ((input id i).exec (stateAt is n k)).1 = .ok true

/-- The input of a number is the first of those for a session after which all three sides agree. -/
structure FirstAgreed (s : Session) (is : Inputs) (id k : Nat) : Prop where
  reaches : Reaches is id k
  agreed : s.Agreed (own id (is.take (k + 1)))
  first : ∀ j < k, Reaches is id j → ¬s.Agreed (own id (is.take (j + 1)))

variable {is js : Inputs} {n m : Node} {id j k : Nat} {i : ReleaseInput} {s t : Session}

/-! ## One input -/

theorem exec_input_of_none (gone : n.context.sessions.get? id = none) :
    (input id i).exec n = (.ok false, n) := by
  unfold input
  rw [exec_context_bind, gone]
  rfl

theorem exec_input_of_agreed (there : n.context.sessions.get? id = some s)
    (agreed : (s.record i).fullyReleased = true) :
    (input id i).exec n = (.ok true, (n.change (·.removeSession id)).uncount .sessions) := by
  unfold input
  rw [exec_context_bind, there]
  simp only
  rw [if_pos agreed]
  rfl

theorem exec_input_of_open (there : n.context.sessions.get? id = some s)
    (still : ¬(s.record i).fullyReleased = true) :
    (input id i).exec n = (.ok false, n.change (·.modifySession id (·.record i))) := by
  unfold input
  rw [exec_context_bind, there]
  simp only
  rw [if_neg still]
  rfl

/-- **An input completes a release exactly if the session is there and all three sides agree now.** -/
theorem input_eq_true_iff : ((input id i).exec n).1 = .ok true ↔
    ∃ s, n.context.sessions.get? id = some s ∧ (s.record i).fullyReleased = true := by
  cases there : n.context.sessions.get? id with
  | none =>
    rw [exec_input_of_none there]
    exact ⟨nofun, fun ⟨_, h, _⟩ => nomatch h⟩
  | some s =>
    by_cases agreed : (s.record i).fullyReleased = true
    · rw [exec_input_of_agreed there agreed]
      exact iff_of_true rfl ⟨s, rfl, agreed⟩
    · rw [exec_input_of_open there agreed]
      refine ⟨nofun, fun ⟨_, same, h⟩ => ?_⟩
      cases same
      exact absurd h agreed

/-- What an input leaves of the sessions. -/
theorem get?_input : ((input id i).exec n).2.context.sessions.get? j =
    if j = id then ((n.context.sessions.get? id).map (·.record i)).filter (!·.fullyReleased)
    else n.context.sessions.get? j := by
  cases there : n.context.sessions.get? id with
  | none =>
    rw [exec_input_of_none there]
    split
    · rename_i is
      rw [is, there]
      rfl
    · rfl
  | some s =>
    rw [Option.map_some]
    by_cases agreed : (s.record i).fullyReleased = true
    · rw [exec_input_of_agreed there agreed, Option.filter_some, agreed]
      show (n.context.removeSession id).sessions.get? j = _
      rw [Context.sessions_removeSession, Table.get?_erase]
      rfl
    · rw [exec_input_of_open there agreed, Option.filter_some, Bool.eq_false_iff.2 agreed]
      show (n.context.sessions.modify id _).get? j = _
      rw [Table.get?_modify]
      split
      · rename_i is
        rw [is, there]
        rfl
      · rfl

/-- A session goes, the transfer parked for its UE if it is for the session, and nothing else. -/
structure Removes (id : Nat) (s : Session) (n n' : Node) : Prop where
  sessions : ∀ j, n'.context.sessions.get? j = if j = id then none else n.context.sessions.get? j
  /-- The UE of the session does not list it any more. -/
  ues : n'.context.ues =
    n.context.ues.modify s.ue fun x => { x with sessions := x.sessions.filter (· ≠ id) }
  parked : ∀ u, n'.context.parked.get? u =
    if u = s.ue ∧ ∃ p, n.context.parked.get? u = some p ∧ p.session = id then none
    else n.context.parked.get? u
  gauge : n'.metrics.sessions.toNat = n.metrics.sessions.toNat - 1
  metrics : ∀ metric ≠ .sessions, n'.metrics.get metric = n.metrics.get metric
  rest : n' = { n with
    context := { n.context with
      sessions := n'.context.sessions, ues := n'.context.ues, parked := n'.context.parked }
    metrics := n'.metrics }

/-- At most what a session has recorded of its release changes. -/
structure Records (id : Nat) (n n' : Node) : Prop where
  session : ∃ n1Released n2Released status, n'.context.sessions.get? id =
    (n.context.sessions.get? id).map fun s => { s with n1Released, n2Released, status }
  sessions : ∀ j ≠ id, n'.context.sessions.get? j = n.context.sessions.get? j
  rest : n' = { n with context := { n.context with sessions := n'.context.sessions } }

theorem get?_unpark (parked : Table Parked) (u v id : Nat) : (Context.unpark parked u id).get? v =
    if v = u ∧ ∃ p, parked.get? v = some p ∧ p.session = id then none else parked.get? v := by
  have waits : (parked.get? u).map (·.session) = some id ↔
      ∃ p, parked.get? u = some p ∧ p.session = id := Option.map_eq_some_iff
  unfold Context.unpark
  by_cases here : v = u
  · subst here
    simp only [true_and, ← waits]
    split
    · exact Table.get?_erase_self _ _
    · rfl
  · have other : ¬(v = u ∧ ∃ p, parked.get? v = some p ∧ p.session = id) := fun h => here h.1
    rw [if_neg other]
    split
    · exact Table.get?_erase_of_ne here
    · rfl

/-- **A session that goes takes with it what was parked for it**, and lowers the gauge. -/
theorem removes_of_agreed (there : n.context.sessions.get? id = some s)
    (agreed : (s.record i).fullyReleased = true) : Removes id s n ((input id i).exec n).2 := by
  rw [exec_input_of_agreed there agreed]
  refine ⟨fun j => ?_, ?_, fun u => ?_, Metrics.toNat_lower _, fun metric other => ?_, ?_⟩
  · show (n.context.removeSession id).sessions.get? j = _
    rw [Context.sessions_removeSession, Table.get?_erase]
  · show (n.context.removeSession id).ues = _
    rw [Context.removeSession_of_some there]
  · show (n.context.removeSession id).parked.get? u = _
    rw [Context.removeSession_of_some there]
    exact get?_unpark _ _ _ _
  · exact Metrics.get_set_of_ne _ _ other
  · have same := Context.removeSession_of_some there
    unfold Node.uncount Node.change
    simp only [same]

/-- An input that completes nothing is recorded at most. -/
theorem records_of_ne (incomplete : ((input id i).exec n).1 ≠ .ok true) :
    Records id n ((input id i).exec n).2 := by
  cases there : n.context.sessions.get? id with
  | none =>
    rw [exec_input_of_none there]
    exact ⟨⟨false, false, none, by rw [there]; rfl⟩, fun _ _ => rfl, rfl⟩
  | some s =>
    have still : ¬(s.record i).fullyReleased = true := fun agreed =>
      incomplete (input_eq_true_iff.2 ⟨s, there, agreed⟩)
    rw [exec_input_of_open there still]
    refine ⟨⟨(s.record i).n1Released, (s.record i).n2Released, (s.record i).status, ?_⟩,
      fun j other => Table.get?_modify_of_ne other, rfl⟩
    show (n.context.sessions.modify id _).get? id = _
    rw [Table.get?_modify_self, there, Option.map_some, Option.map_some]
    cases i <;> rfl

/-! ## Runs -/

theorem stateAt_succ {e : Nat × ReleaseInput} (h : is[k]? = some e) :
    stateAt is n (k + 1) = ((input e.1 e.2).exec (stateAt is n k)).2 := by
  unfold stateAt
  rw [List.take_add_one, h]
  exact List.foldl_append

theorem stateAt_succ_of_none (h : is[k]? = none) : stateAt is n (k + 1) = stateAt is n k := by
  unfold stateAt
  rw [List.take_add_one, h]
  exact congrArg (run · n) (List.append_nil _)

theorem own_take_succ (h : is[k]? = some (id, i)) :
    own id (is.take (k + 1)) = own id (is.take k) ++ [i] := by
  unfold own
  rw [List.take_add_one, h, List.filterMap_append]
  simp

theorem own_take_succ_of_not_reaches (h : ¬Reaches is id k) :
    own id (is.take (k + 1)) = own id (is.take k) := by
  unfold own
  rw [List.take_add_one, List.filterMap_append]
  cases at_ : is[k]? with
  | none => simp
  | some e =>
    have other : e.1 ≠ id := by
      rintro rfl
      exact h ⟨e.2, at_⟩
    simp [other]

/-- **A session is still there, with what it has recorded, until all three sides have agreed after one
of its inputs.** -/
theorem get?_stateAt : (stateAt is n k).context.sessions.get? id = some t ↔
    ∃ s, n.context.sessions.get? id = some s ∧ t = s.recordAll (own id (is.take k)) ∧
      ∀ j < k, Reaches is id j → ¬s.Agreed (own id (is.take (j + 1))) := by
  induction k generalizing t with
  | zero =>
    constructor
    · exact fun there => ⟨t, there, rfl, fun j before => absurd before (Nat.not_lt_zero j)⟩
    · rintro ⟨s, there, rfl, -⟩
      exact there
  | succ k ih =>
    by_cases reaches : Reaches is id k
    · obtain ⟨i, at_⟩ := reaches
      rw [stateAt_succ at_, get?_input, if_pos rfl, Option.filter_eq_some_iff, own_take_succ at_]
      simp only [Option.map_eq_some_iff, ih]
      constructor
      · rintro ⟨⟨_, ⟨s, there, rfl, unagreed⟩, rfl⟩, still⟩
        refine ⟨s, there, Session.recordAll_concat.symm, fun j before here => ?_⟩
        obtain before | rfl := Nat.lt_succ_iff_lt_or_eq.1 before
        · exact unagreed j before here
        · rw [own_take_succ at_, ← Session.fullyReleased_recordAll, Session.recordAll_concat]
          simpa using still
      · rintro ⟨s, there, rfl, unagreed⟩
        refine ⟨⟨_, ⟨s, there, rfl, fun j before => unagreed j (Nat.lt_succ_of_lt before)⟩,
          Session.recordAll_concat.symm⟩, ?_⟩
        have still := unagreed k (Nat.lt_succ_self k) ⟨i, at_⟩
        rw [own_take_succ at_, ← Session.fullyReleased_recordAll] at still
        simpa using still
    · have same : (stateAt is n (k + 1)).context.sessions.get? id =
          (stateAt is n k).context.sessions.get? id := by
        cases at_ : is[k]? with
        | none => rw [stateAt_succ_of_none at_]
        | some e =>
          have other : id ≠ e.1 := by
            rintro rfl
            exact reaches ⟨e.2, at_⟩
          rw [stateAt_succ at_, get?_input, if_neg other]
      rw [same, own_take_succ_of_not_reaches reaches, ih]
      refine exists_congr fun s => and_congr_right fun _ => and_congr_right fun _ =>
        ⟨fun unagreed j before here => ?_,
          fun unagreed j before => unagreed j (Nat.lt_succ_of_lt before)⟩
      obtain before | rfl := Nat.lt_succ_iff_lt_or_eq.1 before
      · exact unagreed j before here
      · exact absurd here reaches

/-- **An input completes the release of its session exactly if it is the first after which all three
sides agree.** -/
theorem completes_iff : Completes is n id k ↔
    ∃ s, n.context.sessions.get? id = some s ∧ FirstAgreed s is id k := by
  constructor
  · rintro ⟨i, at_, completes⟩
    obtain ⟨t, there, agreed⟩ := input_eq_true_iff.1 completes
    obtain ⟨s, before, rfl, unagreed⟩ := get?_stateAt.1 there
    refine ⟨s, before, ⟨i, at_⟩, ?_, unagreed⟩
    rw [own_take_succ at_, ← Session.fullyReleased_recordAll, Session.recordAll_concat]
    exact agreed
  · rintro ⟨s, before, ⟨i, at_⟩, agreed, unagreed⟩
    refine ⟨i, at_, input_eq_true_iff.2 ⟨_, get?_stateAt.2 ⟨s, before, rfl, unagreed⟩, ?_⟩⟩
    rw [own_take_succ at_, ← Session.fullyReleased_recordAll, Session.recordAll_concat] at agreed
    exact agreed

/-- Once its release is complete, a session stays away. -/
theorem gone_of_completes (completes : Completes is n id j) (later : j < k) :
    (stateAt is n k).context.sessions.get? id = none := by
  obtain ⟨s, there, first⟩ := completes_iff.1 completes
  rw [Option.eq_none_iff_forall_ne_some]
  intro t stays
  obtain ⟨s', there', -, unagreed⟩ := get?_stateAt.1 stays
  rw [there] at there'
  cases there'
  exact unagreed j later first.reaches first.agreed

/-! ## The inputs of one session -/

/-- The input of a number among those of a session is the first after which all three sides agree. -/
def GoesAt (s : Session) (own : List ReleaseInput) (p : Nat) : Prop :=
  s.Agreed (own.take (p + 1)) ∧ ∀ q < p, ¬s.Agreed (own.take (q + 1))

/-- The inputs of a session before one of them are the first of its inputs. -/
theorem own_take (is : Inputs) (id k : Nat) :
    own id (is.take k) = (own id is).take (own id (is.take k)).length := by
  have split : own id is = own id (is.take k) ++ own id (is.drop k) := by
    unfold own
    rw [← List.filterMap_append, List.take_append_drop]
  conv_rhs => rw [split, List.take_left]

/-- Each input of a session is one of all inputs. -/
theorem exists_of_getElem?_own : ∀ {is : Inputs} {p : Nat}, (own id is)[p]? = some i →
    ∃ k, is[k]? = some (id, i) ∧ (own id (is.take k)).length = p
  | [], _, at_ => nomatch at_
  | e :: is, p, at_ => by
    by_cases here : e.1 = id
    · have cons : own id (e :: is) = e.2 :: own id is := by
        simp [own, here]
      rw [cons] at at_
      cases p with
      | zero =>
        refine ⟨0, ?_, rfl⟩
        cases at_
        rw [← here]
        rfl
      | succ p =>
        have later : (own id is)[p]? = some i := at_
        obtain ⟨k, there, count⟩ := exists_of_getElem?_own later
        refine ⟨k + 1, there, ?_⟩
        rw [← count]
        simp [own, here]
    · have cons : own id (e :: is) = own id is := by
        simp [own, here]
      rw [cons] at at_
      obtain ⟨k, there, count⟩ := exists_of_getElem?_own at_
      refine ⟨k + 1, there, ?_⟩
      rw [← count]
      simp [own, here]

theorem own_take_of_reaches (reaches : Reaches is id k) :
    own id (is.take (k + 1)) = (own id is).take ((own id (is.take k)).length + 1) := by
  obtain ⟨i, at_⟩ := reaches
  have count : (own id (is.take (k + 1))).length = (own id (is.take k)).length + 1 := by
    rw [own_take_succ at_, List.length_append, List.length_singleton]
  rw [own_take is id (k + 1), count]

/-- **When a session goes depends on its own inputs only.** -/
theorem firstAgreed_iff : FirstAgreed s is id k ↔
    Reaches is id k ∧ GoesAt s (own id is) (own id (is.take k)).length := by
  -- The inputs before one of a session are counted by how many of them are for the session.
  have mono : ∀ {a b}, a ≤ b → (own id (is.take a)).length ≤ (own id (is.take b)).length := by
    intro a b le
    refine List.Sublist.length_le (List.Sublist.filterMap _ ?_)
    exact (List.take_prefix_take_left le).sublist
  have strict : ∀ {a b}, Reaches is id a → a < b →
      (own id (is.take a)).length < (own id (is.take b)).length := by
    rintro a b ⟨i, at_⟩ lt
    refine Nat.lt_of_lt_of_le ?_ (mono lt)
    rw [own_take_succ at_, List.length_append, List.length_singleton]
    exact Nat.lt_succ_self _
  constructor
  · intro h
    refine ⟨h.reaches, own_take_of_reaches h.reaches ▸ h.agreed, fun q before agreed => ?_⟩
    have below : q < (own id is).length := by
      refine Nat.lt_of_lt_of_le before (List.Sublist.length_le (List.Sublist.filterMap _ ?_))
      exact List.take_sublist k is
    obtain ⟨j, at_, count⟩ := exists_of_getElem?_own (List.getElem?_eq_getElem below)
    have earlier : j < k := by
      by_contra late
      have := mono (Nat.le_of_not_lt late)
      omega
    refine h.first j earlier ⟨_, at_⟩ ?_
    rw [own_take_of_reaches ⟨_, at_⟩, count]
    exact agreed
  · rintro ⟨reaches, agreed, first⟩
    refine ⟨reaches, own_take_of_reaches reaches ▸ agreed, fun j before here => ?_⟩
    rw [own_take_of_reaches here]
    exact first _ (strict here before)

/-- A session that goes with one of its inputs goes with the same in every run with these inputs. -/
theorem completes_of_own (same : own id js = own id is)
    (session : m.context.sessions.get? id = n.context.sessions.get? id)
    (completes : Completes is n id k) :
    ∃ l, Completes js m id l ∧ own id (js.take (l + 1)) = own id (is.take (k + 1)) := by
  obtain ⟨s, there, first⟩ := completes_iff.1 completes
  obtain ⟨⟨i, at_⟩, goes⟩ := firstAgreed_iff.1 first
  have mine : (own id is)[(own id (is.take k)).length]? = some i := by
    have last : own id (is.take (k + 1)) = _ := own_take_of_reaches ⟨i, at_⟩
    rw [own_take_succ at_] at last
    rw [← List.getElem?_take_of_lt (Nat.lt_succ_self _), ← last, List.getElem?_concat_length]
  obtain ⟨l, there', count⟩ := exists_of_getElem?_own (same ▸ mine)
  refine ⟨l, completes_iff.2 ⟨s, session ▸ there, firstAgreed_iff.2 ⟨⟨i, there'⟩, ?_⟩⟩, ?_⟩
  · rw [count, same]
    exact goes
  · rw [own_take_of_reaches ⟨i, there'⟩, own_take_of_reaches ⟨i, at_⟩, count, same]

/-! ## How sessions are released -/

/-- How a run of inputs releases sessions. -/
structure Conjoined (is : Inputs) (n : Node) : Prop where
  /-- Every input is answered. -/
  answers : ∀ k id i, is[k]? = some (id, i) → ∃ b, ((input id i).exec (stateAt is n k)).1 = .ok b
  /-- A release is completed by the first input to the session after which all three sides agree. -/
  completes : ∀ id k, Completes is n id k ↔
    ∃ s, n.context.sessions.get? id = some s ∧ FirstAgreed s is id k
  once : ∀ id j k, Completes is n id j → Completes is n id k → j = k
  /-- That input removes the session and nothing else. -/
  removes : ∀ id k, Completes is n id k → ∃ s, (stateAt is n k).context.sessions.get? id = some s ∧
    Removes id s (stateAt is n k) (stateAt is n (k + 1))
  /-- Every other input is recorded at most. -/
  records : ∀ id k, Reaches is id k → ¬Completes is n id k →
    Records id (stateAt is n k) (stateAt is n (k + 1))
  /-- Inputs to a session that is gone change nothing. -/
  ignores : ∀ id j k, Completes is n id j → j < k → Reaches is id k →
    stateAt is n (k + 1) = stateAt is n k
  /-- When a session goes depends on its own inputs only. -/
  alone : ∀ js m id k, own id js = own id is →
    m.context.sessions.get? id = n.context.sessions.get? id → Completes is n id k →
      ∃ l, Completes js m id l ∧ own id (js.take (l + 1)) = own id (is.take (k + 1))

/-- **A session is released by the first of its inputs after which all three sides agree**, whatever
inputs reach whichever sessions in whatever order: once or never, without any effect on other
sessions, and at the same of its inputs however they are mixed with those to others. -/
theorem run_conjoined (is : Inputs) (n : Node) : Conjoined is n where
  answers k id i _ := by
    cases there : (stateAt is n k).context.sessions.get? id with
    | none => exact ⟨false, congrArg Prod.fst (exec_input_of_none there)⟩
    | some s =>
      by_cases agreed : (s.record i).fullyReleased = true
      · exact ⟨true, congrArg Prod.fst (exec_input_of_agreed there agreed)⟩
      · exact ⟨false, congrArg Prod.fst (exec_input_of_open there agreed)⟩
  completes _ _ := completes_iff
  once id j k first second := by
    have apart : ∀ {a b}, Completes is n id a → Completes is n id b → ¬a < b := by
      intro a b gone there later
      obtain ⟨i, -, completes⟩ := there
      obtain ⟨s, stays, -⟩ := input_eq_true_iff.1 completes
      rw [gone_of_completes gone later] at stays
      cases stays
    exact Nat.le_antisymm (Nat.le_of_not_lt (apart second first)) (Nat.le_of_not_lt (apart first second))
  removes id k := by
    rintro ⟨i, at_, completes⟩
    obtain ⟨s, there, agreed⟩ := input_eq_true_iff.1 completes
    rw [stateAt_succ at_]
    exact ⟨s, there, removes_of_agreed there agreed⟩
  records id k := by
    rintro ⟨i, at_⟩ incomplete
    rw [stateAt_succ at_]
    exact records_of_ne fun completes => incomplete ⟨i, at_, completes⟩
  ignores id j k := by
    rintro gone later ⟨i, at_⟩
    rw [stateAt_succ at_, exec_input_of_none (gone_of_completes gone later)]
  alone _ _ _ _ := completes_of_own

/-- That a session is released may be taken back until the other two sides have confirmed. -/
example :
    let is : Inputs := [(1, .status (some .released)), (1, .n1Released), (1, .status (some .updated)),
      (1, .n2Released), (1, .status (some .released))]
    (stateAt is { context := .oneSession } 4).context.sessions.contains 1 = true ∧
      (stateAt is { context := .oneSession } 5).context.sessions.contains 1 = false := by
  decide

end Release
end Amf
