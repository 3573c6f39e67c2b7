import Amf.Net.Client
import Mathlib.Data.List.Nodup

/-!
# The registry of clients

What the operations on the clients in use do, each in every case (`Clients.add_cases`,
`Clients.ensureUri_cases`), and what holds in every state that they lead to (`Clients.Kept`).

| operation | in use, room | in use, no room | new, room | new, no room |
| --- | --- | --- | --- | --- |
| `add` | a number is used up | refused | one more | refused |
| `ensureUri` | as before | as before | one more | refused |
| `find` | as before | as before | as before | as before |
| `erase` | one less | one less | as before | as before |

A number is given once: a client with the number of an earlier one *is* the earlier one, and has been in
use all the while (`ClientOperation.registry_sound`).
-/

namespace Amf

namespace Clients

variable {cs cs' : Clients} {o : Origin} {client : Client} {uri : String} {added : Bool} {m : Nat}

/-! ## Clients that are found -/

theorem origin_of_find? (found : cs.find? o = some client) : client.origin = o := by
  simpa using List.find?_some found

/-- A client that is found stays found when others are added behind it. -/
theorem find?_of_append {rest : List Client} (more : cs'.entries = cs.entries ++ rest)
    (found : cs.find? o = some client) : cs'.find? o = some client := by
  unfold find? at found ⊢
  rw [more, List.find?_append, found]
  rfl

/-- A client that is added for an origin without one is found. -/
theorem find?_of_concat (more : cs'.entries = cs.entries ++ [client])
    (absent : cs.find? client.origin = none) : cs'.find? client.origin = some client := by
  unfold find? at absent ⊢
  rw [more, List.find?_append, absent, Option.none_or, List.find?_singleton, if_pos (decide_eq_true rfl)]

/-- A client towards another origin is found as before when those towards one are gone. -/
theorem find?_erase_of_ne {p : Origin} (other : p ≠ o) : (cs.erase o).find? p = cs.find? p := by
  unfold find? erase
  rw [List.find?_filter]
  congr 1
  funext client
  by_cases is : client.origin = p
  · simp [is, other]
  · simp [is]

/-! ## What the operations come to -/

/-- **What adding a client comes to.** Whether there is room is asked first. -/
theorem add_cases (cs : Clients) (o : Origin) :
    (cs.capacity ≤ cs.size ∧ cs.add o = .error (.clientLimit cs.capacity)) ∨
    (cs.size < cs.capacity ∧
      ((∃ client, cs.find? o = some client ∧
          cs.add o = .ok (client, { cs with nextId := cs.nextId + 1 })) ∨
        (cs.find? o = none ∧ ∃ client : Client, client.origin = o ∧ client.id = cs.nextId ∧
          cs.add o = .ok (client,
            { cs with entries := cs.entries ++ [client], nextId := cs.nextId + 1 })))) := by
  unfold add
  by_cases full : cs.capacity ≤ cs.size
  · exact .inl ⟨full, if_pos full⟩
  · refine .inr ⟨Nat.not_le.1 full, ?_⟩
    rw [if_neg full]
    cases found : cs.find? o with
    | some client => exact .inl ⟨client, rfl, rfl⟩
    | none => exact .inr ⟨rfl, _, rfl, rfl, rfl⟩

theorem ensure_of_some (found : cs.find? o = some client) : cs.ensure o = .ok (cs, false) := by
  unfold ensure
  rw [found]

theorem ensure_of_none (absent : cs.find? o = none) :
    cs.ensure o = (cs.add o).map fun r => (r.2, true) := by
  unfold ensure
  rw [absent]

/-- **Whoever asks for a client gets the one in use, or one that is added behind all others.** -/
theorem ensure_cases (ensured : cs.ensure o = .ok (cs', added)) :
    (added = false ∧ cs' = cs ∧ ∃ client, cs.find? o = some client) ∨
    (added = true ∧ cs.find? o = none ∧ ∃ client, client.origin = o ∧
      cs' = { cs with entries := cs.entries ++ [client], nextId := cs.nextId + 1 }) := by
  cases found : cs.find? o with
  | some client =>
    rw [ensure_of_some found] at ensured
    cases ensured
    exact .inl ⟨rfl, rfl, client, rfl⟩
  | none =>
    rw [ensure_of_none found] at ensured
    obtain ⟨-, refused⟩ | ⟨-, ⟨client, there, -⟩ | ⟨-, client, ofOrigin, -, done⟩⟩ := cs.add_cases o
    · rw [refused] at ensured
      cases ensured
    · rw [found] at there
      cases there
    · rw [done] at ensured
      cases ensured
      exact .inr ⟨rfl, rfl, client, ofOrigin, rfl⟩

/-- Clients behind those that were there do no harm to them, and there is one for the origin. -/
theorem append_of_ensure (ensured : cs.ensure o = .ok (cs', added)) :
    (∃ rest, cs'.entries = cs.entries ++ rest) ∧ ∃ client, cs'.find? o = some client := by
  obtain ⟨-, rfl, there⟩ | ⟨-, absent, client, rfl, rfl⟩ := ensure_cases ensured
  · exact ⟨⟨[], (List.append_nil _).symm⟩, there⟩
  · exact ⟨⟨[client], rfl⟩, client, find?_of_concat rfl absent⟩

/-- A client is one that was there, or is towards the origin that was asked for. -/
theorem mem_of_ensure (ensured : cs.ensure o = .ok (cs', added)) (mem : client ∈ cs'.entries) :
    client ∈ cs.entries ∨ client.origin = o := by
  obtain ⟨-, rfl, -⟩ | ⟨-, -, new, ofOrigin, rfl⟩ := ensure_cases ensured
  · exact .inl mem
  · rcases List.mem_append.1 mem with mem | mem
    · exact .inl mem
    · rw [List.mem_singleton.1 mem]
      exact .inr ofOrigin

theorem ensureUri_of_error {e : TargetError} (invalid : Origin.ofUri? uri = .error e) :
    cs.ensureUri uri = .error e := by
  unfold ensureUri
  rw [invalid]

theorem ensureUri_of_ok (valid : Origin.ofUri? uri = .ok o) :
    cs.ensureUri uri = (cs.ensure o).map fun r => (o, r.1) := by
  unfold ensureUri
  rw [valid]

/-- **What asking for the client of a valid URI comes to.** Whether there is one is asked first, and
whether there is room only if there is none. -/
theorem ensureUri_cases (cs : Clients) (valid : Origin.ofUri? uri = .ok o) :
    (∃ client, cs.find? o = some client ∧ cs.ensureUri uri = .ok (o, cs)) ∨
    (cs.find? o = none ∧ cs.size < cs.capacity ∧
      ∃ client : Client, client.origin = o ∧ client.id = cs.nextId ∧ cs.ensureUri uri =
        .ok (o, { cs with entries := cs.entries ++ [client], nextId := cs.nextId + 1 })) ∨
    (cs.find? o = none ∧ cs.capacity ≤ cs.size ∧
      cs.ensureUri uri = .error (.clientLimit cs.capacity)) := by
  rw [ensureUri_of_ok valid]
  cases found : cs.find? o with
  | some client =>
    rw [ensure_of_some found]
    exact .inl ⟨client, rfl, rfl⟩
  | none =>
    rw [ensure_of_none found]
    obtain ⟨full, refused⟩ | ⟨room, ⟨client, there, -⟩ | ⟨-, client, ofOrigin, next, done⟩⟩ :=
      cs.add_cases o
    · rw [refused]
      exact .inr (.inr ⟨rfl, full, rfl⟩)
    · rw [found] at there
      cases there
    · rw [done]
      exact .inr (.inl ⟨rfl, room, client, ofOrigin, next, rfl⟩)

/-- There is a client for a valid URI exactly if it is in use or there is room for it. -/
theorem exists_ensureUri_iff (cs : Clients) (valid : Origin.ofUri? uri = .ok o) :
    (∃ r, cs.ensureUri uri = .ok r) ↔ (∃ client, cs.find? o = some client) ∨ cs.size < cs.capacity := by
  obtain ⟨client, found, done⟩ | ⟨-, room, client, -, -, done⟩ | ⟨absent, full, refused⟩ :=
    cs.ensureUri_cases valid
  · exact iff_of_true ⟨_, done⟩ (.inl ⟨client, found⟩)
  · exact iff_of_true ⟨_, done⟩ (.inr room)
  · refine iff_of_false ?_ ?_
    · rintro ⟨r, done⟩
      rw [refused] at done
      cases done
    · rintro (⟨client, found⟩ | room)
      · rw [absent] at found
        cases found
      · exact absurd full (Nat.not_le.2 room)

/-- **The clients that come with the one of a URI** are those in use, and a new one at most. -/
theorem of_ensureUri {r : Origin × Clients} (valid : Origin.ofUri? uri = .ok o)
    (done : cs.ensureUri uri = .ok r) : r.1 = o ∧ (r.2.find? o).isSome = true ∧
      (r.2.entries = cs.entries ∨
        ∃ client : Client, client.origin = o ∧ r.2.entries = cs.entries ++ [client]) := by
  obtain ⟨client, found, is⟩ | ⟨absent, -, client, rfl, -, is⟩ | ⟨-, -, refused⟩ :=
    cs.ensureUri_cases valid
  · rw [is] at done
    cases done
    exact ⟨rfl, Option.isSome_iff_exists.2 ⟨client, found⟩, .inl rfl⟩
  · rw [is] at done
    cases done
    exact ⟨rfl, Option.isSome_iff_exists.2 ⟨client, find?_of_concat rfl absent⟩, .inr ⟨client, rfl, rfl⟩⟩
  · rw [refused] at done
    cases done

/-- **What there is no client of a URI for**: the URI itself, or want of room. -/
theorem of_ensureUri_error {e : TargetError} (refused : cs.ensureUri uri = .error e) :
    Origin.ofUri? uri = .error e ∨ e = .clientLimit cs.capacity ∧ cs.capacity ≤ cs.size ∧
      ∃ o, Origin.ofUri? uri = .ok o ∧ cs.find? o = none := by
  cases origin : Origin.ofUri? uri with
  | error e' =>
    rw [ensureUri_of_error origin] at refused
    cases refused
    exact .inl rfl
  | ok o =>
    obtain ⟨client, -, is⟩ | ⟨-, -, client, -, -, is⟩ | ⟨absent, full, is⟩ :=
      cs.ensureUri_cases origin
    · rw [is] at refused
      cases refused
    · rw [is] at refused
      cases refused
    · rw [is] at refused
      cases refused
      exact .inr ⟨rfl, full, o, rfl, absent⟩

/-! ## Sound registries -/

/-- What holds of the clients in use, at most `m` of them. -/
structure Kept (m : Nat) (cs : Clients) : Prop where
  capacity : cs.capacity = m
  size : cs.size ≤ m
  /-- Every client is found under its own origin. -/
  stored : ∀ client ∈ cs.entries, cs.find? client.origin = some client
  /-- The numbers are distinct. -/
  distinct : (cs.entries.map (·.id)).Nodup
  /-- A number that was not given yet is new. -/
  fresh : ∀ client ∈ cs.entries, client.id < cs.nextId

theorem kept_empty (m : Nat) : Kept m { capacity := m } := ⟨rfl, Nat.zero_le m, nofun, .nil, nofun⟩

/-- A number may be used up without a client. -/
theorem Kept.skip (h : Kept m cs) : Kept m { cs with nextId := cs.nextId + 1 } where
  capacity := h.capacity
  size := h.size
  stored := h.stored
  distinct := h.distinct
  fresh client mem := Nat.lt_succ_of_lt (h.fresh client mem)

/-- **A client that is new, and for which there is room, is kept with the others.** -/
theorem Kept.concat (h : Kept m cs) (room : cs.size < cs.capacity) (next : client.id = cs.nextId)
    (absent : cs.find? client.origin = none) :
    Kept m { cs with entries := cs.entries ++ [client], nextId := cs.nextId + 1 } where
  capacity := h.capacity
  size := by
    rw [h.capacity] at room
    unfold Clients.size at room ⊢
    rw [List.length_append, List.length_singleton]
    omega
  stored := by
    intro other mem
    rcases List.mem_append.1 mem with mem | mem
    · exact find?_of_append rfl (h.stored other mem)
    · rw [List.mem_singleton.1 mem]
      exact find?_of_concat rfl absent
  distinct := by
    rw [List.map_append, List.map_singleton, List.nodup_append]
    refine ⟨h.distinct, List.nodup_singleton _, ?_⟩
    intro i mem j last
    obtain ⟨other, there, rfl⟩ := List.mem_map.1 mem
    rw [List.mem_singleton.1 last, next]
    exact Nat.ne_of_lt (h.fresh other there)
  fresh := by
    intro other mem
    rcases List.mem_append.1 mem with mem | mem
    · exact Nat.lt_succ_of_lt (h.fresh other mem)
    · rw [List.mem_singleton.1 mem, next]
      exact Nat.lt_succ_self _

theorem Kept.erase (h : Kept m cs) (o : Origin) : Kept m (cs.erase o) where
  capacity := h.capacity
  size := Nat.le_trans (List.length_filter_le _ _) h.size
  stored := by
    intro client mem
    obtain ⟨there, other⟩ := List.mem_filter.1 mem
    rw [find?_erase_of_ne (of_decide_eq_true other)]
    exact h.stored client there
  distinct := h.distinct.sublist (List.filter_sublist.map _)
  fresh client mem := h.fresh client (List.mem_of_mem_filter mem)

/-- A registry that comes after another: no number is given again, so every client in it was there, or has
a number that was not given yet. -/
structure Follows (cs cs' : Clients) : Prop where
  nextId : cs.nextId ≤ cs'.nextId
  entries : ∀ client ∈ cs'.entries, client ∈ cs.entries ∨ cs.nextId ≤ client.id

theorem Follows.refl : Follows cs cs := ⟨Nat.le_refl _, fun _ => .inl⟩

theorem Follows.trans {cs₁ cs₂ cs₃ : Clients} (first : Follows cs₁ cs₂) (second : Follows cs₂ cs₃) :
    Follows cs₁ cs₃ := by
  refine ⟨Nat.le_trans first.nextId second.nextId, fun client mem => ?_⟩
  obtain before | new := second.entries client mem
  · exact first.entries client before
  · exact .inr (Nat.le_trans first.nextId new)

/-- A client whose number was given before was there before. -/
theorem Follows.mem (h : Follows cs cs') (mem : client ∈ cs'.entries) (given : client.id < cs.nextId) :
    client ∈ cs.entries :=
  (h.entries client mem).resolve_right (Nat.not_le.2 given)

theorem Kept.eq_of_id (h : Kept m cs) {other : Client} (mem : client ∈ cs.entries)
    (mem' : other ∈ cs.entries) (same : other.id = client.id) : other = client :=
  List.inj_on_of_nodup_map h.distinct mem' mem same

end Clients

/-! ## Operations -/

open Clients

/-- An operation on the clients in use. -/
inductive ClientOperation where
  | add (o : Origin)
  | find (o : Origin)
  | ensureUri (uri : String)
  | erase (o : Origin)

namespace ClientOperation

variable {cs cs' : Clients} {o : ClientOperation} {os : List ClientOperation} {m i k : Nat}

/-- The clients that come with an answer, or those that were there before it when it is an error. -/
def after {α : Type} (cs : Clients) : Except TargetError (α × Clients) → Clients
  | .ok (_, cs') => cs'
  | .error _ => cs

/-- The clients after an operation. -/
def apply : ClientOperation → Clients → Clients
  | add o, cs => after cs (cs.add o)
  | find _, cs => cs
  | ensureUri uri, cs => after cs (cs.ensureUri uri)
  | erase o, cs => cs.erase o

/-- The clients before the operation of a number. -/
def stateAt (os : List ClientOperation) (cs : Clients) (k : Nat) : Clients :=
  (os.take k).foldl (fun cs o => o.apply cs) cs

theorem stateAt_succ (h : os[k]? = some o) : stateAt os cs (k + 1) = o.apply (stateAt os cs k) := by
  unfold stateAt
  rw [List.take_add_one, h]
  exact List.foldl_append

theorem stateAt_succ_of_none (h : os[k]? = none) : stateAt os cs (k + 1) = stateAt os cs k := by
  unfold stateAt
  rw [List.take_add_one, h]
  exact congrArg (List.foldl _ cs) (List.append_nil _)

/-- What an operation can do. -/
inductive Moves (cs : Clients) : Clients → Prop
  | nothing : Moves cs cs
  | skip : Moves cs { cs with nextId := cs.nextId + 1 }
  | concat {client : Client} (room : cs.size < cs.capacity) (next : client.id = cs.nextId)
      (absent : cs.find? client.origin = none) :
      Moves cs { cs with entries := cs.entries ++ [client], nextId := cs.nextId + 1 }
  | erase (o : Origin) : Moves cs (cs.erase o)

/-- **An operation does one of four things.** -/
theorem moves (o : ClientOperation) (cs : Clients) : Moves cs (o.apply cs) := by
  cases o with
  | add o =>
    show Moves cs (after cs (cs.add o))
    obtain ⟨-, refused⟩ | ⟨room, ⟨client, -, done⟩ | ⟨absent, client, rfl, next, done⟩⟩ := cs.add_cases o
    · rw [refused]
      exact .nothing
    · rw [done]
      exact .skip
    · rw [done]
      exact .concat room next absent
  | find o => exact .nothing
  | ensureUri uri =>
    show Moves cs (after cs (cs.ensureUri uri))
    cases origin : Origin.ofUri? uri with
    | error e =>
      rw [ensureUri_of_error origin]
      exact .nothing
    | ok o =>
      obtain ⟨client, -, done⟩ | ⟨absent, room, client, rfl, next, done⟩ | ⟨-, -, refused⟩ :=
        cs.ensureUri_cases origin
      · rw [done]
        exact .nothing
      · rw [done]
        exact .concat room next absent
      · rw [refused]
        exact .nothing
  | erase o => exact .erase o

theorem Moves.kept (moves : Moves cs cs') (h : Kept m cs) : Kept m cs' := by
  cases moves with
  | nothing => exact h
  | skip => exact h.skip
  | concat room next absent => exact h.concat room next absent
  | erase o => exact h.erase o

theorem Moves.follows (moves : Moves cs cs') : Follows cs cs' := by
  cases moves with
  | nothing => exact .refl
  | skip => exact ⟨Nat.le_succ _, fun _ => .inl⟩
  | concat room next absent =>
    refine ⟨Nat.le_succ _, fun client mem => ?_⟩
    rcases List.mem_append.1 mem with mem | mem
    · exact .inl mem
    · rw [List.mem_singleton.1 mem, next]
      exact .inr (Nat.le_refl _)
  | erase o => exact ⟨Nat.le_refl _, fun _ mem => .inl (List.mem_of_mem_filter mem)⟩

/-! ## Runs -/

/-- One operation of a run, or none at its end, does one of four things. -/
theorem moves_stateAt (os : List ClientOperation) (cs : Clients) (k : Nat) :
    Moves (stateAt os cs k) (stateAt os cs (k + 1)) := by
  cases at_ : os[k]? with
  | none =>
    rw [stateAt_succ_of_none at_]
    exact .nothing
  | some o =>
    rw [stateAt_succ at_]
    exact o.moves _

theorem kept_stateAt (os : List ClientOperation) (m k : Nat) :
    Kept m (stateAt os { capacity := m } k) := by
  induction k with
  | zero => exact kept_empty m
  | succ k ih => exact (moves_stateAt os _ k).kept ih

theorem follows_stateAt (os : List ClientOperation) (cs : Clients) (later : i ≤ k) :
    Follows (stateAt os cs i) (stateAt os cs k) := by
  induction later with
  | refl => exact .refl
  | step later ih => exact ih.trans (moves_stateAt os cs _).follows

/-- **The registry of clients is sound in every run.** After any operations, of which each may be refused,
on a registry for `m` clients:

* there are `m` clients at most, each under its own origin, and what is found for an origin is towards it;
* the numbers are distinct, and a number names one client in the whole run: whoever has it later is the
  one that had it before, and was in use all the while, so the number of one that is gone stays unused;
* asking for the client of a valid URI succeeds exactly if there is one or there is room, and leaves the
  others as they were, with at most a new one towards the origin behind them;
* it fails for what the URI is refused for, or for want of room, and then leaves everything as it was. -/
theorem registry_sound (m : Nat) (os : List ClientOperation) :
    let cs := stateAt os { capacity := m }
    (∀ k, (cs k).size ≤ m ∧ ((cs k).entries.map (·.id)).Nodup ∧
      (∀ client ∈ (cs k).entries, (cs k).find? client.origin = some client) ∧
      ∀ o client, (cs k).find? o = some client → client ∈ (cs k).entries ∧ client.origin = o) ∧
    (∀ i k, i ≤ k → ∀ client ∈ (cs i).entries, ∀ other ∈ (cs k).entries, other.id = client.id →
      other = client ∧ ∀ j, i ≤ j → j ≤ k → client ∈ (cs j).entries) ∧
    (∀ k uri o, Origin.ofUri? uri = .ok o →
      ((∃ r, (cs k).ensureUri uri = .ok r) ↔
        (∃ client, (cs k).find? o = some client) ∨ (cs k).size < m) ∧
      ∀ r, (cs k).ensureUri uri = .ok r → r.1 = o ∧ (r.2.find? o).isSome = true ∧
        (r.2.entries = (cs k).entries ∨
          ∃ client : Client, client.origin = o ∧ r.2.entries = (cs k).entries ++ [client])) ∧
    ∀ k uri e, (cs k).ensureUri uri = .error e →
      (ensureUri uri).apply (cs k) = cs k ∧
        (Origin.ofUri? uri = .error e ∨ e = .clientLimit m ∧ (cs k).size = m ∧
          ∃ o, Origin.ofUri? uri = .ok o ∧ (cs k).find? o = none) := by
  intro cs
  have kept : ∀ k, Kept m (cs k) := kept_stateAt os m
  refine ⟨fun k => ?sound, ?ids, fun k uri o valid => ?ensured, fun k uri e refused => ?failed⟩
  case sound =>
    refine ⟨(kept k).size, (kept k).distinct, (kept k).stored, fun o client found => ?_⟩
    exact ⟨List.mem_of_find?_eq_some found, origin_of_find? found⟩
  case ids =>
    intro i k later client mem other mem' same
    have given : client.id < (cs i).nextId := (kept i).fresh client mem
    have earlier := (follows_stateAt os _ later).mem mem' (same ▸ given)
    obtain rfl := (kept i).eq_of_id mem earlier same
    refine ⟨rfl, fun j afterwards before => ?_⟩
    have growing := (follows_stateAt os { capacity := m } afterwards).nextId
    exact (follows_stateAt os _ before).mem mem' (Nat.lt_of_lt_of_le given growing)
  case ensured =>
    have accepted := (cs k).exists_ensureUri_iff valid
    rw [(kept k).capacity] at accepted
    exact ⟨accepted, fun r done => of_ensureUri valid done⟩
  case failed =>
    refine ⟨congrArg (after (cs k)) refused, ?_⟩
    obtain invalid | ⟨limit, full, origin⟩ := of_ensureUri_error refused
    · exact .inl invalid
    · rw [(kept k).capacity] at limit full
      exact .inr ⟨limit, Nat.le_antisymm (kept k).size full, origin⟩

/-- A number is not given again, and a client that is there is found where there is no room for one. -/
example :
    let cs := stateAt [.ensureUri "http://a", .ensureUri "http://b", .ensureUri "http://a/n",
      .erase ⟨.http, "a", 80⟩, .ensureUri "http://b"] { capacity := 1 }
    (cs 3).entries.map (·.id) = [1] ∧ (cs 5).entries.map (·.id) = [2] := by decide

end ClientOperation
end Amf
