import Amf.Proofs.Procedures
import Amf.Proofs.Provisioned
import Amf.Proofs.Registry

/-!
# Pagings that fail

A paging that fails leaves everything as it was, whatever it fails for (`Paging.start_atomic`). It can
fail in six places (`Paging.Fails`), and only the last of them is behind a change:

| what is in the way | clients when it fails |
| --- | --- |
| no such session, no UE, no temporary identity | not asked for one |
| the URI names no server | not asked for one |
| no room for one more client | as they were |
| the paging message is refused | perhaps one more, which goes again |

A client that was added is behind all others (`Clients.ensure_cases`), and there was none towards its
server before, so that taking it away leaves the others as they were. The number that it got is used up.
-/

namespace Amf

open Context Procedure

/-! ## Clients -/

namespace Clients

variable {cs cs' : Clients} {o : Origin} {added : Bool}

/-- **A client that was added is taken away again without a trace but its number**, and one that was in
use is kept. -/
theorem clientsLeft_eq {uri : String} (ensured : cs.ensure o = .ok (cs', added)) :
    ∃ nextId, Paging.clientsLeft cs' (some ⟨uri, o⟩, added) = { cs with nextId } := by
  obtain ⟨rfl, rfl, -⟩ | ⟨rfl, absent, client, ofOrigin, rfl⟩ := ensure_cases ensured
  · exact ⟨cs'.nextId, rfl⟩
  · have others : (cs.entries ++ [client]).filter (·.origin ≠ o) = cs.entries := by
      rw [List.filter_append, List.filter_cons_of_neg (by simp [ofOrigin]), List.filter_nil,
        List.append_nil, List.filter_eq_self]
      intro other mem
      have none := List.find?_eq_none.1 absent other mem
      simpa using none
    refine ⟨cs.nextId + 1, ?_⟩
    show { cs with entries := (cs.entries ++ [client]).filter _, nextId := _ } = _
    rw [others]

end Clients

/-! ## What is in the way of a paging -/

namespace Paging

variable {n n' : Node}

/-- The target of a URI, once its client is given up again if it is new, leaves the clients as they
were. -/
theorem clientsLeft_of_resolve {uri : Option String} {resolved : Option FailureTarget × Bool}
    (done : (resolve uri).exec n = (.ok resolved, n')) :
    ∃ nextId, clientsLeft n'.context.clients resolved = { n.context.clients with nextId } := by
  unfold resolve at done
  cases uri with
  | none =>
    cases done
    exact ⟨n.context.clients.nextId, rfl⟩
  | some uri =>
    simp only at done
    split at done
    · cases done
    · rw [exec_context_bind] at done
      split at done
      · cases done
      · rename_i ensured
        cases done
        exact Clients.clientsLeft_eq ensured

/-- What a paging for a session with a URI fails for, with its fault and the state after it. -/
inductive Fails (n : Node) (id : Nat) (uri : Option String) : Fault → Node → Prop
  /-- There is no such session. -/
  | noSession (unknown : n.context.sessions.get? id = none) :
      Fails n id uri (.send (.contextGone "Session")) n
  /-- There is no UE of the session. -/
  | noUe {s : Session} (session : n.context.sessions.get? id = some s)
      (unknown : n.context.ues.get? s.ue = none) :
      Fails n id uri (.send (.contextGone "UE")) n
  /-- The UE has no identity to be paged with. -/
  | noGuti {s : Session} {u : Ue} (session : n.context.sessions.get? id = some s)
      (ue : n.context.ues.get? s.ue = some u) (unknown : u.guti = none) :
      Fails n id uri (.send (.notBuilt "Paging")) n
  /-- The URI names no server. -/
  | noOrigin {text : String} {e : TargetError} (given : uri = some text)
      (invalid : Origin.ofUri? text = .error e) : Fails n id uri (.target e) n
  /-- The server is not known yet, and there is no room for one more client. -/
  | noRoom {text : String} {o : Origin} {e : TargetError} (given : uri = some text)
      (origin : Origin.ofUri? text = .ok o) (full : n.context.clients.ensure o = .error e) :
      Fails n id uri (.target e) n
  /-- The paging message is refused, and the number of a client may be used up. -/
  | refused {s : Session} {u : Ue} {guti : Guti} {clients : Clients}
      (session : n.context.sessions.get? id = some s) (ue : n.context.ues.get? s.ue = some u)
      (known : u.guti = some guti)
      (no : n.links.accepts
        (.radio (.paging s.ue (Ngap.Paging.octets { guti, tai := u.tai }))) = false)
      (left : ∃ nextId, clients = { n.context.clients with nextId }) :
      Fails n id uri (.send (.transportClosed "NGAP"))
        ((n.offer (.radio (.paging s.ue (Ngap.Paging.octets { guti, tai := u.tai })))).change
          (·.withClients clients))

/-- A target that cannot be resolved leaves no trace. -/
theorem resolve_of_error {uri : Option String} {id : Nat} {fault : Fault}
    (failed : (resolve uri).exec n = (.error fault, n')) : Fails n id uri fault n' := by
  unfold resolve at failed
  cases uri with
  | none => cases failed
  | some text =>
    simp only at failed
    split at failed
    · rename_i invalid
      cases failed
      exact .noOrigin rfl invalid
    · rename_i origin
      rw [exec_context_bind] at failed
      split at failed
      · rename_i full
        cases failed
        exact .noRoom rfl origin full
      · cases failed

/-- **What a paging that fails has failed for.** -/
theorem start_fails {id : Nat} {payload : Payload} {uri : Option String} {fault : Fault}
    (failed : ((start id payload uri).exec n).1 = .error fault) :
    Fails n id uri fault ((start id payload uri).exec n).2 := by
  revert failed
  unfold start
  cases session : n.context.sessions.get? id with
  | none =>
    rw [exec_bind_of_error (exec_session_of_none session)]
    rintro ⟨⟩
    exact .noSession session
  | some s =>
    rw [exec_bind_of_ok (exec_session_of_some session)]
    cases found : n.context.ues.get? s.ue with
    | none =>
      rw [exec_bind_of_error (exec_ue_of_none found)]
      rintro ⟨⟩
      exact .noUe session found
    | some u =>
      rw [exec_bind_of_ok (exec_ue_of_some found)]
      cases known : u.guti with
      | none =>
        rw [exec_bind_of_error (exec_need_none _ n)]
        rintro ⟨⟩
        exact .noGuti session found known
      | some guti =>
        rw [exec_bind_of_ok (exec_need_some guti _ n)]
        obtain ⟨reason, unresolved⟩ | ⟨clients, target, added, done, -⟩ := resolve_cases uri n
        · rw [exec_bind_of_error unresolved]
          rintro ⟨⟩
          exact resolve_of_error unresolved
        · have left := clientsLeft_of_resolve done
          rw [exec_bind_of_ok done, exec_context_bind, exec_bind, exec_tryCatch, exec_emit]
          unfold verdict
          by_cases accepted : (n.change (·.withClients clients)).links.accepts
              (.radio (.paging s.ue (Ngap.Paging.octets { guti, tai := u.tai })))
          · rw [if_pos accepted]
            exact nofun
          · rw [if_neg accepted]
            simp only [exec_change_bind, exec_throw, forget_eq]
            rintro ⟨⟩
            exact .refused session found known (Bool.eq_false_iff.2 accepted) left

namespace Fails

variable {id : Nat} {uri : Option String} {fault : Fault}

theorem exists_context_eq (h : Fails n id uri fault n') :
    ∃ nextId, n'.context = n.context.withClients { n.context.clients with nextId } := by
  cases h with
  | refused _ _ _ _ left =>
    obtain ⟨nextId, rfl⟩ := left
    exact ⟨nextId, rfl⟩
  | _ => exact ⟨n.context.clients.nextId, rfl⟩

theorem metrics (h : Fails n id uri fault n') : n'.metrics = n.metrics := by
  cases h <;> rfl

theorem sent (h : Fails n id uri fault n') : n'.links.sent = n.links.sent := by
  cases h with
  | refused _ _ _ no _ => exact Links.sent_offer_of_refused no
  | _ => rfl

end Fails

/-- **A paging that fails changes nothing but the number of the next client.** Whatever it fails for:
the UEs, the sessions, the legs, what is parked, the timers, the clients, the metrics and what has been
sent are as before. -/
theorem start_atomic {id : Nat} {payload : Payload} {uri : Option String} {fault : Fault}
    (failed : ((start id payload uri).exec n).1 = .error fault) :
    let n' := ((start id payload uri).exec n).2
    (∃ nextId, n'.context = { n.context with clients := { n.context.clients with nextId } }) ∧
      n'.metrics = n.metrics ∧ n'.links.sent = n.links.sent := by
  have fails := start_fails failed
  exact ⟨fails.exists_context_eq, fails.metrics, fails.sent⟩

/-- The hypothesis is satisfiable: the radio network refuses the paging message, after a client towards
the server of the URI has been added. -/
theorem start_atomic_refused :
    let n : Node := { context := .oneSession, links := { radioAccepts := fun _ => false } }
    let result := (start 1 (.release none [3]) (some "http://10.0.0.7/releases")).exec n
    result.1 = .error (.send (.transportClosed "NGAP")) ∧
      ∃ nextId, result.2.context =
        { n.context with clients := { n.context.clients with nextId } } := by
  intro n result
  have failed : result.1 = .error (.send (.transportClosed "NGAP")) := by rfl
  exact ⟨failed, (start_atomic failed).1⟩

end Paging
end Amf
