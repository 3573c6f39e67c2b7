import Amf.Proofs.Authorities
import Amf.Proofs.Backed
import Amf.Proofs.Operation

/-!
# Hosts of targets

A URI is refused when it has no host, and the brackets of its host are taken off only after that. The
origin that is read names a host exactly if the host of the URI has one of three forms
(`Uri.NamesHost`). The scan of an authority takes one `[` and one `]` after it, anywhere, so what it lets
through has other forms as well:

| URI | host of the URI | host of the origin |
| --- | --- | --- |
| `http://amf/` | `amf` | `amf` |
| `http://[fd00::1]/` | `[fd00::1]` | `fd00::1` |
| `http://a[@amf]/` | `amf]` | `amf` |
| `http://[]/` | `[]` | |
| `http://a[@]/` | `]` | |
| `http://amf[::1]/` | `amf[` | `amf[` |
| `http://:80/` | | none, the URI is refused |

Whatever becomes a client or a target is read from a URI with a host (`Operation.targets_name_hosts`).
-/

namespace Amf

open Context

/-! ## Hosts of URIs -/

namespace Uri

/-- The host of a URI is the name of one: without brackets, between them, or before a `]` whose `[` is
part of the user information. -/
def NamesHost (u : Uri) : Prop :=
  ∃ name, name ≠ [] ∧ IsBare name ∧
    (u.host = name ∨ u.host = '[' :: (name ++ [']']) ∨ u.host = name ++ [']'])

end Uri

/-! ## Hosts of origins -/

namespace Origin

open Uri

variable {cs : List Char} {text : String} {o : Origin}

/-- The origin names a host: some text without brackets. -/
def NamesHost (o : Origin) : Prop := o.host ≠ "" ∧ IsBare o.host.toList

/-- **A name is left of text exactly if there is nothing around it but brackets.** -/
theorem bare_trimBrackets_iff : trimBrackets cs ≠ [] ∧ IsBare (trimBrackets cs) ↔
    ∃ name, name ≠ [] ∧ IsBare name ∧
      ∃ j k, cs = List.replicate j '[' ++ (name ++ List.replicate k ']') := by
  constructor
  · rintro ⟨filled, bare⟩
    exact ⟨_, filled, bare, exists_trimBrackets cs⟩
  · rintro ⟨name, filled, bare, j, k, rfl⟩
    rw [trimBrackets_of_free bare.1 bare.2]
    exact ⟨filled, bare⟩

/-- **Of the host of a URI a name is left exactly if it is the name of a host.** -/
theorem bare_trimBrackets_host_iff {u : Uri} (is : isAuthority u.authority = true) :
    trimBrackets u.host ≠ [] ∧ IsBare (trimBrackets u.host) ↔ u.NamesHost := by
  rw [bare_trimBrackets_iff]
  refine exists_congr fun name => and_congr_right fun filled => and_congr_right fun bare => ?_
  constructor
  · rintro ⟨j, k, host⟩
    obtain ⟨one, balanced⟩ := count_of_isAuthority is
    have opens : j ≤ 1 := by
      have := (u.host_infix.sublist.count_le '[').trans one
      rw [host, List.count_append, List.count_replicate_self] at this
      omega
    have closes : k ≤ 1 := by
      have := (u.host_infix.sublist.count_le ']').trans (balanced.trans_le one)
      rw [host, List.count_append, List.count_append, List.count_replicate_self] at this
      omega
    obtain rfl | rfl : j = 0 ∨ j = 1 := by omega
    · obtain rfl | rfl : k = 0 ∨ k = 1 := by omega
      · exact .inl (by simpa using host)
      · exact .inr (.inr host)
    · obtain rfl | rfl : k = 0 ∨ k = 1 := by omega
      · have begins : u.host = '[' :: name := by simpa using host
        have closed := mem_host is begins
        rw [begins] at closed
        exact absurd ((List.mem_cons.1 closed).resolve_left (by decide)) bare.2
      · exact .inr (.inl host)
  · rintro (host | host | host)
    · exact ⟨0, 0, by simpa using host⟩
    · exact ⟨1, 1, host⟩
    · exact ⟨0, 1, host⟩

/-- **What a text is refused for**: it is no URI, its scheme is a foreign one, or it has no host. -/
theorem ofUri?_cases (text : String) :
    (Uri.ofText? text = none ∧ ofUri? text = .error (.invalidUri text)) ∨
    ∃ u, Uri.ofText? text = some u ∧
      ((u.scheme ≠ "http" ∧ u.scheme ≠ "https" ∧ ofUri? text = .error (.unsupportedScheme u.scheme)) ∨
        (u.host = [] ∧ ofUri? text = .error (.noHost text)) ∨
        (u.host ≠ [] ∧ ∃ o : Origin, o.host = String.ofList (trimBrackets u.host) ∧ ofUri? text = .ok o)) := by
  cases parsed : Uri.ofText? text with
  | none =>
    refine .inl ⟨rfl, ?_⟩
    unfold ofUri?
    rw [parsed]
  | some u =>
    refine .inr ⟨u, rfl, ?_⟩
    have ofScheme : ∀ scheme : Scheme, u.scheme = scheme.name →
        (u.host = [] ∧ ofUri? text = .error (.noHost text)) ∨
        (u.host ≠ [] ∧ ∃ o : Origin, o.host = String.ofList (trimBrackets u.host) ∧
          ofUri? text = .ok o) := by
      intro scheme is
      rw [ofUri?_of_scheme parsed is]
      by_cases hostless : u.host = []
      · exact .inl ⟨hostless, if_pos (List.isEmpty_iff.2 hostless)⟩
      · exact .inr ⟨hostless, _, rfl, if_neg (mt List.isEmpty_iff.1 hostless)⟩
    by_cases http : u.scheme = "http"
    · exact .inr (ofScheme .http http)
    · by_cases https : u.scheme = "https"
      · exact .inr (ofScheme .https https)
      · refine .inl ⟨http, https, ?_⟩
        unfold ofUri?
        rw [parsed]
        exact (if_neg http).trans (if_neg https)

/-- **An origin is read from a URI with a host, and names a host if the URI does.** -/
theorem exists_of_ofUri? (read : ofUri? text = .ok o) :
    ∃ u, Uri.ofText? text = some u ∧ u.host ≠ [] ∧ (o.NamesHost ↔ u.NamesHost) := by
  obtain ⟨-, refused⟩ | ⟨u, parsed, ⟨-, -, refused⟩ | ⟨-, refused⟩ | ⟨hosted, o', host, accepted⟩⟩ :=
    ofUri?_cases text
  · rw [refused] at read
    cases read
  · rw [refused] at read
    cases read
  · rw [refused] at read
    cases read
  · rw [accepted] at read
    cases read
    refine ⟨u, parsed, hosted, ?_⟩
    rw [← bare_trimBrackets_host_iff (isAuthority_of_ofText? parsed)]
    unfold NamesHost
    rw [host, ne_eq, ← String.toList_eq_nil_iff, String.toList_ofList]

/-- **A URI without a host is refused.** -/
theorem ofUri?_of_hostless (hostless : ∀ u, Uri.ofText? text = some u → u.host = []) :
    ofUri? text = .error (.invalidUri text) ∨ ofUri? text = .error (.noHost text) ∨
      ∃ u, Uri.ofText? text = some u ∧ u.scheme ≠ "http" ∧ u.scheme ≠ "https" ∧
        ofUri? text = .error (.unsupportedScheme u.scheme) := by
  obtain ⟨-, refused⟩ | ⟨u, parsed, ⟨http, https, refused⟩ | ⟨-, refused⟩ | ⟨hosted, -⟩⟩ :=
    ofUri?_cases text
  · exact .inl refused
  · exact .inr (.inr ⟨u, parsed, http, https, refused⟩)
  · exact .inr (.inl refused)
  · exact absurd (hostless u parsed) hosted

end Origin

/-! ## Clients and targets -/

theorem Paging.mem_of_mem_clientsLeft {clients : Clients} {resolved : Option FailureTarget × Bool}
    {client : Client} (mem : client ∈ (clientsLeft clients resolved).entries) :
    client ∈ clients.entries := by
  unfold clientsLeft at mem
  split at mem
  · exact List.mem_of_mem_filter mem
  · exact mem

namespace Context

variable {c c' : Context} {u : Nat}

/-- Every client is towards an origin that is read from some text, and every target that waits is the
one that is read from its URI. -/
structure FromUris (c : Context) : Prop where
  clients : ∀ client ∈ c.clients.entries, ∃ text, Origin.ofUri? text = .ok client.origin
  targets : ∀ u p t, c.parked.get? u = some p → p.target = some t → Origin.ofUri? t.uri = .ok t.client

theorem FromUris.of_fewer (h : c.FromUris)
    (parked : ∀ u p, c'.parked.get? u = some p → c.parked.get? u = some p)
    (clients : c'.clients = c.clients) : c'.FromUris where
  clients := clients ▸ h.clients
  targets u p t waits target := h.targets u p t (parked u p waits) target

theorem FromUris.resolves {uri : Option String} {clients : Clients} {target : Option FailureTarget}
    (h : c.FromUris) (resolved : Paging.Resolves c uri clients target) :
    (∀ client ∈ clients.entries, ∃ text, Origin.ofUri? text = .ok client.origin) ∧
      ∀ t, target = some t → Origin.ofUri? t.uri = .ok t.client := by
  cases resolved with
  | none => exact ⟨h.clients, nofun⟩
  | some origin ensured =>
    refine ⟨fun client mem => ?_, fun t is => by cases is; exact origin⟩
    obtain before | is := Clients.mem_of_ensure ensured mem
    · exact h.clients client before
    · exact ⟨_, is ▸ origin⟩

theorem FromUris.removeUe (h : c.FromUris) : (c.removeUe u).FromUris := by
  cases hx : c.ues.get? u with
  | none => rwa [removeUe_of_none hx]
  | some x =>
    rw [removeUe_of_some hx]
    exact h.of_fewer (fun _ _ waits => Table.get?_of_erase waits) rfl

theorem FromUris.of_names (names : c.Names c') (h : c.FromUris) : c'.FromUris := by
  cases names with
  | nothing => exact h
  | name => exact h.of_fewer (fun _ _ waits => waits) rfl

end Context

theorem LegOperation.clients (o : LegOperation) (c : Context) : (o.apply c).clients = c.clients := by
  cases o with
  | add gnb ranId =>
    refine of_addLeg (P := fun d => d.clients = c.clients) rfl fun _ room => ?_
    rw [(addLeg_eq_some_iff.1 room).2.2]
  | remove leg => exact clients_removeLeg
  | associate u leg => exact clients_associate
  | deassociate u => exact clients_deassociate
  | clear u => exact clients_clearConnection

/-! ## Runs -/

variable {n n' : Node}

theorem Paging.fromUris_park {clients : Clients} {u : Nat} {pdu : Octets} {p : Parked}
    {uri : Option String} (resolved : Resolves n.context uri clients p.target)
    (h : n.context.FromUris) : (n.park clients u pdu p).context.FromUris := by
  obtain ⟨origins, origin⟩ := h.resolves resolved
  refine ⟨origins, fun v q t waits target => ?_⟩
  change (n.context.parked.insert u p).get? v = some q at waits
  rw [Table.get?_insert] at waits
  split at waits
  · cases waits
    exact origin t target
  · exact h.targets v q t waits target

/-- **Every step reads its clients and its targets from URIs.** -/
theorem Step.fromUris {a : Act} (step : Step a n n') (h : n.context.FromUris) :
    n'.context.FromUris := by
  by_cases parks : ∃ u p, a = .park u p
  · obtain ⟨u, p, rfl⟩ := parks
    cases step with
    | park session ue known idle resolved => exact Paging.fromUris_park resolved h
  have other : ∀ u p, a ≠ .park u p := fun u p is => parks ⟨u, p, is⟩
  cases asked : a.isRefused with
  | false => exact h.of_fewer (fun _ _ => step.parked_of_ne other) (step.clients asked other)
  | true =>
    cases step with
    | refusePaging resolved =>
      exact ⟨fun client mem => (h.resolves resolved).1 client (Paging.mem_of_mem_clientsLeft mem),
        h.targets⟩
    | _ => cases asked

theorem Chain.fromUris {A : Act → Prop} (chain : Chain A n n') (h : n.context.FromUris) :
    n'.context.FromUris :=
  chain.keeps (P := fun m => m.context.FromUris) (fun _ _ _ _ step => step.fromUris) h

theorem Node.Begins.fromUris (begins : n.Begins n') (h : n.context.FromUris) : n'.context.FromUris := by
  cases begins with
  | nothing => exact h
  | park _ _ resolves => exact Paging.fromUris_park resolves h
  | answer u =>
    rw [Node.context_answer]
    exact h.of_fewer (fun _ _ waits => Table.get?_of_erase waits) rfl

namespace Operation

/-- **Every operation reads its clients and its targets from URIs.** -/
theorem fromUris (o : Operation) (n : Node) (h : n.context.FromUris) :
    (o.apply n).context.FromUris := by
  cases o with
  | addUe =>
    exact of_addUe (P := FromUris) h (h.of_fewer (fun _ _ waits => waits) rfl)
  | removeUe u => exact h.removeUe
  | setSupi u supi => exact h.of_names names_setSupi
  | setGuti u guti => exact h.of_names names_setGuti
  | addSession u psi =>
    exact of_addSession (P := FromUris) h fun _ _ => h.of_fewer (fun _ _ waits => waits) rfl
  | removeSession id => exact h.of_fewer (fun _ _ => parked_of_removeSession) clients_removeSession
  | onLegs o => exact h.of_fewer (fun _ _ waits => o.same.parked ▸ waits) (o.clients n.context)
  | handle | perform | page | answer =>
    exact of_drives (P := fun m => m.context.FromUris) rfl fun begins chain =>
      chain.fromUris (begins.fromUris h)

/-- **What is accepted as a target is a URI with a host, and names a host exactly if the URI does.** A
URI without a host is refused for it, unless it is refused before as one of a foreign scheme, so in a run
of any operations whatever has become a client, or the target of a transfer that waits, is read from a
URI with a host. -/
theorem targets_name_hosts (text : String) (config : Config) (metrics : Metrics) (links : Links)
    (os : List Operation) :
    let c := (run os { context := config.context, metrics, links }).context
    (∀ o, Origin.ofUri? text = .ok o →
      ∃ u, Uri.ofText? text = some u ∧ u.host ≠ [] ∧ (o.NamesHost ↔ u.NamesHost)) ∧
    ((∀ u, Uri.ofText? text = some u → u.host = []) →
      Origin.ofUri? text = .error (.invalidUri text) ∨ Origin.ofUri? text = .error (.noHost text) ∨
        ∃ u, Uri.ofText? text = some u ∧ u.scheme ≠ "http" ∧ u.scheme ≠ "https" ∧
          Origin.ofUri? text = .error (.unsupportedScheme u.scheme)) ∧
    (∀ client ∈ c.clients.entries, ∃ uri u, Uri.ofText? uri = some u ∧ u.host ≠ [] ∧
      Origin.ofUri? uri = .ok client.origin ∧ (client.origin.NamesHost ↔ u.NamesHost)) ∧
    ∀ v p t, c.parked.get? v = some p → p.target = some t →
      ∃ u, Uri.ofText? t.uri = some u ∧ u.host ≠ [] ∧ Origin.ofUri? t.uri = .ok t.client ∧
        (t.client.NamesHost ↔ u.NamesHost) := by
  intro c
  have start : config.context.FromUris := ⟨nofun, fun _ _ _ waits => nomatch waits⟩
  have h : c.FromUris := run_keeps (P := fun n => n.context.FromUris) fromUris os start
  refine ⟨fun _ => Origin.exists_of_ofUri?, Origin.ofUri?_of_hostless, ?_, ?_⟩
  · intro client mem
    obtain ⟨uri, read⟩ := h.clients client mem
    obtain ⟨u, parsed, hosted, names⟩ := Origin.exists_of_ofUri? read
    exact ⟨uri, u, parsed, hosted, read, names⟩
  · intro v p t waits target
    have read := h.targets v p t waits target
    obtain ⟨u, parsed, hosted, names⟩ := Origin.exists_of_ofUri? read
    exact ⟨u, parsed, hosted, read, names⟩

/-- A target whose host is a pair of brackets is accepted: its transfer waits, and there is a client
towards no host. -/
theorem hostless_target :
    let n := run [addUe, setGuti 1 default, addSession 1 1, page 1 (.release none []) (some "http://[]/")]
      { context := Config.context default }
    Origin.ofUri? "http://[]/" = .ok ⟨.http, "", 80⟩ ∧
      n.context.clients.entries.map (·.origin) = [⟨.http, "", 80⟩] ∧
      (n.context.parked.get? 1).map (·.target) = some (some ⟨"http://[]/", ⟨.http, "", 80⟩⟩) := by
  decide

/-- Another host is what stands before the brackets of an address, with one of them. -/
example : Origin.ofUri? "http://amf[::1]/" = .ok ⟨.http, "amf[", 80⟩ := by decide

end Operation

end Amf
