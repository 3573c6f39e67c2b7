import Amf.Proofs.Authorities

/-!
# URIs on this server

Every URI that this AMF gives out begins with its own server, and whoever reads such a URI comes to the
same scheme, host and port (`Origin.reads_back`). The authority of the server is written in one of four
forms:

| host | port of the scheme | any other port |
| --- | --- | --- |
| name or IPv4 literal | `amf.example.org` | `amf.example.org:8080` |
| IPv6 literal | `[fd00::1]` | `[fd00::1]:8080` |

The last `:` of the authority is taken for the one before a port: in the form without a port for a
literal it stands within the brackets, and what follows it ends in `]` and is no number.
-/

namespace Amf

open Text

/-! ## Servers in URIs -/

namespace Origin

open Uri

variable {o : Origin}

/-- A host that a URI can name: an IPv6 literal, or letters, digits, `-` and `.`, one at least. -/
inductive IsHost : String → Prop
  | literal {host : String} {groups : List Nat} (is : Address.ofLiteral? host = some (.v6 groups)) :
      IsHost host
  | name {host : String} (filled : host ≠ "") (plain : ∀ c ∈ host.toList, isNameChar c = true) :
      IsHost host

/-- The host in a URI. -/
def hostText (o : Origin) : List Char :=
  match Address.ofLiteral? o.host with
  | some (.v6 _) => '[' :: (o.host.toList ++ [']'])
  | _ => o.host.toList

/-- The port in a URI, and the colon before it. -/
def portText (o : Origin) : List Char :=
  if o.port = o.scheme.port then [] else ':' :: Nat.toDigits 10 o.port.toNat

theorem toList_baseUri :
    o.baseUri.toList = o.scheme.name.toList ++ ("://".toList ++ (o.hostText ++ o.portText)) := by
  have port : (if o.port = o.scheme.port then "" else ":" ++ toString o.port.toNat).toList =
      o.portText := by
    unfold portText
    split
    · rfl
    · rw [String.toList_append]
      exact congrArg (':' :: ·) Nat.toList_repr
  unfold baseUri hostText
  simp only [String.toList_append, port, List.append_assoc]
  congr 2
  cases Address.ofLiteral? o.host with
  | none => rfl
  | some address =>
    cases address with
    | v4 octets => rfl
    | v6 groups => simp [String.toList_append]

/-- A host is written between brackets, as a literal, or as it is, as a name. -/
theorem hostText_cases (host : IsHost o.host) :
    (o.hostText = '[' :: (o.host.toList ++ [']']) ∧ IsPlain o.host.toList ∧
      o.host.toList.count ':' ≤ maxColons) ∨
    (o.hostText = o.host.toList ∧ o.host.toList ≠ [] ∧ ∀ c ∈ o.host.toList, isNameChar c = true) := by
  unfold hostText
  split
  · rename_i groups literal
    unfold Address.ofLiteral? at literal
    split at literal
    · cases literal
    · obtain ⟨gs, read, -⟩ := Option.map_eq_some_iff.1 literal
      obtain ⟨few, plain⟩ := Address.plain_of_v6Groups? read
      exact .inl ⟨rfl, plain, few⟩
  · rename_i other
    cases host with
    | literal is => exact absurd is (other _)
    | name filled plain => exact .inr ⟨rfl, by simpa using filled, plain⟩

theorem plain_portText : IsPlain o.portText ∧ o.portText.count ':' ≤ 1 := by
  unfold portText
  split
  · exact ⟨nofun, Nat.zero_le _⟩
  · have names : ∀ c ∈ Nat.toDigits 10 o.port.toNat, isNameChar c = true := fun c mem =>
      isNameChar_of_isAlphanumeric (isAlphanumeric_of_isDigit (isDigit_of_mem_toDigits mem))
    have colonless : (Nat.toDigits 10 o.port.toNat).count ':' = 0 :=
      List.count_eq_zero.2 fun mem => ne_of_isNameChar (names _ mem) rfl rfl
    refine ⟨List.forall_mem_cons.2 ⟨.inl rfl, fun c mem => .inr (names c mem)⟩, ?_⟩
    rw [List.count_cons_self, colonless]

/-- What a host and a port are written in. -/
theorem mem_authority (host : IsHost o.host) {c : Char} (mem : c ∈ o.hostText ++ o.portText) :
    c = '[' ∨ c = ']' ∨ c = ':' ∨ isNameChar c = true := by
  rcases List.mem_append.1 mem with mem | mem
  · obtain ⟨is, plain, -⟩ | ⟨is, -, names⟩ := hostText_cases host
    · rw [is] at mem
      simp only [List.mem_cons, List.mem_append, List.not_mem_nil, or_false] at mem
      rcases mem with opens | mem | closes
      · exact .inl opens
      · exact .inr (.inr (plain c mem))
      · exact .inr (.inl closes)
    · rw [is] at mem
      exact .inr (.inr (.inr (names c mem)))
  · exact .inr (.inr (plain_portText.1 c mem))

theorem ne_of_mem_authority (host : IsHost o.host) {c d : Char} (mem : c ∈ o.hostText ++ o.portText)
    (other : d ≠ '[' ∧ d ≠ ']' ∧ d ≠ ':' ∧ isNameChar d = false) : c ≠ d := by
  rintro rfl
  obtain is | is | is | name := mem_authority host mem
  · exact other.1 is
  · exact other.2.1 is
  · exact other.2.2.1 is
  · exact ne_of_isNameChar name other.2.2.2 rfl

/-- **A server is written as an authority.** -/
theorem isAuthority_hostText_append (host : IsHost o.host) :
    isAuthority (o.hostText ++ o.portText) = true := by
  obtain ⟨after, few⟩ := plain_portText (o := o)
  obtain ⟨is, plain, most⟩ | ⟨is, filled, names⟩ := hostText_cases host
  · rw [is, List.cons_append, List.append_assoc]
    exact isAuthority_of_brackets plain most after few
  · have colonless : o.host.toList.count ':' = 0 :=
      List.count_eq_zero.2 fun mem => ne_of_isNameChar (names _ mem) rfl rfl
    rw [is]
    refine isAuthority_of_plain (List.append_ne_nil_of_left_ne_nil filled _) (fun c mem => ?_) ?_
    · rcases List.mem_append.1 mem with mem | mem
      · exact .inr (names c mem)
      · exact after c mem
    · rw [List.count_append, colonless, Nat.zero_add]
      exact few

/-! ## Servers that are read back -/

theorem splitScheme?_name (scheme : Scheme) (rest : List Char) :
    splitScheme? (scheme.name.toList ++ ("://".toList ++ rest)) = some (scheme.name, rest) := by
  cases scheme <;> rfl

/-- **What is read from the beginning of a URI on this server**, with nothing or a path after it. -/
theorem ofText?_baseUri_append (host : IsHost o.host) {path : String}
    (begins : path = "" ∨ path.toList.head? = some '/') : Uri.ofText? (o.baseUri ++ path) =
      if (o.baseUri ++ path).utf8ByteSize ≤ maxOctets ∧ isPathAndQuery path.toList = true then
        some ⟨o.scheme.name, o.hostText ++ o.portText⟩
      else none := by
  have inside : ∀ c ∈ o.hostText ++ o.portText, (!endsAuthority c) = true := by
    intro c mem
    have slash := ne_of_mem_authority host mem (d := '/') (by decide)
    have query := ne_of_mem_authority host mem (d := '?') (by decide)
    have fragment := ne_of_mem_authority host mem (d := '#') (by decide)
    simp [endsAuthority, slash, query, fragment]
  have outside : path.toList.takeWhile (!endsAuthority ·) = [] ∧
      path.toList.dropWhile (!endsAuthority ·) = path.toList := by
    obtain rfl | slash := begins
    · exact ⟨rfl, rfl⟩
    · obtain ⟨rest, is⟩ := List.head?_eq_some_iff.1 slash
      rw [is]
      exact ⟨rfl, rfl⟩
  have text : (o.baseUri ++ path).toList = o.scheme.name.toList ++
      ("://".toList ++ ((o.hostText ++ o.portText) ++ path.toList)) := by
    rw [String.toList_append, toList_baseUri]
    simp only [List.append_assoc]
  unfold Uri.ofText?
  rw [text, splitScheme?_name]
  simp only [List.takeWhile_append_of_pos inside, List.dropWhile_append_of_pos inside, outside.1,
    outside.2, List.append_nil, isAuthority_hostText_append host, Bool.true_and]
  by_cases fits : (o.baseUri ++ path).utf8ByteSize ≤ maxOctets
  · rw [if_neg (Nat.not_lt.2 fits)]
    simp only [fits, true_and]
  · rw [if_pos (Nat.not_le.1 fits), if_neg fun h => fits h.1]

/-- The host that is read is the one that was written. -/
theorem host_authority (host : IsHost o.host) :
    Uri.host ⟨o.scheme.name, o.hostText ++ o.portText⟩ = o.hostText := by
  have free : '@' ∉ o.hostText ++ o.portText := fun mem =>
    ne_of_mem_authority host mem (d := '@') (by decide) rfl
  have whole : afterLast '@' (o.hostText ++ o.portText) = o.hostText ++ o.portText :=
    afterLast_of_not_mem free
  unfold Uri.host
  simp only [whole]
  obtain ⟨is, plain, -⟩ | ⟨is, filled, names⟩ := hostText_cases host
  · have opened : ']' ∉ '[' :: o.host.toList := by
      rw [List.mem_cons, not_or]
      refine ⟨by decide, fun mem => ?_⟩
      rcases plain _ mem with colon | name
      · cases colon
      · cases name
    rw [is]
    have text : ('[' :: (o.host.toList ++ [']'])) ++ o.portText =
        ('[' :: o.host.toList) ++ ']' :: o.portText := by simp
    exact (congrArg (through ']') text).trans (through_append_cons opened)
  · have inside : ∀ c ∈ o.host.toList, (c != ':') = true := by
      intro c mem
      rw [bne_iff_ne]
      exact ne_of_isNameChar (names c mem) rfl
    have outside : o.portText.takeWhile (· != ':') = [] := by
      unfold portText
      split <;> rfl
    rw [is]
    split
    · rename_i rest begins
      -- A name does not begin with a bracket.
      cases spelled : o.host.toList with
      | nil => exact absurd spelled filled
      | cons c cs =>
        rw [spelled] at begins names
        cases begins
        cases names '[' List.mem_cons_self
    · rw [List.takeWhile_append_of_pos inside, outside, List.append_nil]

theorem trimBrackets_hostText (host : IsHost o.host) : trimBrackets o.hostText = o.host.toList := by
  obtain ⟨is, plain, -⟩ | ⟨is, -, names⟩ := hostText_cases host
  · have free : ∀ d, d ≠ ':' → isNameChar d = false → d ∉ o.host.toList := by
      intro d other unnamed mem
      rcases plain d mem with colon | name
      · exact other colon
      · exact ne_of_isNameChar name unnamed rfl
    rw [is]
    exact trimBrackets_of_free (free '[' (by decide) rfl) (free ']' (by decide) rfl) 1 1
  · have free : ∀ d, isNameChar d = false → d ∉ o.host.toList := fun d unnamed mem =>
      ne_of_isNameChar (names d mem) unnamed rfl
    rw [is]
    have whole := trimBrackets_of_free (free '[' rfl) (free ']' rfl) 0 0
    simpa using whole

/-- The port that is read is the one that was written, or the one of the scheme. -/
theorem port_authority (host : IsHost o.host) :
    let port := (Uri.portText? ⟨o.scheme.name, o.hostText ++ o.portText⟩).bind
      (readUnsigned? UInt16.size)
    (port.map UInt16.ofNat).getD o.scheme.port = o.port := by
  unfold Uri.portText?
  simp only
  by_cases default : o.port = o.scheme.port
  · have portless : o.portText = [] := if_pos default
    rw [portless, List.append_nil]
    split
    · obtain ⟨is, -⟩ | ⟨is, -, names⟩ := hostText_cases host
      · -- What follows the last colon ends in the closing bracket, which is part of no number.
        have last : ']' ∈ afterLast ':' o.hostText := by
          rw [is, ← List.cons_append]
          exact mem_afterLast (by decide)
        have unread : readUnsigned? UInt16.size (afterLast ':' o.hostText) = none := by
          rw [Option.eq_none_iff_forall_ne_some]
          intro n read
          obtain sign | digit := (readUnsigned?_eq_some_iff.1 read).1.isDigit_of_mem last
          · cases sign
          · cases digit
        rw [Option.bind_some, unread]
        exact default.symm
      · rename_i colon
        rw [is, List.contains_iff_mem] at colon
        exact absurd rfl (ne_of_isNameChar (names _ colon) (d := ':') rfl)
    · exact default.symm
  · have digits : o.portText = ':' :: Nat.toDigits 10 o.port.toNat := if_neg default
    have colon : (o.hostText ++ o.portText).contains ':' = true := by
      rw [List.contains_iff_mem, digits]
      exact List.mem_append_right _ List.mem_cons_self
    have free : ':' ∉ Nat.toDigits 10 o.port.toNat := fun mem => by
      cases isDigit_of_mem_toDigits mem
    rw [if_pos colon, digits, afterLast_append_cons free, Option.bind_some,
      readUnsigned?_toDigits o.port.toNat_lt]
    exact UInt16.ofNat_toNat

/-- **Whoever reads a URI on this server comes to this server**, or to nothing. -/
theorem ofUri?_baseUri_append (host : IsHost o.host) {path : String}
    (begins : path = "" ∨ path.toList.head? = some '/') : ofUri? (o.baseUri ++ path) =
      if (o.baseUri ++ path).utf8ByteSize ≤ maxOctets ∧ isPathAndQuery path.toList = true then .ok o
      else .error (.invalidUri (o.baseUri ++ path)) := by
  have filled : o.hostText.isEmpty = false := by
    obtain ⟨is, -⟩ | ⟨is, filled, -⟩ := hostText_cases host
    · rw [is]
      rfl
    · rw [is, List.isEmpty_eq_false_iff]
      exact filled
  by_cases accepted : (o.baseUri ++ path).utf8ByteSize ≤ maxOctets ∧ isPathAndQuery path.toList = true
  · have parsed := ofText?_baseUri_append host begins
    rw [if_pos accepted] at parsed
    rw [ofUri?_of_scheme parsed rfl, if_pos accepted, host_authority host, filled,
      trimBrackets_hostText host, String.ofList_toList, port_authority host]
    rfl
  · unfold ofUri?
    rw [ofText?_baseUri_append host begins, if_neg accepted, if_neg accepted]

/-- **URIs on this server are read back as this server.** For every scheme, host and port: the beginning
of such a URI alone, if it is not too long, and the beginning with a path after it, whenever the whole is
a URI. That it is depends on the length and on the characters of the path alone. -/
theorem reads_back (host : IsHost o.host) :
    (o.baseUri.utf8ByteSize ≤ maxOctets → ofUri? o.baseUri = .ok o) ∧
      ∀ path : String, path.toList.head? = some '/' →
        ((Uri.ofText? (o.baseUri ++ path)).isSome = true → ofUri? (o.baseUri ++ path) = .ok o) ∧
        ((Uri.ofText? (o.baseUri ++ path)).isSome = true ↔
          (o.baseUri ++ path).utf8ByteSize ≤ maxOctets ∧ isPathAndQuery path.toList = true) := by
  constructor
  · intro fits
    have alone := @ofUri?_baseUri_append o host "" (.inl rfl)
    rw [String.append_empty] at alone
    rw [alone, if_pos ⟨fits, rfl⟩]
  · intro path slash
    have accepts : (Uri.ofText? (o.baseUri ++ path)).isSome = true ↔
        (o.baseUri ++ path).utf8ByteSize ≤ maxOctets ∧ isPathAndQuery path.toList = true := by
      rw [ofText?_baseUri_append host (.inr slash)]
      split
      · rename_i accepted
        exact ⟨fun _ => accepted, fun _ => rfl⟩
      · rename_i refused
        exact ⟨nofun, fun accepted => absurd accepted refused⟩
    refine ⟨fun accepted => ?_, accepts⟩
    rw [ofUri?_baseUri_append host (.inr slash), if_pos (accepts.1 accepted)]

/-- The hypothesis is satisfiable: a literal with as many colons as there can be, and the port of the
other scheme. -/
theorem reads_back_colons :
    let o : Origin := ⟨.https, "1:2:3:4:5:6:7::", 80⟩
    IsHost o.host ∧ o.baseUri = "https://[1:2:3:4:5:6:7::]:80" ∧ ofUri? o.baseUri = .ok o ∧
      ofUri? (o.baseUri ++ "/callback?supi=1") = .ok o := by
  intro o
  have literal : Address.ofLiteral? o.host = some (.v6 [1, 2, 3, 4, 5, 6, 7, 0]) := by decide
  have host : IsHost o.host := .literal literal
  obtain ⟨alone, followed⟩ := reads_back host
  obtain ⟨back, accepts⟩ := followed "/callback?supi=1" (by decide)
  exact ⟨host, by decide, alone (by decide), back (accepts.2 (by decide))⟩

end Origin
end Amf
