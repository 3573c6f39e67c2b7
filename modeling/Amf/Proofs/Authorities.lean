import Amf.Net.Origin
import Amf.Proofs.Numerals
import Mathlib.Data.List.TakeWhile

/-!
# Authorities

What the scan of an authority takes, and what is read from one that it has taken. Texts of letters,
digits, `-`, `.` and colons are always taken if the colons are not too many; an IPv6 literal is such a
text, with eight colons at most (`Address.plain_of_v6Groups?`), which is as many as an authority may hold
between its brackets. Whatever is taken has one `[` and one `]` after it, or neither
(`Scan.Tracks.foldlM`).

| of an authority | its lemmas |
| --- | --- |
| names and colons | `foldlM_step_of_plain` |
| names and colons between brackets, and after them | `isAuthority_of_brackets` |
| brackets | `count_of_isAuthority`, `mem_of_isAuthority` |
| the text after the last of a character | `afterLast_append_cons`, `afterLast_suffix` |
| the text through the first of a character | `through_append_cons`, `through_prefix` |
| the host | `host_infix`, `mem_host` |
| the host without its brackets | `trimBrackets_of_free`, `exists_trimBrackets` |
-/

namespace Amf

open Text

/-! ## Pieces -/

namespace Text

variable {c sep : Char} {cs : List Char}

/-- There is one piece more than there are separators. -/
theorem length_pieces : (pieces sep cs).length = cs.count sep + 1 := by
  induction cs with
  | nil => rfl
  | cons d cs ih =>
    unfold pieces
    by_cases is : d = sep
    · rw [if_pos is, is, List.count_cons_self, List.length_cons, ih]
    · rw [if_neg is, List.count_cons_of_ne (by simpa using is), ← ih]
      cases split : pieces sep cs with
      | nil => exact absurd split (pieces_ne_nil sep cs)
      | cons p ps => rfl

/-- A character of a text is the separator or stands in a piece. -/
theorem mem_pieces_of_mem (sep : Char) (mem : c ∈ cs) : c = sep ∨ ∃ p ∈ pieces sep cs, c ∈ p := by
  induction cs with
  | nil => cases mem
  | cons d cs ih =>
    unfold pieces
    by_cases is : d = sep
    · rw [if_pos is]
      rcases List.mem_cons.1 mem with rfl | mem
      · exact .inl is
      · obtain same | ⟨p, there, within⟩ := ih mem
        · exact .inl same
        · exact .inr ⟨p, List.mem_cons_of_mem _ there, within⟩
    · rw [if_neg is]
      cases split : pieces sep cs with
      | nil => exact absurd split (pieces_ne_nil sep cs)
      | cons p ps =>
        rw [split] at ih
        rcases List.mem_cons.1 mem with rfl | mem
        · exact .inr ⟨c :: p, List.mem_cons_self, List.mem_cons_self⟩
        · obtain same | ⟨q, there, within⟩ := ih mem
          · exact .inl same
          · rcases List.mem_cons.1 there with rfl | there
            · exact .inr ⟨d :: q, List.mem_cons_self, List.mem_cons_of_mem _ within⟩
            · exact .inr ⟨q, List.mem_cons_of_mem _ there, within⟩

end Text

/-! ## Characters of hosts -/

namespace Uri

variable {c d : Char} {cs : List Char}

/-- A character of a name: a letter, a digit, `-` or `.`. -/
def isNameChar (c : Char) : Bool := isAlphanumeric c || c == '-' || c == '.'

/-- A text of names and the colons between them. -/
def IsPlain (cs : List Char) : Prop := ∀ c ∈ cs, c = ':' ∨ isNameChar c = true

theorem ne_of_isNameChar (name : isNameChar c = true) (other : isNameChar d = false) : c ≠ d := by
  rintro rfl
  rw [name] at other
  cases other

theorem isAlphanumeric_of_isDigit (digit : isDigit c = true) : isAlphanumeric c = true := by
  unfold isDigit digit? at digit
  split at digit
  · rename_i within
    have decimal : ('0' ≤ c && c ≤ '9') = true := by
      rw [Bool.and_eq_true, decide_eq_true_eq, decide_eq_true_eq]
      exact within
    unfold isAlphanumeric
    rw [decimal, Bool.or_true]
  · cases digit

theorem isAlphanumeric_of_hexDigit? (digit : (hexDigit? c).isSome = true) :
    isAlphanumeric c = true := by
  unfold hexDigit? at digit
  split at digit
  · rename_i within
    have below : c ≤ 'z' := Nat.le_trans within.2 (by decide : 'f'.toNat ≤ 'z'.toNat)
    have lower : ('a' ≤ c && c ≤ 'z') = true := by
      rw [Bool.and_eq_true, decide_eq_true_eq, decide_eq_true_eq]
      exact ⟨within.1, below⟩
    unfold isAlphanumeric
    rw [lower]
    rfl
  · split at digit
    · rename_i within
      have below : c ≤ 'Z' := Nat.le_trans within.2 (by decide : 'F'.toNat ≤ 'Z'.toNat)
      have upper : ('A' ≤ c && c ≤ 'Z') = true := by
        rw [Bool.and_eq_true, decide_eq_true_eq, decide_eq_true_eq]
        exact ⟨within.1, below⟩
      unfold isAlphanumeric
      rw [upper, Bool.or_true]
      rfl
    · exact isAlphanumeric_of_isDigit digit

theorem isNameChar_of_isAlphanumeric (letter : isAlphanumeric c = true) : isNameChar c = true := by
  unfold isNameChar
  rw [letter]
  rfl

end Uri

/-! ## IPv6 literals -/

namespace Address

open Uri

variable {c : Char} {cs p : List Char} {ps : List (List Char)} {v4Tail : Bool} {gs os : List Nat} {g : Nat}

theorem isSome_of_mapM {α β : Type} {f : α → Option β} {xs : List α} {ys : List β}
    (all : xs.mapM f = some ys) : ∀ x ∈ xs, (f x).isSome = true := by
  induction xs generalizing ys with
  | nil => exact nofun
  | cons x xs ih =>
    rw [List.mapM_cons] at all
    obtain ⟨y, first, all⟩ := Option.bind_eq_some_iff.1 all
    obtain ⟨zs, rest, -⟩ := Option.bind_eq_some_iff.1 all
    refine List.forall_mem_cons.2 ⟨?_, ih rest⟩
    rw [first]
    rfl

theorem isNameChar_of_group? (read : group? p = some g) : ∀ c ∈ p, isNameChar c = true := by
  unfold group? readHexadecimal? at read
  split at read
  · obtain ⟨digits, all, -⟩ := Option.map_eq_some_iff.1 read
    intro c mem
    exact isNameChar_of_isAlphanumeric (isAlphanumeric_of_hexDigit? (isSome_of_mapM all c mem))
  · cases read

theorem isNameChar_of_octet? {n : Nat} (read : octet? p = some n) : ∀ c ∈ p, isNameChar c = true := by
  unfold octet? at read
  split at read
  · obtain ⟨digits, -⟩ := Option.filter_eq_some_iff.1 read
    intro c mem
    exact isNameChar_of_isAlphanumeric (isAlphanumeric_of_isDigit (isDigit_of_readDigits? digits mem))
  · cases read

theorem isNameChar_of_v4Octets? (read : v4Octets? p = some os) : ∀ c ∈ p, isNameChar c = true := by
  unfold v4Octets? at read
  simp only at read
  split at read
  · intro c mem
    obtain rfl | ⟨piece, there, within⟩ := mem_pieces_of_mem '.' mem
    · rfl
    · obtain ⟨n, octet⟩ := Option.isSome_iff_exists.1 (isSome_of_mapM read piece there)
      exact isNameChar_of_octet? octet c within
  · cases read

/-- Each piece between colons is one group at least, and holds no sign but the points of an IPv4
literal. -/
theorem groups_of_groups? (read : groups? v4Tail ps = some gs) :
    ps.length ≤ gs.length ∧ ∀ p ∈ ps, ∀ c ∈ p, isNameChar c = true := by
  induction ps generalizing gs with
  | nil => exact ⟨Nat.zero_le _, nofun⟩
  | cons p ps ih =>
    cases ps with
    | nil =>
      simp only [groups?] at read
      split at read
      · rename_i a b c d tail
        obtain rfl := Option.some.inj read
        refine ⟨by simp, List.forall_mem_cons.2 ⟨?_, nofun⟩⟩
        split at tail
        · exact isNameChar_of_v4Octets? tail
        · cases tail
      · obtain ⟨g, group, rfl⟩ := Option.map_eq_some_iff.1 read
        exact ⟨Nat.le_refl _, List.forall_mem_cons.2 ⟨isNameChar_of_group? group, nofun⟩⟩
    | cons q qs =>
      simp only [groups?] at read
      split at read
      · rename_i g gs' group rest
        obtain rfl := Option.some.inj read
        obtain ⟨fewer, names⟩ := ih rest
        refine ⟨by simp only [List.length_cons] at fewer ⊢; omega, ?_⟩
        exact List.forall_mem_cons.2 ⟨isNameChar_of_group? group, names⟩
      · cases read

theorem plain_of_pieces (names : ∀ p ∈ pieces ':' cs, ∀ c ∈ p, isNameChar c = true) : IsPlain cs := by
  intro c mem
  obtain colon | ⟨p, there, within⟩ := mem_pieces_of_mem ':' mem
  · exact .inl colon
  · exact .inr (names p there c within)

/-- One side of a `::` has fewer colons than groups, or neither. -/
theorem plain_of_side? (read : side? v4Tail cs = some gs) :
    cs.count ':' ≤ gs.length - 1 ∧ IsPlain cs := by
  unfold side? at read
  split at read
  · rename_i empty
    rw [List.isEmpty_iff.1 empty]
    exact ⟨Nat.zero_le _, nofun⟩
  · obtain ⟨fewer, names⟩ := groups_of_groups? read
    rw [length_pieces] at fewer
    exact ⟨by omega, plain_of_pieces names⟩

theorem append_of_splitDoubleColon {front back : List Char}
    (split : splitDoubleColon cs = some (front, back)) : cs = front ++ ':' :: ':' :: back := by
  induction cs using splitDoubleColon.induct generalizing front with
  | case1 r =>
    unfold splitDoubleColon at split
    cases split
    rfl
  | case2 c r other ih =>
    rw [splitDoubleColon] at split
    · obtain ⟨⟨a, b⟩, rest, is⟩ := Option.map_eq_some_iff.1 split
      cases is
      rw [ih rest]
      rfl
    · exact other
  | case3 => cases split

/-- **An IPv6 literal is letters, digits and points, and eight colons at most.** -/
theorem plain_of_v6Groups? (read : v6Groups? cs = some gs) : cs.count ':' ≤ maxColons ∧ IsPlain cs := by
  unfold v6Groups? at read
  split at read
  · rename_i front back split
    split at read
    · rename_i f b left right
      split at read
      · rename_i few
        obtain ⟨before, plain⟩ := plain_of_side? left
        obtain ⟨after, plain'⟩ := plain_of_side? right
        rw [append_of_splitDoubleColon split]
        constructor
        · rw [List.count_append, List.count_cons_self, List.count_cons_self]
          show _ ≤ 8
          omega
        · intro c mem
          simp only [List.mem_append, List.mem_cons] at mem
          rcases mem with mem | colon | colon | mem
          · exact plain c mem
          · exact .inl colon
          · exact .inl colon
          · exact plain' c mem
      · cases read
    · cases read
  · obtain ⟨groups, eight⟩ := Option.filter_eq_some_iff.1 read
    rw [decide_eq_true_eq] at eight
    obtain ⟨fewer, names⟩ := groups_of_groups? groups
    rw [length_pieces] at fewer
    refine ⟨?_, plain_of_pieces names⟩
    show _ ≤ 8
    omega

end Address

/-! ## Authorities that are scanned -/

namespace Uri

variable {c d : Char} {cs xs ys : List Char} {s : Scan}

theorem step_of_isNameChar (name : isNameChar c = true) (calm : s.atSign = false) :
    s.step c = some s := by
  have known : (isAlphanumeric c || isAuthorityMark c) = true := by
    unfold isNameChar at name
    rw [Bool.or_eq_true, Bool.or_eq_true, beq_iff_eq, beq_iff_eq] at name
    obtain (letter | rfl) | rfl := name
    · rw [letter, Bool.true_or]
    · rfl
    · rfl
  unfold Scan.step
  rw [if_neg (ne_of_isNameChar name rfl), if_neg (ne_of_isNameChar name rfl),
    if_neg (ne_of_isNameChar name rfl), if_neg (ne_of_isNameChar name rfl),
    if_neg (ne_of_isNameChar name rfl), if_pos known, ← calm]

theorem step_colon (few : s.colons < maxColons) (calm : s.atSign = false) :
    s.step ':' = some { s with colons := s.colons + 1 } := by
  unfold Scan.step
  rw [if_pos rfl, if_pos few, ← calm]

/-- **The scan of names counts the colons between them**, and takes them if there are not too many. -/
theorem foldlM_step_of_plain (plain : IsPlain cs) (calm : s.atSign = false)
    (few : s.colons + cs.count ':' ≤ maxColons) :
    cs.foldlM Scan.step s = some { s with colons := s.colons + cs.count ':' } := by
  induction cs generalizing s with
  | nil => rfl
  | cons c cs ih =>
    obtain ⟨first, rest⟩ := List.forall_mem_cons.1 plain
    rw [List.foldlM_cons]
    by_cases colon : c = ':'
    · subst colon
      rw [List.count_cons_self] at few ⊢
      rw [step_colon (by omega) calm, Option.bind_eq_bind, Option.bind_some,
        ih (s := { s with colons := s.colons + 1 }) rest calm (by simp only; omega),
        Nat.add_comm (cs.count ':'), ← Nat.add_assoc]
    · rw [List.count_cons_of_ne (by simpa using colon)] at few ⊢
      rw [step_of_isNameChar (first.resolve_left colon) calm, Option.bind_eq_bind, Option.bind_some,
        ih rest calm few]

/-- Names with one colon between them at most are an authority. -/
theorem isAuthority_of_plain (filled : cs ≠ []) (plain : IsPlain cs) (few : cs.count ':' ≤ 1) :
    isAuthority cs = true := by
  have scanned : cs.foldlM Scan.step {} = some { colons := 0 + cs.count ':' } :=
    foldlM_step_of_plain plain rfl (by show 0 + _ ≤ 8; omega)
  unfold isAuthority
  rw [scanned, Nat.zero_add]
  cases cs with
  | nil => exact absurd rfl filled
  | cons c cs => simpa [Scan.complete] using few

/-- Names with eight colons at most between brackets, and then names with one colon at most, are an
authority. -/
theorem isAuthority_of_brackets (within : IsPlain xs) (most : xs.count ':' ≤ maxColons)
    (after : IsPlain ys) (few : ys.count ':' ≤ 1) :
    isAuthority ('[' :: (xs ++ ']' :: ys)) = true := by
  have opened : Scan.step {} '[' = some { opened := true } := rfl
  have inner : xs.foldlM Scan.step { opened := true } =
      some { colons := 0 + xs.count ':', opened := true } :=
    foldlM_step_of_plain within rfl (by simpa using most)
  have closed : Scan.step { colons := 0 + xs.count ':', opened := true } ']' =
      some { opened := true, closed := true } := rfl
  have outer : ys.foldlM Scan.step { opened := true, closed := true } =
      some { colons := 0 + ys.count ':', opened := true, closed := true } :=
    foldlM_step_of_plain after rfl (by show 0 + _ ≤ 8; omega)
  have scanned : ('[' :: (xs ++ ']' :: ys)).foldlM Scan.step {} =
      some { colons := 0 + ys.count ':', opened := true, closed := true } := by
    simp only [List.foldlM_cons, List.foldlM_append, opened, inner, closed, outer,
      Option.bind_eq_bind, Option.bind_some]
  unfold isAuthority
  rw [scanned, Nat.zero_add]
  simpa [Scan.complete] using few

/-! ## Brackets of authorities -/

variable {pre rest : List Char} {s' : Scan}

/-- Text without brackets. -/
def IsBare (cs : List Char) : Prop := '[' ∉ cs ∧ ']' ∉ cs

/-- A scan has seen the brackets of a text, none of them closed that was not opened. -/
structure Scan.Tracks (s : Scan) (cs : List Char) : Prop where
  opened : s.opened.toNat = cs.count '['
  closed : s.closed.toNat = cs.count ']'
  ordered : s.closed = true → s.opened = true

/-- A `[` is taken if it is the first one. -/
theorem Scan.of_step_open (took : s.step '[' = some s') :
    s.opened = false ∧ s'.opened = true ∧ s'.closed = s.closed := by
  unfold Scan.step at took
  rw [if_neg (by decide), if_pos rfl] at took
  split at took
  · cases took
  · rename_i first
    cases took
    rw [Bool.or_eq_true, not_or, Bool.not_eq_true, Bool.not_eq_true] at first
    exact ⟨first.2, rfl, rfl⟩

/-- A `]` is taken if it is the first one, and closes a `[`. -/
theorem Scan.of_step_close (took : s.step ']' = some s') :
    s.opened = true ∧ s.closed = false ∧ s'.opened = s.opened ∧ s'.closed = true := by
  unfold Scan.step at took
  rw [if_neg (by decide), if_neg (by decide), if_pos rfl] at took
  split at took
  · rename_i awaited
    cases took
    rw [Bool.and_eq_true, Bool.not_eq_true'] at awaited
    exact ⟨awaited.1, awaited.2, rfl, rfl⟩
  · cases took

/-- Any other character changes nothing about brackets. -/
theorem Scan.of_step_other (opens : c ≠ '[') (closes : c ≠ ']') (took : s.step c = some s') :
    s'.opened = s.opened ∧ s'.closed = s.closed := by
  unfold Scan.step at took
  rw [if_neg opens, if_neg closes] at took
  split at took
  · split at took
    · cases took
      exact ⟨rfl, rfl⟩
    · cases took
  · split at took
    · cases took
      exact ⟨rfl, rfl⟩
    · split at took
      · cases took
        exact ⟨rfl, rfl⟩
      · split at took
        · cases took
          exact ⟨rfl, rfl⟩
        · cases took

theorem count_concat_of_ne (other : c ≠ d) : (cs ++ [c]).count d = cs.count d := by
  rw [List.count_append, List.count_singleton, if_neg (by simpa using other), Nat.add_zero]

theorem count_concat_self : (cs ++ [c]).count c = cs.count c + 1 := by
  rw [List.count_append, List.count_singleton_self]

/-- **One more character is tracked**: a second `[` is not taken, nor a `]` that does not close one. -/
theorem Scan.Tracks.step (h : s.Tracks cs) (took : s.step c = some s') : s'.Tracks (cs ++ [c]) := by
  have before := h.opened
  have before' := h.closed
  by_cases opens : c = '['
  · subst opens
    obtain ⟨first, opened, closed⟩ := Scan.of_step_open took
    rw [first] at before
    refine ⟨?_, ?_, fun _ => opened⟩
    · rw [opened, count_concat_self, ← before]
      rfl
    · rw [closed, count_concat_of_ne (by decide), before']
  by_cases closes : c = ']'
  · subst closes
    obtain ⟨awaited, first, opened, closed⟩ := Scan.of_step_close took
    rw [first] at before'
    refine ⟨?_, ?_, fun _ => opened.trans awaited⟩
    · rw [opened, count_concat_of_ne (by decide), before]
    · rw [closed, count_concat_self, ← before']
      rfl
  · obtain ⟨opened, closed⟩ := Scan.of_step_other opens closes took
    refine ⟨?_, ?_, ?_⟩
    · rw [opened, count_concat_of_ne opens, before]
    · rw [closed, count_concat_of_ne closes, before']
    · rw [opened, closed]
      exact h.ordered

/-- **A scan tracks the brackets of all that it has taken.** -/
theorem Scan.Tracks.foldlM (h : s.Tracks pre) (took : cs.foldlM Scan.step s = some s') :
    s'.Tracks (pre ++ cs) := by
  induction cs generalizing s pre with
  | nil =>
    cases took
    rwa [List.append_nil]
  | cons c cs ih =>
    rw [List.foldlM_cons] at took
    obtain ⟨next, first, took⟩ := Option.bind_eq_some_iff.1 took
    have both := ih (h.step first) took
    rwa [List.append_assoc, List.singleton_append] at both

theorem Scan.tracks_nil : ({} : Scan).Tracks [] := ⟨rfl, rfl, nofun⟩

/-- An authority has a `]` for a `[`, and one of them at most. -/
theorem count_of_isAuthority (is : isAuthority cs = true) :
    cs.count '[' ≤ 1 ∧ cs.count ']' = cs.count '[' := by
  unfold isAuthority at is
  rw [Bool.and_eq_true] at is
  split at is
  · rename_i s scanned
    have tracks : s.Tracks cs := Scan.tracks_nil.foldlM scanned
    have complete := is.2
    simp only [Scan.complete, Bool.and_eq_true, beq_iff_eq] at complete
    rw [← tracks.closed, ← tracks.opened, complete.1.1.1]
    exact ⟨Bool.toNat_le _, rfl⟩
  · cases is.2

/-- **A `[` of an authority is closed by a `]` after it.** -/
theorem mem_of_isAuthority (is : isAuthority (pre ++ '[' :: rest) = true) : ']' ∈ rest := by
  obtain ⟨one, balanced⟩ := count_of_isAuthority is
  simp only [List.count_append, List.count_cons_self, List.count_cons_of_ne (by decide : '[' ≠ ']')]
    at one balanced
  -- Nothing was opened before it, and so nothing was closed either.
  have unclosed : pre.count ']' = 0 := by
    unfold isAuthority at is
    rw [Bool.and_eq_true, List.foldlM_append] at is
    cases scanned : pre.foldlM Scan.step {} with
    | none =>
      rw [scanned] at is
      cases is.2
    | some s =>
      have tracks : s.Tracks pre := Scan.tracks_nil.foldlM scanned
      have unopened : s.opened = false := by
        rw [← Bool.toNat_eq_zero, tracks.opened]
        omega
      rw [← tracks.closed, Bool.toNat_eq_zero, Bool.eq_false_iff]
      intro closed
      rw [tracks.ordered closed] at unopened
      cases unopened
  exact List.count_pos_iff.1 (by omega)

/-! ## Parts of authorities -/

theorem afterLast_of_not_mem (free : c ∉ cs) : afterLast c cs = cs := by
  have all : cs.reverse.takeWhile (· != c) = cs.reverse := by
    rw [List.takeWhile_eq_self_iff]
    intro d mem
    rw [bne_iff_ne]
    rintro rfl
    exact free (List.mem_reverse.1 mem)
  unfold afterLast
  rw [all, List.reverse_reverse]

theorem afterLast_append_cons (free : c ∉ ys) : afterLast c (xs ++ c :: ys) = ys := by
  have all : ∀ d ∈ ys.reverse, (d != c) = true := by
    intro d mem
    rw [bne_iff_ne]
    rintro rfl
    exact free (List.mem_reverse.1 mem)
  unfold afterLast
  rw [List.reverse_append, List.reverse_cons, List.append_assoc, List.takeWhile_append_of_pos all,
    List.singleton_append, List.takeWhile_cons_of_neg (by simp), List.append_nil, List.reverse_reverse]

/-- The last character of a text comes after any other. -/
theorem mem_afterLast (other : d ≠ c) : d ∈ afterLast c (xs ++ [d]) := by
  unfold afterLast
  rw [List.reverse_append, List.reverse_singleton, List.singleton_append,
    List.takeWhile_cons_of_pos (by simpa using other), List.mem_reverse]
  exact List.mem_cons_self

theorem through_append_cons (free : c ∉ xs) : through c (xs ++ c :: ys) = xs ++ [c] := by
  induction xs with
  | nil => exact if_pos rfl
  | cons d xs ih =>
    rw [List.mem_cons, not_or] at free
    rw [List.cons_append, through, if_neg (Ne.symm free.1), ih free.2]
    rfl

theorem afterLast_suffix (c : Char) (cs : List Char) : afterLast c cs <:+ cs := by
  unfold afterLast
  rw [← List.reverse_prefix, List.reverse_reverse]
  exact List.takeWhile_prefix _

theorem through_prefix : through c cs <+: cs := by
  induction cs with
  | nil => exact List.prefix_rfl
  | cons d ds ih =>
    unfold through
    split
    · exact List.prefix_append [d] ds
    · exact List.cons_prefix_cons.2 ⟨rfl, ih⟩

theorem mem_through (mem : c ∈ cs) : c ∈ through c cs := by
  induction cs with
  | nil => cases mem
  | cons d ds ih =>
    unfold through
    split
    · rename_i is
      rw [is]
      exact List.mem_cons_self
    · rename_i other
      exact List.mem_cons_of_mem _ (ih ((List.mem_cons.1 mem).resolve_left (Ne.symm other)))

/-! ## Hosts -/

theorem isAuthority_of_ofText? {text : String} {u : Uri} (parsed : ofText? text = some u) :
    isAuthority u.authority = true := by
  unfold ofText? at parsed
  split at parsed
  · cases parsed
  · split at parsed
    · cases parsed
    · simp only at parsed
      split at parsed
      · rename_i accepted
        cases parsed
        exact (Bool.and_eq_true_iff.1 accepted).1
      · cases parsed

/-- A host begins with `[` and ends with a `]`, or it does not begin with `[`. -/
theorem host_cases (u : Uri) :
    (∃ rest, afterLast '@' u.authority = '[' :: rest ∧ u.host = through ']' ('[' :: rest)) ∨
    ((∀ rest, afterLast '@' u.authority ≠ '[' :: rest) ∧
      u.host = (afterLast '@' u.authority).takeWhile (· != ':')) := by
  unfold host
  simp only
  split
  · rename_i rest begins
    exact .inl ⟨rest, begins, congrArg _ begins⟩
  · rename_i other
    exact .inr ⟨other, rfl⟩

/-- The host is a part of the authority. -/
theorem host_infix (u : Uri) : u.host <:+: u.authority := by
  have part : u.host <+: afterLast '@' u.authority := by
    obtain ⟨rest, begins, is⟩ | ⟨-, is⟩ := u.host_cases
    · rw [is, begins]
      exact through_prefix
    · rw [is]
      exact List.takeWhile_prefix _
  exact part.isInfix.trans (afterLast_suffix _ _).isInfix

/-- **A host that begins with `[` has the `]` that closes it.** -/
theorem mem_host {u : Uri} (is : isAuthority u.authority = true) (begins : u.host = '[' :: rest) :
    ']' ∈ u.host := by
  obtain ⟨after, opens, host⟩ | ⟨other, host⟩ := u.host_cases
  · obtain ⟨before, whole⟩ := afterLast_suffix '@' u.authority
    rw [← whole, opens] at is
    rw [host]
    exact mem_through (List.mem_cons_of_mem _ (mem_of_isAuthority is))
  · -- What the host is taken from begins as the host does.
    obtain ⟨after, whole⟩ := List.takeWhile_prefix (p := (· != ':')) (l := afterLast '@' u.authority)
    rw [← host, begins] at whole
    exact absurd whole.symm (other _)

end Uri

/-! ## Origins that are read -/

namespace Origin

open Uri

variable {xs : List Char}

/-- Text without a character does not begin with it. -/
theorem dropWhile_of_not_mem {c : Char} {cs : List Char} (free : c ∉ cs) :
    cs.dropWhile (· == c) = cs := by
  cases cs with
  | nil => rfl
  | cons d cs =>
    rw [List.mem_cons, not_or] at free
    exact List.dropWhile_cons_of_neg (by simpa using Ne.symm free.1)

/-- What is taken off the beginning of a text is one character over and over. -/
theorem exists_replicate_append_dropWhile (c : Char) (cs : List Char) :
    ∃ j, cs = List.replicate j c ++ cs.dropWhile (· == c) := by
  refine ⟨(cs.takeWhile (· == c)).length, ?_⟩
  have same : cs.takeWhile (· == c) = List.replicate (cs.takeWhile (· == c)).length c :=
    List.eq_replicate_of_mem fun d mem => by simpa using List.mem_takeWhile_imp mem
  rw [← same, List.takeWhile_append_dropWhile]

/-- **Only brackets are taken off.** -/
theorem exists_trimBrackets (cs : List Char) :
    ∃ j k, cs = List.replicate j '[' ++ (trimBrackets cs ++ List.replicate k ']') := by
  obtain ⟨j, front⟩ := exists_replicate_append_dropWhile '[' cs
  obtain ⟨k, back⟩ := exists_replicate_append_dropWhile ']' (cs.dropWhile (· == '[')).reverse
  have turned := congrArg List.reverse back
  rw [List.reverse_reverse, List.reverse_append, List.reverse_replicate] at turned
  exact ⟨j, k, front.trans (congrArg _ turned)⟩

/-- **Brackets are taken off text that has none within.** -/
theorem trimBrackets_of_free (opens : '[' ∉ xs) (closes : ']' ∉ xs) (j k : Nat) :
    trimBrackets (List.replicate j '[' ++ (xs ++ List.replicate k ']')) = xs := by
  have front : '[' ∉ xs ++ List.replicate k ']' := by
    rw [List.mem_append, not_or]
    exact ⟨opens, fun mem => absurd (List.eq_of_mem_replicate mem) (by decide)⟩
  have back : ']' ∉ xs.reverse := fun mem => closes (List.mem_reverse.1 mem)
  unfold trimBrackets
  rw [List.dropWhile_append_of_pos fun c mem => by rw [List.eq_of_mem_replicate mem]; rfl,
    dropWhile_of_not_mem front, List.reverse_append, List.reverse_replicate,
    List.dropWhile_append_of_pos fun c mem => by rw [List.eq_of_mem_replicate mem]; rfl,
    dropWhile_of_not_mem back, List.reverse_reverse]

/-- **What a URI comes to that names a scheme of HTTP.** -/
theorem ofUri?_of_scheme {text : String} {uri : Uri} {scheme : Scheme}
    (parsed : Uri.ofText? text = some uri) (is : uri.scheme = scheme.name) : ofUri? text =
      if uri.host.isEmpty then .error (.noHost text) else
        .ok ⟨scheme, String.ofList (trimBrackets uri.host),
          ((uri.portText?.bind (readUnsigned? UInt16.size)).map UInt16.ofNat).getD scheme.port⟩ := by
  unfold ofUri?
  rw [parsed]
  cases scheme with
  | http => exact if_pos is
  | https =>
    have other : uri.scheme ≠ "http" := by
      rw [is]
      decide
    exact (if_neg other).trans (if_pos is)

end Origin
end Amf
