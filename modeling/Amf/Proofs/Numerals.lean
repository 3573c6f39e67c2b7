import Amf.Text.Numeral
import Mathlib.Data.List.Basic
import Mathlib.Data.Nat.Digits.Defs

/-!
# Numerals that are read and written

What a reader of numerals accepts, said without the reader, and that a number is read back from the
digits that it is written in:

| reader | accepts exactly | reads back |
| --- | --- | --- |
| `readDigits?` | decimal digits, one at least | `readDigits?_toDigits` |
| `readUnsigned?` | an `IsNumeral` below the bound | `readUnsigned?_toDigits` |
| `readHexadecimal?` | | `readHexadecimal?_hexadecimal`, with zeros in front `readHexadecimal?_zeroFill` |
-/

namespace Amf

namespace Text

variable {c : Char} {cs : List Char} {acc bound d n : Nat}

/-- The text is a number in one or more decimal digits, with one `+` in front at most. -/
def IsNumeral (cs : List Char) (n : Nat) : Prop :=
  ∃ digits : List Nat, digits ≠ [] ∧ (∀ d ∈ digits, d < 10) ∧ n = Nat.ofDigits 10 digits.reverse ∧
    (cs = digits.map Nat.digitChar ∨ cs = '+' :: digits.map Nat.digitChar)

theorem digit?_digitChar : d < 10 → digit? (Nat.digitChar d) = some d := by
  revert d
  decide

theorem digit?_eq_some_iff : digit? c = some d ↔ d < 10 ∧ c = Nat.digitChar d := by
  constructor
  · intro read
    have below := digit?_lt read
    refine ⟨below, Char.toNat_inj.1 ?_⟩
    have code : ∀ d < 10, (Nat.digitChar d).toNat = d + '0'.toNat := by decide
    unfold digit? at read
    split at read
    · rename_i within
      obtain rfl := Option.some.inj read
      rw [code _ below, Nat.sub_add_cancel within.1]
    · cases read
  · rintro ⟨below, rfl⟩
    exact digit?_digitChar below

theorem foldDigits_eq_some_iff : foldDigits acc cs = some n ↔ ∃ digits : List Nat,
    (∀ d ∈ digits, d < 10) ∧ cs = digits.map Nat.digitChar ∧
      n = digits.foldl (fun n d => n * 10 + d) acc := by
  induction cs generalizing acc with
  | nil =>
    constructor
    · rintro ⟨⟩
      exact ⟨[], by simp, rfl, rfl⟩
    · rintro ⟨digits, -, is, rfl⟩
      rw [List.map_eq_nil_iff.1 is.symm]
      rfl
  | cons c cs ih =>
    unfold foldDigits
    simp only [Option.bind_eq_some_iff, digit?_eq_some_iff, ih]
    constructor
    · rintro ⟨d, ⟨below, rfl⟩, digits, all, rfl, rfl⟩
      exact ⟨d :: digits, List.forall_mem_cons.2 ⟨below, all⟩, rfl, rfl⟩
    · rintro ⟨digits, all, is, rfl⟩
      obtain ⟨d, rest, rfl, rfl, rfl⟩ := List.map_eq_cons_iff.1 is.symm
      obtain ⟨below, all⟩ := List.forall_mem_cons.1 all
      exact ⟨d, ⟨below, rfl⟩, rest, all, rfl, rfl⟩

theorem ofDigits_reverse (digits : List Nat) :
    Nat.ofDigits 10 digits.reverse = digits.foldl (fun n d => n * 10 + d) 0 := by
  rw [Nat.ofDigits_eq_foldr, List.foldr_reverse]
  congr 1
  funext n d
  rw [Nat.cast_id]
  show d + 10 * n = n * 10 + d
  omega

theorem readDigits?_eq_some_iff : readDigits? cs = some n ↔ ∃ digits : List Nat, digits ≠ [] ∧
    (∀ d ∈ digits, d < 10) ∧ n = Nat.ofDigits 10 digits.reverse ∧
      cs = digits.map Nat.digitChar := by
  simp only [ofDigits_reverse]
  cases cs with
  | nil =>
    refine ⟨nofun, ?_⟩
    rintro ⟨digits, some, -, -, is⟩
    exact absurd (List.map_eq_nil_iff.1 is.symm) some
  | cons c cs =>
    refine foldDigits_eq_some_iff.trans (exists_congr fun digits => ?_)
    constructor
    · rintro ⟨all, is, value⟩
      exact ⟨fun none => by simp [none] at is, all, value, is⟩
    · rintro ⟨-, all, value, is⟩
      exact ⟨all, is, value⟩

/-- No digit is a plus sign. -/
theorem digits_ne_plus {digits : List Nat} (all : ∀ d ∈ digits, d < 10) :
    digits.map Nat.digitChar ≠ '+' :: cs := by
  intro is
  obtain ⟨d, rest, rfl, plus, -⟩ := List.map_eq_cons_iff.1 is
  have read := digit?_digitChar (all d List.mem_cons_self)
  rw [plus] at read
  cases read

/-- **An unsigned numeral is read as the number that it is**, if that is below the bound. -/
theorem readUnsigned?_eq_some_iff :
    readUnsigned? bound cs = some n ↔ IsNumeral cs n ∧ n < bound := by
  unfold readUnsigned? IsNumeral
  rw [Option.filter_eq_some_iff, decide_eq_true_eq, and_congr_left_iff]
  intro
  split
  · rename_i r
    refine readDigits?_eq_some_iff.trans (exists_congr fun digits => ?_)
    refine and_congr_right fun _ => and_congr_right fun all => and_congr_right fun _ => ?_
    simp [(digits_ne_plus all).symm]
  · rename_i unsigned
    refine readDigits?_eq_some_iff.trans (exists_congr fun digits => ?_)
    refine and_congr_right fun _ => and_congr_right fun _ => and_congr_right fun _ => ?_
    rw [or_iff_left (unsigned _)]

/-! ## Numbers in digits -/

theorem foldDigits_append (xs ys : List Char) :
    foldDigits acc (xs ++ ys) = (foldDigits acc xs).bind (foldDigits · ys) := by
  induction xs generalizing acc with
  | nil => rfl
  | cons x xs ih =>
    simp only [List.cons_append, foldDigits, ih, Option.bind_assoc]

/-- **A number is read from the digits that it is written in.** -/
theorem readDigits?_toDigits (n : Nat) : readDigits? (Nat.toDigits 10 n) = some n := by
  have folded : ∀ n, foldDigits 0 (Nat.toDigits 10 n) = some n := by
    intro n
    induction n using Nat.strongRecOn with
    | ind n ih =>
      rw [Nat.toDigits_eq_if (by decide)]
      split
      · rename_i one
        simp [foldDigits, digit?_digitChar one]
      · rename_i more
        have last : digit? (Nat.digitChar (n % 10)) = some (n % 10) :=
          digit?_digitChar (Nat.mod_lt n (by decide))
        rw [foldDigits_append, ih (n / 10) (by omega), Option.bind_some, foldDigits, last,
          Option.bind_some, foldDigits, Nat.div_add_mod' n 10]
  have value := folded n
  unfold readDigits?
  split
  · rename_i none
    exact absurd none Nat.toDigits_ne_nil
  · exact value

theorem isDigit_of_mem_toDigits (mem : c ∈ Nat.toDigits 10 n) : isDigit c = true := by
  have digit := Nat.isDigit_of_mem_toDigits (by decide) (by decide) mem
  rw [Char.isDigit, Bool.and_eq_true, decide_eq_true_eq, decide_eq_true_eq] at digit
  unfold isDigit digit?
  rw [if_pos ⟨digit.1, digit.2⟩]
  rfl

/-- **A number below the bound is read back as an unsigned numeral.** -/
theorem readUnsigned?_toDigits (below : n < bound) :
    readUnsigned? bound (Nat.toDigits 10 n) = some n := by
  obtain ⟨digits, filled, all, value, is⟩ := readDigits?_eq_some_iff.1 (readDigits?_toDigits n)
  exact readUnsigned?_eq_some_iff.2 ⟨⟨digits, filled, all, value, .inl is⟩, below⟩

/-- Digits are all that is read as digits. -/
theorem isDigit_of_readDigits? (read : readDigits? cs = some n) (mem : c ∈ cs) : isDigit c = true := by
  obtain ⟨digits, -, all, -, rfl⟩ := readDigits?_eq_some_iff.1 read
  obtain ⟨d, there, rfl⟩ := List.mem_map.1 mem
  unfold isDigit
  rw [digit?_digitChar (all d there)]
  rfl

/-- There is nothing but a sign and digits in an unsigned numeral. -/
theorem IsNumeral.isDigit_of_mem (h : IsNumeral cs n) (mem : c ∈ cs) : c = '+' ∨ isDigit c = true := by
  obtain ⟨digits, filled, all, value, is⟩ := h
  have digit : c ∈ digits.map Nat.digitChar → isDigit c = true :=
    isDigit_of_readDigits? (readDigits?_eq_some_iff.2 ⟨digits, filled, all, value, rfl⟩)
  rcases is with rfl | rfl
  · exact .inr (digit mem)
  · rcases List.mem_cons.1 mem with sign | mem
    · exact .inl sign
    · exact .inr (digit mem)

/-! ## Numbers in hexadecimal digits -/

theorem hexDigit?_digitChar : ∀ d < 16, hexDigit? (Nat.digitChar d) = some d := by decide

/-- A digit after a number. -/
theorem readHexadecimal?_concat (read : readHexadecimal? cs = some n) (below : d < 16) :
    readHexadecimal? (cs ++ [Nat.digitChar d]) = some (n * 16 + d) := by
  unfold readHexadecimal? at read ⊢
  obtain ⟨digits, each, value⟩ := Option.map_eq_some_iff.1 read
  rw [List.mapM_append, each]
  simp [hexDigit?_digitChar d below, value]

/-- **A number is read from the hexadecimal digits that it is written in.** -/
theorem readHexadecimal?_hexadecimal (n : Nat) : readHexadecimal? (hexadecimal n) = some n := by
  induction n using Nat.strongRecOn with
  | ind n ih =>
    unfold hexadecimal
    rw [Nat.toDigits_eq_if (by decide)]
    split
    · rename_i one
      have none : readHexadecimal? [] = some 0 := rfl
      exact (readHexadecimal?_concat none one).trans (congrArg some (Nat.zero_add n))
    · rename_i more
      have last : n % 16 < 16 := Nat.mod_lt n (by decide)
      exact (readHexadecimal?_concat (ih (n / 16) (by omega)) last).trans
        (congrArg some (Nat.div_add_mod' n 16))

/-- Zeros in front do not matter. -/
theorem readHexadecimal?_zeroFill (width : Nat) (cs : List Char) :
    readHexadecimal? (zeroFill width cs) = readHexadecimal? cs := by
  have zero : ∀ cs, readHexadecimal? ('0' :: cs) = readHexadecimal? cs := by
    intro cs
    have digit : hexDigit? '0' = some 0 := hexDigit?_digitChar 0 (by decide)
    unfold readHexadecimal?
    rw [List.mapM_cons, digit]
    cases cs.mapM hexDigit? <;> rfl
  unfold zeroFill
  induction width - cs.length with
  | zero => rfl
  | succ k ih =>
    rw [List.replicate_succ, List.cons_append, zero, ih]

/-- **Numbers are told apart by their hexadecimal digits**, whatever the width. -/
theorem zeroFill_hexadecimal_inj {width m n : Nat}
    (same : zeroFill width (hexadecimal m) = zeroFill width (hexadecimal n)) : m = n := by
  have read := congrArg readHexadecimal? same
  rw [readHexadecimal?_zeroFill, readHexadecimal?_zeroFill, readHexadecimal?_hexadecimal,
    readHexadecimal?_hexadecimal] at read
  exact Option.some.inj read

/-- A number that fits a width fills it. -/
theorem length_zeroFill_hexadecimal {width : Nat} (wide : 0 < width) (fits : n < 16 ^ width) :
    (zeroFill width (hexadecimal n)).length = width := by
  rw [length_zeroFill]
  exact Nat.max_eq_left (Nat.toDigits_length 16 n width wide fits)

end Text
end Amf
