/-!
# Octet strings

Big-endian words and counted fields, the two shapes that every wire message here is made of.

| writer | octets written |
| --- | --- |
| `word k n` | the `k` octets of `n`, the most significant first |
| `counted k xs` | the length of `xs` as `word k`, then `xs` |

A word keeps the low `k` octets of its number; a counted field writes its content in full even where
the length does not fit its word.
-/

namespace Amf

/-- A string of octets. -/
abbrev Octets := List UInt8

namespace Octets

/-- The `k` low octets of `n`, the most significant first. -/
def word : Nat → Nat → Octets
  | 0, _ => []
  | k + 1, n => word k (n / 256) ++ [UInt8.ofNat n]

@[simp] theorem length_word (k n : Nat) : (word k n).length = k := by
  induction k generalizing n with
  | zero => rfl
  | succ k ih => simp [word, ih]

/-- The number that octets stand for, the most significant first. -/
def value (xs : Octets) : Nat :=
  xs.foldl (fun n x => n * 256 + x.toNat) 0

@[simp] theorem value_append_singleton (xs : Octets) (x : UInt8) :
    value (xs ++ [x]) = value xs * 256 + x.toNat := by
  simp [value, List.foldl_append]

/-- A word reads back as its number, less what `k` octets cannot hold. -/
@[simp] theorem value_word (k n : Nat) : value (word k n) = n % Nat.pow 256 k := by
  induction k generalizing n with
  | zero => simp [word, value, Nat.mod_one]
  | succ k ih =>
    have h : (UInt8.ofNat n).toNat = n % 256 := by simp
    have hp : Nat.pow 256 (k + 1) = 256 * Nat.pow 256 k := Nat.mul_comm _ _
    rw [word, value_append_singleton, ih, h, hp, Nat.mod_mul]
    omega

/-- A length word of `k` octets, then the content. -/
def counted (k : Nat) (xs : Octets) : Octets :=
  word k xs.length ++ xs

@[simp] theorem length_counted (k : Nat) (xs : Octets) :
    (counted k xs).length = k + xs.length := by
  simp [counted]

/-- The octets of a text that is ASCII. -/
def ofAscii (s : String) : Octets := s.toList.map fun c => UInt8.ofNat c.toNat

/-- Octets in lower-case hexadecimal, two digits each. -/
def hex (xs : Octets) : List Char :=
  xs.flatMap fun x =>
    [Nat.digitChar (x.toNat / 16), Nat.digitChar (x.toNat % 16)]

end Octets
end Amf
