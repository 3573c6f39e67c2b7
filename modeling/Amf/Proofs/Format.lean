import Amf.Octets

/-!
# Formats

How fields are written in octets and read back. A format writes all fields that it is given, but a
count keeps only what its octets can hold; so fields read back exactly if every count among them is
exact, that is, the number of what follows it (`Format.read_write_iff`).

| format | octets |
| --- | --- |
| `octet` | one octet |
| `number k` | a number in `k` octets |
| `octets n` | `n` octets |
| `counted k` | the number of octets in `k` octets, then the octets |
| `optional f` | an octet 1 and then as `f`, or an octet 0 |
| `list k f` | the number of elements in `k` octets, then each as `f` |
| `both f g` | as `f`, then as `g` |
| `via f fields` | as `f`, what `fields` makes of a value |
-/

namespace Amf

namespace Octets

/-- A word is the only one of its length that reads back as its number. -/
theorem word_value {k : Nat} {xs : Octets} (length : xs.length = k) : word k (value xs) = xs := by
  induction k generalizing xs with
  | zero => exact (List.eq_nil_of_length_eq_zero length).symm
  | succ k ih =>
    obtain ⟨front, last, rfl⟩ : ∃ front last, xs = front ++ [last] :=
      ⟨_, _, (List.dropLast_concat_getLast (List.ne_nil_of_length_eq_add_one length)).symm⟩
    have below := last.toNat_lt
    have quotient : (value front * 256 + last.toNat) / 256 = value front := by omega
    have octet : UInt8.ofNat (value front * 256 + last.toNat) = last := by
      rw [← UInt8.toNat_inj, UInt8.toNat_ofNat']
      omega
    rw [value_append_singleton, word, quotient, octet, ih (by simpa using length)]

/-- A word reads back as its number exactly if its octets can hold it. -/
theorem value_word_eq_iff {k n : Nat} : value (word k n) = n ↔ n < Nat.pow 256 k := by
  rw [value_word]
  exact ⟨fun is => is ▸ Nat.mod_lt _ (Nat.pow_pos (by decide)), Nat.mod_eq_of_lt⟩

/-- The first octets of a number, and those after them, if there are so many. -/
def split? (n : Nat) (xs : Octets) : Option (Octets × Octets) :=
  if n ≤ xs.length then some (xs.take n, xs.drop n) else none

variable {n : Nat} {xs first rest : Octets}

theorem split?_append (length : xs.length = n) (rest : Octets) :
    split? n (xs ++ rest) = some (xs, rest) := by
  subst length
  simp [split?]

theorem split?_eq_some_iff :
    split? n xs = some (first, rest) ↔ first.length = n ∧ xs = first ++ rest := by
  constructor
  · intro is
    unfold split? at is
    split at is
    · rename_i enough
      cases is
      exact ⟨List.length_take_of_le enough, (List.take_append_drop n xs).symm⟩
    · cases is
  · rintro ⟨length, rfl⟩
    exact split?_append length rest

end Octets

open Octets

/-- A way to write fields in octets, and to read them back. -/
structure Format (α : Type) where
  /-- The octets of fields. -/
  write : α → Octets
  /-- The fields that octets begin with, and the octets after them. -/
  read : Octets → Option (α × Octets)
  /-- Every field has its length, and every count is the number of what follows it. -/
  Exact : α → Prop
  /-- Such fields read back, whatever follows them. -/
  read_write : ∀ {a}, Exact a → ∀ rest, read (write a ++ rest) = some (a, rest)
  /-- What is read are such fields, and they were written so. -/
  of_read : ∀ {a xs rest}, read xs = some (a, rest) → Exact a ∧ xs = write a ++ rest

namespace Format

variable {α β : Type} {f : Format α} {a : α}

/-- **Fields read back as themselves exactly if every count is exact.** -/
theorem read_write_iff : f.read (f.write a) = some (a, []) ↔ f.Exact a := by
  refine ⟨fun is => (f.of_read is).1, fun exact => ?_⟩
  rw [← List.append_nil (f.write a)]
  exact f.read_write exact []

/-- The fields that are written in octets, and nothing after them. -/
def whole? (f : Format α) (xs : Octets) : Option α :=
  match f.read xs with
  | some (a, []) => some a
  | _ => none

/-- Octets are read as a whole exactly if such fields were written in them. -/
theorem whole?_eq_some_iff {xs : Octets} : f.whole? xs = some a ↔ f.Exact a ∧ f.write a = xs := by
  constructor
  · intro is
    unfold whole? at is
    split at is
    · rename_i b there
      cases is
      obtain ⟨exact, rfl⟩ := f.of_read there
      exact ⟨exact, (List.append_nil _).symm⟩
    · cases is
  · rintro ⟨exact, rfl⟩
    rw [whole?, read_write_iff.2 exact]

/-- One octet. -/
def octet : Format UInt8 where
  write x := [x]
  read
    | x :: xs => some (x, xs)
    | [] => none
  Exact _ := True
  read_write _ _ := rfl
  of_read := by
    intro x xs rest is
    cases xs with
    | nil => cases is
    | cons =>
      cases is
      exact ⟨trivial, rfl⟩

/-- A number in `k` octets. -/
def number (k : Nat) : Format Nat where
  write := word k
  read xs := do
    let (digits, xs) ← split? k xs
    return (value digits, xs)
  Exact n := value (word k n) = n
  read_write := by
    intro n exact rest
    rw [split?_append (length_word k n)]
    exact congrArg (fun n => some (n, rest)) exact
  of_read := by
    intro n xs rest is
    obtain ⟨⟨digits, ys⟩, first, is⟩ := Option.bind_eq_some_iff.1 is
    cases is
    obtain ⟨width, rfl⟩ := split?_eq_some_iff.1 first
    rw [word_value width]
    exact ⟨rfl, rfl⟩

/-- A field of a number of octets. -/
def octets (n : Nat) : Format Octets where
  write xs := xs
  read := split? n
  Exact xs := xs.length = n
  read_write := split?_append
  of_read := split?_eq_some_iff.1

/-- A count in `k` octets, and then as many octets. -/
def counted (k : Nat) : Format Octets where
  write := Octets.counted k
  read xs := do
    let (count, xs) ← split? k xs
    split? (value count) xs
  Exact xs := value (word k xs.length) = xs.length
  read_write := by
    intro xs exact rest
    rw [Octets.counted, List.append_assoc, split?_append (length_word k _)]
    exact split?_append exact.symm rest
  of_read := by
    intro xs ys rest is
    obtain ⟨⟨count, zs⟩, first, second⟩ := Option.bind_eq_some_iff.1 is
    obtain ⟨width, rfl⟩ := split?_eq_some_iff.1 first
    obtain ⟨length, rfl⟩ := split?_eq_some_iff.1 second
    rw [Octets.counted, length, word_value width, List.append_assoc]
    exact ⟨rfl, rfl⟩

/-- Fields that may be absent. -/
def optional (f : Format α) : Format (Option α) where
  write
    | none => [0]
    | some a => 1 :: f.write a
  read
    | 0 :: xs => some (none, xs)
    | 1 :: xs => (f.read xs).map fun (a, rest) => (some a, rest)
    | _ => none
  Exact a := ∀ x, a = some x → f.Exact x
  read_write := by
    intro a exact rest
    cases a with
    | none => rfl
    | some a =>
      show (f.read (f.write a ++ rest)).map _ = _
      rw [f.read_write (exact a rfl)]
      rfl
  of_read := by
    intro a xs rest is
    split at is
    · cases is
      exact ⟨nofun, rfl⟩
    · obtain ⟨⟨b, ys⟩, present, is⟩ := Option.map_eq_some_iff.1 is
      cases is
      obtain ⟨exact, rfl⟩ := f.of_read present
      exact ⟨fun x is => Option.some.inj is ▸ exact, rfl⟩
    · cases is

/-- Elements of a number, read one after the other. -/
def readMany (f : Format α) : Nat → Octets → Option (List α × Octets)
  | 0, xs => some ([], xs)
  | n + 1, xs => do
    let (a, xs) ← f.read xs
    let (as, xs) ← readMany f n xs
    return (a :: as, xs)

theorem readMany_write {as : List α} (exact : ∀ a ∈ as, f.Exact a) (rest : Octets) :
    f.readMany as.length (as.flatMap f.write ++ rest) = some (as, rest) := by
  induction as with
  | nil => rfl
  | cons a as ih =>
    have first := f.read_write (exact a List.mem_cons_self)
    have others := ih fun b mem => exact b (List.mem_cons_of_mem a mem)
    simp [readMany, first, others]

theorem of_readMany {n : Nat} {as : List α} {xs rest : Octets}
    (is : f.readMany n xs = some (as, rest)) :
    as.length = n ∧ (∀ a ∈ as, f.Exact a) ∧ xs = as.flatMap f.write ++ rest := by
  induction n generalizing xs as with
  | zero =>
    cases is
    exact ⟨rfl, nofun, rfl⟩
  | succ n ih =>
    obtain ⟨⟨a, ys⟩, first, is⟩ := Option.bind_eq_some_iff.1 is
    obtain ⟨⟨bs, zs⟩, others, is⟩ := Option.bind_eq_some_iff.1 is
    cases is
    obtain ⟨exact, rfl⟩ := f.of_read first
    obtain ⟨length, all, rfl⟩ := ih others
    refine ⟨congrArg (· + 1) length, List.forall_mem_cons.2 ⟨exact, all⟩, ?_⟩
    rw [List.flatMap_cons, List.append_assoc]

/-- A count in `k` octets, and then as many elements. -/
def list (k : Nat) (f : Format α) : Format (List α) where
  write as := word k as.length ++ as.flatMap f.write
  read xs := do
    let (count, xs) ← split? k xs
    f.readMany (value count) xs
  Exact as := value (word k as.length) = as.length ∧ ∀ a ∈ as, f.Exact a
  read_write := by
    intro as exact rest
    rw [List.append_assoc, split?_append (length_word k _)]
    show f.readMany (value (word k as.length)) _ = _
    rw [exact.1]
    exact readMany_write exact.2 rest
  of_read := by
    intro as xs rest is
    obtain ⟨⟨count, ys⟩, first, elements⟩ := Option.bind_eq_some_iff.1 is
    obtain ⟨width, rfl⟩ := split?_eq_some_iff.1 first
    obtain ⟨length, all, rfl⟩ := of_readMany elements
    rw [length, word_value width, List.append_assoc]
    exact ⟨⟨rfl, all⟩, rfl⟩

/-- Fields, then others. -/
def both (f : Format α) (g : Format β) : Format (α × β) where
  write a := f.write a.1 ++ g.write a.2
  read xs := do
    let (a, xs) ← f.read xs
    let (b, xs) ← g.read xs
    return ((a, b), xs)
  Exact a := f.Exact a.1 ∧ g.Exact a.2
  read_write := by
    intro a exact rest
    simp [f.read_write exact.1, g.read_write exact.2]
  of_read := by
    intro a xs rest is
    obtain ⟨⟨b, ys⟩, first, is⟩ := Option.bind_eq_some_iff.1 is
    obtain ⟨⟨c, zs⟩, second, is⟩ := Option.bind_eq_some_iff.1 is
    cases is
    obtain ⟨exact, rfl⟩ := f.of_read first
    obtain ⟨exact', rfl⟩ := g.of_read second
    exact ⟨⟨exact, exact'⟩, (List.append_assoc _ _ _).symm⟩

/-- Values that are written as fields. -/
def via (f : Format α) (fields : β → α) (value? : α → Option β)
    (value_fields : ∀ {b}, f.Exact (fields b) → value? (fields b) = some b)
    (of_value : ∀ {a b}, f.Exact a → value? a = some b → fields b = a) : Format β where
  write b := f.write (fields b)
  read xs := do
    let (a, xs) ← f.read xs
    let b ← value? a
    return (b, xs)
  Exact b := f.Exact (fields b)
  read_write := by
    intro b exact rest
    simp [f.read_write exact, value_fields exact]
  of_read := by
    intro b xs rest is
    obtain ⟨⟨a, ys⟩, first, is⟩ := Option.bind_eq_some_iff.1 is
    obtain ⟨c, value, is⟩ := Option.bind_eq_some_iff.1 is
    cases is
    obtain ⟨exact, rfl⟩ := f.of_read first
    have same := of_value exact value
    subst same
    exact ⟨exact, rfl⟩

/-! ## What is written, and which counts are exact -/

variable {n k : Nat} {g : Format β} {b : β} {xs : Octets} {as : List α}

@[simp] theorem write_octet {x : UInt8} : octet.write x = [x] := rfl

@[simp] theorem write_number {m : Nat} : (number k).write m = word k m := rfl

@[simp] theorem write_octets : (octets n).write xs = xs := rfl

@[simp] theorem write_counted : (counted k).write xs = Octets.counted k xs := rfl

@[simp] theorem write_list : (list k f).write as = word k as.length ++ as.flatMap f.write := rfl

@[simp] theorem write_both : (both f g).write (a, b) = f.write a ++ g.write b := rfl

@[simp] theorem exact_octet {x : UInt8} : octet.Exact x := trivial

/-- A number is written exactly if its octets can hold it. -/
theorem exact_number {m : Nat} : (number k).Exact m ↔ m < Nat.pow 256 k := value_word_eq_iff

theorem exact_octets : (octets n).Exact xs ↔ xs.length = n := .rfl

/-- The count of octets is exact if it can be held. -/
theorem exact_counted : (counted k).Exact xs ↔ xs.length < Nat.pow 256 k := value_word_eq_iff

/-- The count of elements is exact if it can be held. -/
theorem exact_list :
    (list k f).Exact as ↔ as.length < Nat.pow 256 k ∧ ∀ a ∈ as, f.Exact a :=
  and_congr_left' value_word_eq_iff

end Format
end Amf
