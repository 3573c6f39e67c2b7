/-!
# Tables

Finite tables from numbers to records, as entries in strictly increasing order of their numbers, so
that two tables with the same entries are equal (`Table.ext_get?`); and indices from texts to
numbers.

| operation | entry of its own key after it | other entries |
| --- | --- | --- |
| `insert k a` | `a` | as before |
| `erase k` | none | as before |
| `modify k f` | `f` of the entry before, if there was one | as before |
-/

namespace Amf

variable {κ α : Type} [DecidableEq κ]

/-- The value of a key, in its first entry. -/
def valueOf (k : κ) : List (κ × α) → Option α
  | [] => none
  | e :: r => if k = e.1 then some e.2 else valueOf k r

/-- A value that is found is the one of an entry. -/
theorem mem_of_valueOf {k : κ} {a : α} : ∀ {l : List (κ × α)}, valueOf k l = some a → (k, a) ∈ l
  | [], h => by cases h
  | e :: r, h => by
    unfold valueOf at h
    split at h
    · rename_i is
      cases h
      rw [is]
      exact List.mem_cons_self
    · exact List.mem_cons_of_mem _ (mem_of_valueOf h)

/-- Without the entries of one key, the others keep their values. -/
theorem valueOf_filter_ne (k j : κ) :
    ∀ l : List (κ × α), valueOf j (l.filter (·.1 ≠ k)) = if j = k then none else valueOf j l
  | [] => by simp [valueOf]
  | d :: r => by
    have ih := valueOf_filter_ne k j r
    by_cases hd : d.1 = k
    · rw [List.filter_cons_of_neg (by simp [hd]), ih]
      by_cases h : j = k
      · simp [h]
      · simp [h, valueOf, hd]
    · rw [List.filter_cons_of_pos (by simp [hd])]
      simp only [valueOf, ih]
      by_cases h : j = k
      · subst h
        simp [Ne.symm hd]
      · simp [h]

/-- Entries with the entry of `k` put in its place. -/
def Table.put (k : Nat) (a : α) : List (Nat × α) → List (Nat × α)
  | [] => [(k, a)]
  | e :: r =>
    if k < e.1 then (k, a) :: e :: r
    else if k = e.1 then (k, a) :: r
    else e :: put k a r

theorem Table.mem_put {k : Nat} {a : α} {e : Nat × α} :
    ∀ {l : List (Nat × α)}, e ∈ put k a l → e = (k, a) ∨ e ∈ l
  | [], h => by simpa [put] using h
  | d :: r, h => by
    unfold put at h
    split at h
    · simpa using h
    · split at h
      · rcases List.mem_cons.1 h with h | h
        · exact .inl h
        · exact .inr (List.mem_cons_of_mem _ h)
      · rcases List.mem_cons.1 h with h | h
        · exact .inr (h ▸ List.mem_cons_self)
        · exact (mem_put h).imp_right (List.mem_cons_of_mem _)

theorem Table.sorted_put {k : Nat} {a : α} :
    ∀ {l : List (Nat × α)}, l.Pairwise (·.1 < ·.1) → (put k a l).Pairwise (·.1 < ·.1)
  | [], _ => by simp [put]
  | d :: r, h => by
    have hd := List.pairwise_cons.1 h
    unfold put
    split
    · rename_i hk
      refine List.pairwise_cons.2 ⟨fun e he => ?_, h⟩
      rcases List.mem_cons.1 he with rfl | he
      · exact hk
      · exact Nat.lt_trans hk (hd.1 e he)
    · split
      · rename_i hk
        exact List.pairwise_cons.2 ⟨fun e he => by simpa [hk] using hd.1 e he, hd.2⟩
      · rename_i h1 h2
        refine List.pairwise_cons.2 ⟨fun e he => ?_, sorted_put hd.2⟩
        rcases mem_put he with rfl | he
        · simp only; omega
        · exact hd.1 e he

/-- A finite table from numbers to records. -/
structure Table (α : Type) where
  /-- The entries, in increasing order of their numbers. -/
  entries : List (Nat × α) := []
  /-- The numbers increase. -/
  sorted : entries.Pairwise (·.1 < ·.1) := by exact List.Pairwise.nil

namespace Table

/-- The table without entries. -/
def empty : Table α := {}

instance : Inhabited (Table α) := ⟨empty⟩

instance [DecidableEq α] : DecidableEq (Table α) := fun s t =>
  decidable_of_iff (s.entries = t.entries) (by cases s; cases t; simp)

/-- The record of a number. -/
def get? (t : Table α) (k : Nat) : Option α := valueOf k t.entries

/-- The number of entries. -/
def size (t : Table α) : Nat := t.entries.length

/-- The numbers with an entry, in increasing order. -/
def keys (t : Table α) : List Nat := t.entries.map (·.1)

/-- There is an entry. -/
def contains (t : Table α) (k : Nat) : Bool := (t.get? k).isSome

/-- The table with the record of a number added or replaced. -/
def insert (t : Table α) (k : Nat) (a : α) : Table α :=
  ⟨put k a t.entries, sorted_put t.sorted⟩

/-- The table without the record of a number. -/
def erase (t : Table α) (k : Nat) : Table α :=
  ⟨t.entries.filter (·.1 ≠ k), t.sorted.filter _⟩

/-- The table with the record of a number changed, if there is one. -/
def modify (t : Table α) (k : Nat) (f : α → α) : Table α :=
  match t.get? k with
  | none => t
  | some a => t.insert k (f a)

theorem valueOf_put (k j : Nat) (a : α) :
    ∀ l : List (Nat × α), valueOf j (put k a l) = if j = k then some a else valueOf j l
  | [] => by simp [put, valueOf]
  | d :: r => by
    unfold put
    split
    · simp [valueOf]
    · split
      · rename_i hk
        by_cases h : j = k
        · simp [valueOf, h]
        · simp [valueOf, h, ← hk]
      · rename_i h1 h2
        simp only [valueOf, valueOf_put k j a r]
        by_cases h : j = k
        · subst h
          simp [h2]
        · simp [h]

@[simp] theorem get?_empty (k : Nat) : (empty : Table α).get? k = none := rfl

theorem get?_insert (t : Table α) (k j : Nat) (a : α) :
    (t.insert k a).get? j = if j = k then some a else t.get? j :=
  valueOf_put k j a t.entries

@[simp] theorem get?_insert_self (t : Table α) (k : Nat) (a : α) :
    (t.insert k a).get? k = some a := by
  simp [get?_insert]

theorem get?_erase (t : Table α) (k j : Nat) :
    (t.erase k).get? j = if j = k then none else t.get? j :=
  valueOf_filter_ne k j t.entries

@[simp] theorem get?_erase_self (t : Table α) (k : Nat) : (t.erase k).get? k = none := by
  simp [get?_erase]

theorem get?_modify (t : Table α) (k j : Nat) (f : α → α) :
    (t.modify k f).get? j = if j = k then (t.get? j).map f else t.get? j := by
  unfold modify
  split
  · rename_i h
    by_cases hj : j = k
    · simp [hj, h]
    · simp [hj]
  · rename_i a h
    rw [get?_insert]
    by_cases hj : j = k
    · simp [hj, h]
    · simp [hj]

theorem mem_entries_iff {t : Table α} {k : Nat} {a : α} :
    (k, a) ∈ t.entries ↔ t.get? k = some a := by
  obtain ⟨l, h⟩ := t
  simp only [get?]
  induction l generalizing a with
  | nil => simp [valueOf]
  | cons d r ih =>
    have hd := List.pairwise_cons.1 h
    rw [List.mem_cons, valueOf, ih hd.2]
    by_cases hk : k = d.1
    · have none_left : valueOf k r = none := by
        rw [← Option.not_isSome_iff_eq_none, Option.isSome_iff_exists]
        rintro ⟨b, hb⟩
        have := hd.1 _ ((ih hd.2).2 hb)
        simp only at this
        omega
      rw [if_pos hk, none_left]
      simp [hk, Prod.ext_iff, eq_comm]
    · simp [hk, Prod.ext_iff]

/-- **Tables with the same entries are equal.** -/
theorem ext_get? {s t : Table α} (h : ∀ k, s.get? k = t.get? k) : s = t := by
  obtain ⟨l, hl⟩ := s
  obtain ⟨m, hm⟩ := t
  have mem : ∀ k a, (k, a) ∈ l ↔ (k, a) ∈ m := fun k a => by
    rw [mem_entries_iff (t := ⟨l, hl⟩), mem_entries_iff (t := ⟨m, hm⟩), h]
  have key : l = m := by
    clear h
    induction l generalizing m with
    | nil =>
      cases m with
      | nil => rfl
      | cons e r => exact absurd ((mem e.1 e.2).2 List.mem_cons_self) List.not_mem_nil
    | cons d r ih =>
      cases m with
      | nil => exact absurd ((mem d.1 d.2).1 List.mem_cons_self) List.not_mem_nil
      | cons e s =>
        have hd := List.pairwise_cons.1 hl
        have he := List.pairwise_cons.1 hm
        have hde : d = e := by
          rcases List.mem_cons.1 ((mem d.1 d.2).1 List.mem_cons_self) with h1 | h1
          · exact h1
          · rcases List.mem_cons.1 ((mem e.1 e.2).2 List.mem_cons_self) with h2 | h2
            · exact h2.symm
            · have l1 := he.1 _ h1
              have l2 := hd.1 _ h2
              simp only at l1 l2
              omega
        subst hde
        rw [ih hd.2 s he.2]
        intro k a
        have := mem k a
        rw [List.mem_cons, List.mem_cons] at this
        constructor <;> intro hk
        · rcases this.1 (.inr hk) with h1 | h1
          · exact absurd (hd.1 _ hk) (by simp [← h1])
          · exact h1
        · rcases this.2 (.inr hk) with h1 | h1
          · exact absurd (he.1 _ hk) (by simp [← h1])
          · exact h1
  subst key
  rfl

/-- Without an entry there is nothing to erase. -/
theorem erase_eq_self {t : Table α} {k : Nat} (h : t.get? k = none) : t.erase k = t := by
  refine ext_get? fun j => ?_
  rw [get?_erase]
  split
  · rename_i hj
    rw [hj, h]
  · rfl

end Table

/-- An index from texts to numbers. -/
structure Index where
  /-- The entries, the one added last in front. -/
  entries : List (String × Nat) := []
  deriving DecidableEq, Repr, Inhabited

namespace Index

/-- The number of a text. -/
def get? (x : Index) (s : String) : Option Nat := valueOf s x.entries

/-- The index without the entry of a text. -/
def erase (x : Index) (s : String) : Index := ⟨x.entries.filter (·.1 ≠ s)⟩

/-- The index with the entry of a text added or replaced. -/
def insert (x : Index) (s : String) (n : Nat) : Index := ⟨(s, n) :: (x.erase s).entries⟩

theorem get?_erase (x : Index) (s t : String) :
    (x.erase s).get? t = if t = s then none else x.get? t :=
  valueOf_filter_ne s t x.entries

theorem get?_insert (x : Index) (s t : String) (n : Nat) :
    (x.insert s n).get? t = if t = s then some n else x.get? t := by
  have h : (x.insert s n).get? t = if t = s then some n else (x.erase s).get? t := rfl
  rw [h, get?_erase]
  split <;> rfl

end Index
end Amf
