import Amf.Context.Basic

/-!
# Tables within tables

A table is within another along a relation if each of its records stems from one of the other table
under the same number: records may go and may change along the relation, and none are added. A
measure of the records of a table is kept by every change that leaves the measure alone
(`Table.map_get?_modify`).

| operation | within the table before, along `R` |
| --- | --- |
| `erase` | if `R` is reflexive |
| `modify f` | if `R` is reflexive and relates each record to `f` of it |
| `insert` over a record | if `R` is reflexive and relates that record to the new one |
-/

namespace Amf
namespace Table

variable {α β : Type} {R S : α → α → Prop} {t u v : Table α} {k j : Nat} {a b : α} {f : α → α}

theorem contains_iff : t.contains k = true ↔ ∃ a, t.get? k = some a := Option.isSome_iff_exists

theorem get?_modify_of_ne (h : j ≠ k) : (t.modify k f).get? j = t.get? j := by
  rw [get?_modify, if_neg h]

theorem get?_modify_self : (t.modify k f).get? k = (t.get? k).map f := by
  rw [get?_modify, if_pos rfl]

theorem get?_modify_of_some (h : t.get? k = some a) : (t.modify k f).get? k = some (f a) := by
  rw [get?_modify_self, h]
  rfl

theorem get?_insert_of_ne (h : j ≠ k) : (t.insert k a).get? j = t.get? j := by
  rw [get?_insert, if_neg h]

theorem get?_erase_of_ne (h : j ≠ k) : (t.erase k).get? j = t.get? j := by
  rw [get?_erase, if_neg h]

/-- What is left was there before. -/
theorem get?_of_erase (h : (t.erase k).get? j = some a) : t.get? j = some a := by
  rw [get?_erase] at h
  split at h
  · cases h
  · exact h

theorem modify_of_some (h : t.get? k = some a) : t.modify k f = t.insert k (f a) := by
  unfold modify
  rw [h]

theorem modify_congr {g : α → α} (same : ∀ a, t.get? k = some a → f a = g a) :
    t.modify k f = t.modify k g := by
  unfold modify
  split
  · rfl
  · rename_i a h
    rw [same a h]

theorem modify_eq_self (same : ∀ a, t.get? k = some a → f a = a) : t.modify k f = t := by
  refine ext_get? fun j => ?_
  rw [get?_modify]
  split
  · rename_i is
    rw [is]
    cases there : t.get? k with
    | none => rfl
    | some a => rw [Option.map_some, same a there]
  · rfl

theorem modify_modify {g : α → α} : (t.modify k f).modify k g = t.modify k (g ∘ f) := by
  refine ext_get? fun j => ?_
  rw [get?_modify, get?_modify, get?_modify]
  split
  · exact Option.map_map g f _
  · rfl

theorem modify_insert_self : (t.insert k a).modify k f = t.insert k (f a) := by
  refine ext_get? fun j => ?_
  rw [get?_modify, get?_insert, get?_insert]
  split <;> rfl

theorem erase_modify_self : (t.modify k f).erase k = t.erase k := by
  refine ext_get? fun j => ?_
  rw [get?_erase, get?_erase]
  split
  · rfl
  · rename_i other
    exact get?_modify_of_ne other

theorem erase_insert_of_ne (h : j ≠ k) : (t.insert k a).erase j = (t.erase j).insert k a := by
  refine ext_get? fun i => ?_
  rw [get?_erase, get?_insert, get?_insert, get?_erase]
  by_cases is : i = j
  · rw [if_pos is, if_neg (is ▸ h), if_pos is]
  · rw [if_neg is, if_neg is]

/-! ## Measures -/

variable {g : α → β}

/-- A change that leaves a measure alone keeps it for every record. -/
theorem map_get?_modify (same : ∀ a, g (f a) = g a) :
    ((t.modify k f).get? j).map g = (t.get? j).map g := by
  rw [get?_modify]
  split
  · rw [Option.map_map]
    exact congrArg (fun h => (t.get? j).map h) (funext same)
  · rfl

/-- A record in the place of one of the same measure keeps the measure for every record. -/
theorem map_get?_insert (old : t.get? k = some a) (same : g b = g a) :
    ((t.insert k b).get? j).map g = (t.get? j).map g := by
  rw [get?_insert]
  split
  · rename_i is
    rw [is, old, Option.map_some, Option.map_some, same]
  · rfl

theorem map_get?_modify_of_ne (h : j ≠ k) : ((t.modify k f).get? j).map g = (t.get? j).map g := by
  rw [get?_modify_of_ne h]

/-! ## Tables within tables -/

/-- Each record stems from one of the other table under the same number. -/
def Within (R : α → α → Prop) (t u : Table α) : Prop :=
  ∀ k b, u.get? k = some b → ∃ a, t.get? k = some a ∧ R a b

theorem Within.refl (self : ∀ a, R a a) : Within R t t := fun _ b h => ⟨b, h, self b⟩

theorem Within.trans (compose : ∀ a b c, R a b → R b c → R a c) (first : Within R t u)
    (second : Within R u v) : Within R t v := by
  intro k c h
  obtain ⟨b, hb, hbc⟩ := second k c h
  obtain ⟨a, ha, hab⟩ := first k b hb
  exact ⟨a, ha, compose a b c hab hbc⟩

theorem Within.mono (weaker : ∀ a b, R a b → S a b) (h : Within R t u) : Within S t u := by
  intro k b hb
  obtain ⟨a, ha, hab⟩ := h k b hb
  exact ⟨a, ha, weaker a b hab⟩

theorem within_erase (self : ∀ a, R a a) : Within R t (t.erase k) :=
  fun _ b h => ⟨b, get?_of_erase h, self b⟩

theorem within_modify (self : ∀ a, R a a) (changed : ∀ a, R a (f a)) : Within R t (t.modify k f) := by
  intro j b h
  rw [get?_modify] at h
  split at h
  · obtain ⟨a, ha, rfl⟩ := Option.map_eq_some_iff.1 h
    exact ⟨a, ha, changed a⟩
  · exact ⟨b, h, self b⟩

theorem within_insert (self : ∀ a, R a a) (old : t.get? k = some a) (changed : R a b) :
    Within R t (t.insert k b) := by
  intro j d h
  rw [get?_insert] at h
  split at h
  · rename_i is
    cases h
    exact ⟨a, is ▸ old, changed⟩
  · exact ⟨d, h, self d⟩

theorem contains_insert :
    (t.insert k b).contains j = true ↔ j = k ∨ t.contains j = true := by
  unfold contains
  rw [get?_insert]
  split
  · rename_i is
    exact iff_of_true rfl (.inl is)
  · rename_i other
    exact (or_iff_right other).symm

theorem contains_erase : (t.erase k).contains j = true ↔ j ≠ k ∧ t.contains j = true := by
  unfold contains
  rw [get?_erase]
  split
  · rename_i is
    exact ⟨nofun, fun h => absurd is h.1⟩
  · rename_i other
    exact (and_iff_right other).symm

theorem contains_modify : (t.modify k f).contains j = t.contains j := by
  unfold contains
  rw [get?_modify]
  split
  · rw [Option.isSome_map]
  · rfl

end Table
end Amf
