/-!
# Finite binary64 magnitudes

Non-negative numbers of the binary64 format as exact values `mantissa · 2 ^ exponent`, and the
rounding of a quotient to the nearest of them, the even mantissa on a tie. A quotient of `2 ^ 1024`
or more after rounding is `infinite`. Decimals become such numbers, and a number has a shortest decimal.

| format | mantissa bits | least exponent | values below |
| --- | ---: | ---: | ---: |
| binary64 | 53 | -1074 | `2 ^ 1024` |
-/

namespace Amf

/-- A non-negative number of the binary64 format. -/
inductive Binary64 where
  /-- The value `mantissa · 2 ^ exponent`. -/
  | finite (mantissa : Nat) (exponent : Int)
  /-- A value beyond the largest finite one. -/
  | infinite
  deriving DecidableEq, Repr

namespace Binary64

/-- The quotient `num / den` rounded to the nearest integer, the even one on a tie. -/
def divNearestEven (num den : Nat) : Nat :=
  let q := num / den
  let r := num % den
  if 2 * r < den then q
  else if den < 2 * r then q + 1
  else if q % 2 = 0 then q else q + 1

/-- The quotient `num / den` rounded to the nearest integer, away from zero on a tie. -/
def divNearestAway (num den : Nat) : Nat :=
  (2 * num + den) / (2 * den)

/-- Rounding to the even neighbour stays within half a unit. -/
theorem divNearestEven_bounds {num den : Nat} (h : 0 < den) :
    2 * num ≤ (2 * divNearestEven num den + 1) * den ∧
      2 * divNearestEven num den * den ≤ 2 * num + den := by
  have e := Nat.div_add_mod num den
  have l := Nat.mod_lt num h
  have key : ∀ q r : Nat, den * q + r = num → r < den →
      (2 * r ≤ den → 2 * num ≤ (2 * q + 1) * den ∧ 2 * q * den ≤ 2 * num + den) ∧
      (den ≤ 2 * r → 2 * num ≤ (2 * (q + 1) + 1) * den ∧
        2 * (q + 1) * den ≤ 2 * num + den) := by
    intro q r hq hr
    have h1 : 2 * q * den = 2 * (den * q) := by rw [Nat.mul_assoc, Nat.mul_comm q]
    have h2 : (2 * q + 1) * den = 2 * (den * q) + den := by rw [Nat.add_mul, h1, Nat.one_mul]
    have h3 : 2 * (q + 1) * den = 2 * (den * q) + 2 * den := by
      rw [Nat.mul_add, Nat.add_mul, h1, Nat.mul_one]
    have h4 : (2 * (q + 1) + 1) * den = 2 * (den * q) + 3 * den := by
      rw [Nat.add_mul, h3]; omega
    rw [h1, h2, h3, h4]
    omega
  have k := key _ _ e l
  unfold divNearestEven
  simp only
  split
  · exact k.1 (by omega)
  · split
    · exact k.2 (by omega)
    · split
      · exact k.1 (by omega)
      · exact k.2 (by omega)

/-- The greatest `k` with `2 ^ k ≤ num / den`, for positive `num` and `den`. -/
def floorLog2 (num den : Nat) : Int :=
  let k : Int := num.log2 - den.log2
  if den <<< k.toNat ≤ num <<< (-k).toNat then k else k - 1

/-- The binary64 number nearest to `num / den`, the even mantissa on a tie; `den` is positive. -/
def round (num den : Nat) : Binary64 :=
  if num = 0 then finite 0 0 else
    let e := max (-1074) (floorLog2 num den - 52)
    let m := divNearestEven (num <<< (-e).toNat) (den <<< e.toNat)
    if 1 <<< 1024 ≤ m <<< e.toNat then infinite else finite m e

/-- The product, rounded. -/
def mul (x y : Binary64) : Binary64 :=
  match x, y with
  | finite m e, finite n f => round ((m * n) <<< (e + f).toNat) (1 <<< (-(e + f)).toNat)
  | _, _ => infinite

/-- The quotient by a finite number that is not zero, rounded. -/
def div (x y : Binary64) : Binary64 :=
  match x, y with
  | finite m e, finite n f => round (m <<< (e - f).toNat) (n <<< (f - e).toNat)
  | _, _ => infinite

/-- The product with an integer of the format, rounded again. -/
def mulNat (x : Binary64) (n : Nat) : Binary64 := x.mul (finite n 0)

/-- The nearest integer, away from zero on a tie, and `limit` where that is larger. -/
def toNatClamped (limit : Nat) : Binary64 → Nat
  | finite m e => min limit (divNearestAway (m <<< e.toNat) (1 <<< (-e).toNat))
  | infinite => limit

theorem toNatClamped_le (limit : Nat) (x : Binary64) : x.toNatClamped limit ≤ limit := by
  cases x with
  | finite m e => exact Nat.min_le_left _ _
  | infinite => exact Nat.le_refl _

/-- A finite number in units of the least positive one, `2 ^ -1074`. -/
def units? : Binary64 → Option Nat
  | finite m e => some (m <<< (e + 1074).toNat)
  | infinite => none

/-- The decimal `digits · 10 ^ scale`, rounded. A decimal from `10 ^ 310` on is beyond the format and
one below `10 ^ -330` rounds to zero, so a scale of any size asks for no larger power than its
digits do. -/
def ofDecimal (digits : Nat) (scale : Int) : Binary64 :=
  let magnitude := (Nat.toDigits 10 digits).length + scale
  if digits = 0 ∨ magnitude < -330 then finite 0 0
  else if 310 < magnitude then infinite
  else round (digits * Nat.pow 10 scale.toNat) (Nat.pow 10 (-scale).toNat)

/-- The power of ten, rounded. -/
def tenTo (k : Nat) : Binary64 := ofDecimal 1 k

/-- The quotient by a power of ten that is rounded itself. One beyond the largest finite power is taken in
steps of that power, until nothing is left. -/
def overTenTo (x : Binary64) (k : Nat) : Binary64 :=
  if x.units? = some 0 then x
  else if k ≤ 308 then x.div (tenTo k)
  else overTenTo (x.div (tenTo 308)) (k - 308)
termination_by k

/-- The product with a power of ten that is rounded itself, or the quotient for a negative one. -/
def timesTenTo (x : Binary64) (k : Int) : Binary64 :=
  if x.units? = some 0 then x
  else if 0 ≤ k then x.mul (tenTo k.toNat)
  else x.overTenTo (-k).toNat

/-- A finite number as the decimal `digits · 10 ^ scale` of the fewest digits, at most 17, such that the
nearest of its length reads back. -/
def shortest? (x : Binary64) : Option (Nat × Int) := do
  let units ← x.units?
  if units = 0 then return (0, 0)
  -- The number over `10 ^ 1074`, since its unit is `5 ^ 1074` of those.
  let exact := units * Nat.pow 5 1074
  let length := (Nat.toDigits 10 exact).length
  (List.range 17).findSome? fun k =>
    let cut := length - (k + 1)
    let d : Nat × Int := (divNearestEven exact (Nat.pow 10 cut), (cut : Int) - 1074)
    if (ofDecimal d.1 d.2).units? = some units then some d else none

/-- The shortest decimal of a number reads back as it. -/
theorem units?_ofDecimal_of_shortest? {x : Binary64} {d : Nat × Int} (h : x.shortest? = some d) :
    (ofDecimal d.1 d.2).units? = x.units? := by
  unfold shortest? at h
  obtain ⟨units, hu, h⟩ := Option.bind_eq_some_iff.1 h
  rw [hu]
  split at h
  · rename_i h0
    simp only [Option.pure_def, Option.some.injEq] at h
    subst h h0
    rfl
  · obtain ⟨k, -, h⟩ := List.exists_of_findSome?_eq_some h
    simp only at h
    split at h
    · rename_i he
      rw [← Option.some.inj h]
      exact he
    · simp at h

end Binary64
end Amf
