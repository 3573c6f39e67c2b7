import Amf.Proofs.Patched
import Amf.Proofs.Procedures
import Amf.Proofs.Provisioned
import Mathlib.Data.List.TakeWhile

/-!
# Limits that are handed over

The context of a UE that another AMF asks for gives the subscribed bit rate of each direction in whole
`Kbps`, rounded down, unless the direction is unlimited. The AMF that reads it takes a direction that is
left out, or that is given as 0, for unlimited. What it reads is not always the number of the text, since
numbers are read in binary64; but 0 is read for the number 0 alone (`Bitrate.ofText?_toKbps`). So a limit
below 1 `Kbps`, which is given as 0, is the only one that gets lost (`Relocation.exec_request_ambr`):

| rate in bits per second | text | read as |
| --- | --- | --- |
| 0 | | unlimited |
| 1 to 999 | `0 Kbps` | unlimited |
| 1000 and above | `1 Kbps` and above | limited |
-/

namespace Amf

/-! ## Numbers that are one or more -/

namespace Binary64

variable {num den k : Nat} {x : Binary64}

/-- The quotient is at least the power of two that its logarithm, rounded down, stands for. -/
theorem mul_two_pow_le (pos : num ≠ 0) (le : (k : Int) ≤ floorLog2 num den) : den * 2 ^ k ≤ num := by
  unfold floorLog2 at le
  simp only at le
  split at le
  · rename_i reached
    have fewer : (den.log2 : Int) + k ≤ num.log2 := by omega
    have none : (-((num.log2 : Int) - den.log2)).toNat = 0 := by omega
    rw [none, Nat.shiftLeft_zero, Nat.shiftLeft_eq] at reached
    exact (Nat.mul_le_mul_left den (Nat.pow_le_pow_right (by decide) (by omega))).trans reached
  · have fewer : den.log2 + 1 + k ≤ num.log2 := by omega
    calc den * 2 ^ k ≤ 2 ^ (den.log2 + 1) * 2 ^ k :=
          Nat.mul_le_mul_right _ (Nat.le_of_lt Nat.lt_log2_self)
      _ = 2 ^ (den.log2 + 1 + k) := (Nat.pow_add ..).symm
      _ ≤ 2 ^ num.log2 := Nat.pow_le_pow_right (by decide) fewer
      _ ≤ num := Nat.log2_self_le pos

theorem floorLog2_nonneg (pos : 0 < den) (le : den ≤ num) : 0 ≤ floorLog2 num den := by
  have monotone : den.log2 ≤ num.log2 :=
    (Nat.le_log2 (by omega)).2 ((Nat.log2_self_le (by omega)).trans le)
  unfold floorLog2
  simp only
  split
  · omega
  · rename_i missed
    have more : num.log2 ≠ den.log2 := by
      intro same
      rw [same, Int.sub_self] at missed
      exact missed le
    omega

theorem le_divNearestEven : num / den ≤ divNearestEven num den := by
  unfold divNearestEven
  simp only
  split
  · exact Nat.le_refl _
  · split
    · exact Nat.le_succ _
    · split
      · exact Nat.le_refl _
      · exact Nat.le_succ _

/-- The number is one or more. -/
def AtLeastOne : Binary64 → Prop
  | finite m e => 1 <<< (-e).toNat ≤ m <<< e.toNat
  | infinite => True

/-- Rounding does not go below one. -/
theorem atLeastOne_round (pos : 0 < den) (le : den ≤ num) : (round num den).AtLeastOne := by
  have nonneg := floorLog2_nonneg pos le
  unfold round
  rw [if_neg (by omega : num ≠ 0)]
  simp only
  split
  · trivial
  · set e := max (-1074) (floorLog2 num den - 52) with is
    show 1 <<< (-e).toNat ≤ divNearestEven _ _ <<< e.toNat
    simp only [Nat.shiftLeft_eq, Nat.one_mul]
    refine Nat.le_trans ?_ (Nat.mul_le_mul_right _ le_divNearestEven)
    by_cases small : e < 0
    · -- The quotient is stretched, and is one at least before.
      have none : e.toNat = 0 := by omega
      rw [none, Nat.pow_zero, Nat.mul_one, Nat.mul_one, Nat.le_div_iff_mul_le pos, Nat.mul_comm]
      exact Nat.mul_le_mul_right _ le
    · -- The quotient is shrunk, and reaches its own power of two.
      have none : (-e).toNat = 0 := by omega
      have reached : den * 2 ^ e.toNat ≤ num := mul_two_pow_le (by omega) (by omega)
      have one : 1 ≤ num / (den * 2 ^ e.toNat) :=
        (Nat.one_le_div_iff (Nat.mul_pos pos (Nat.two_pow_pos _))).2 reached
      rw [none, Nat.pow_zero, Nat.mul_one]
      exact one.trans (Nat.le_mul_of_pos_right _ (Nat.two_pow_pos _))

theorem AtLeastOne.mulNat (h : x.AtLeastOne) (pos : 0 < k) : (x.mulNat k).AtLeastOne := by
  cases x with
  | infinite => trivial
  | finite m e =>
    have h : 1 <<< (-e).toNat ≤ m <<< e.toNat := h
    show (round ((m * k) <<< (e + 0).toNat) (1 <<< (-(e + 0)).toNat)).AtLeastOne
    rw [Int.add_zero]
    simp only [Nat.shiftLeft_eq, Nat.one_mul] at h ⊢
    exact atLeastOne_round (Nat.two_pow_pos _)
      (h.trans (Nat.mul_le_mul_right _ (Nat.le_mul_of_pos_right m pos)))

theorem AtLeastOne.toNatClamped_pos {limit : Nat} (h : x.AtLeastOne) (pos : 0 < limit) :
    0 < x.toNatClamped limit := by
  cases x with
  | infinite => exact pos
  | finite m e =>
    have h : 1 <<< (-e).toNat ≤ m <<< e.toNat := h
    have unit : 0 < 1 <<< (-e).toNat := by
      rw [Nat.one_shiftLeft]
      exact Nat.two_pow_pos _
    exact Nat.lt_min.2 ⟨pos, Nat.div_pos (by omega) (by omega)⟩

/-- Words are far below the largest finite number. -/
theorem exists_round_eq_finite (word : num < 2 ^ 64) : ∃ m e, round num 1 = finite m e := by
  unfold round
  split
  · exact ⟨0, 0, rfl⟩
  · rename_i pos
    have nonneg : 0 ≤ floorLog2 num 1 := floorLog2_nonneg Nat.one_pos (by omega)
    simp only
    set e := max (-1074) (floorLog2 num 1 - 52) with is
    set m := divNearestEven (num <<< (-e).toNat) (1 <<< e.toNat) with rounded
    have reached : 2 ^ e.toNat ≤ num := by
      have reached : 1 * 2 ^ e.toNat ≤ num := mul_two_pow_le pos (by omega)
      rwa [Nat.one_mul] at reached
    have stretched : num * 2 ^ (-e).toNat ≤ num * 2 ^ 52 :=
      Nat.mul_le_mul_left _ (Nat.pow_le_pow_right (by decide) (by omega))
    have bound : 2 * m * 2 ^ e.toNat ≤ 2 * (num * 2 ^ (-e).toNat) + 2 ^ e.toNat := by
      rw [rounded, Nat.shiftLeft_eq, Nat.one_shiftLeft]
      exact (divNearestEven_bounds (Nat.two_pow_pos _)).2
    rw [Nat.mul_assoc] at bound
    have below : ∀ k ≥ 120, m <<< e.toNat < 1 <<< k := by
      intro k large
      rw [Nat.shiftLeft_eq, Nat.one_shiftLeft]
      have small : m * 2 ^ e.toNat < 2 ^ 120 := by omega
      exact small.trans_le (Nat.pow_le_pow_right Nat.two_pos large)
    exact ⟨m, e, if_neg (Nat.not_le.2 (below 1024 (by decide)))⟩

theorem ofDecimal_word (pos : k ≠ 0) (word : k < 2 ^ 64) : ofDecimal k 0 = round k 1 := by
  have short : (Nat.toDigits 10 k).length ≤ 20 :=
    (Nat.length_toDigits_le_iff (by decide) (by decide)).2 (by omega)
  unfold ofDecimal
  simp only [Int.add_zero, Int.neg_zero, Int.toNat_zero]
  rw [if_neg (by omega), if_neg (by omega)]
  exact congrArg (round · 1) (Nat.mul_one k)

end Binary64

/-! ## Decimal numbers that are written and read -/

namespace Text

variable {c : Char} {cs : List Char}

theorem readDecimal?_toDigits (n : Nat) : readDecimal? (Nat.toDigits 10 n) = some (n, 0) := by
  have whole : (Nat.toDigits 10 n).takeWhile isDigit = Nat.toDigits 10 n :=
    List.takeWhile_eq_self_iff.2 fun _ => isDigit_of_mem_toDigits
  have rest : (Nat.toDigits 10 n).dropWhile isDigit = [] :=
    List.dropWhile_eq_nil_iff.2 fun _ => isDigit_of_mem_toDigits
  unfold readDecimal?
  simp only [whole, rest, List.append_nil, readDigits?_toDigits, readTail?]
  rfl

/-- No digit is a blank. -/
theorem isBlank_of_isDigit (digit : isDigit c = true) : isBlank c = false := by
  unfold isDigit digit? at digit
  split at digit
  · rename_i within
    have first : '0'.toNat = 48 := rfl
    have last : '9'.toNat = 57 := rfl
    simp only [isBlank, blankRanges, List.any_cons, List.any_nil, Bool.or_false, Bool.or_eq_false_iff,
      Bool.and_eq_false_iff, decide_eq_false_iff_not]
    omega
  · cases digit

/-- Text that ends in no blank has none taken off its end. -/
theorem trimEnd_append (ends : isBlank c = false) : trimEnd (cs ++ [c]) = cs ++ [c] := by
  induction cs with
  | nil => simp [trimEnd, ends]
  | cons d cs ih =>
    rw [List.cons_append, trimEnd, ih]
    cases cs <;> rfl

end Text

/-! ## Rates that are written and read -/

namespace Bitrate

open Text

variable {rate : UInt64} {k : Nat}

theorem toList_toKbps : (toKbps rate).toList =
    Nat.toDigits 10 (rate.toNat / 1000) ++ [' ', 'K', 'b', 'p', 's'] := by
  rw [toKbps, String.toList_append]
  exact congrArg (· ++ _) Nat.toList_repr

/-- A number in digits is read as a finite one. -/
theorem readNumber?_toDigits (word : k < 2 ^ 64) :
    ∃ x, readNumber? (Nat.toDigits 10 k) = some x ∧ (x = .finite 0 0 ∧ k = 0 ∨ x.AtLeastOne ∧ k ≠ 0) := by
  have magnitude : ∃ m e, Binary64.ofDecimal k 0 = .finite m e ∧
      (Binary64.finite m e = .finite 0 0 ∧ k = 0 ∨ (Binary64.finite m e).AtLeastOne ∧ k ≠ 0) := by
    by_cases zero : k = 0
    · subst zero
      exact ⟨0, 0, rfl, .inl ⟨rfl, rfl⟩⟩
    · obtain ⟨m, e, finite⟩ := Binary64.exists_round_eq_finite word
      rw [Binary64.ofDecimal_word zero word]
      refine ⟨m, e, finite, .inr ⟨?_, zero⟩⟩
      rw [← finite]
      exact Binary64.atLeastOne_round Nat.one_pos (by omega)
  obtain ⟨m, e, finite, value⟩ := magnitude
  refine ⟨_, ?_, value⟩
  have decimal := readDecimal?_toDigits k
  have digits : ∀ c ∈ Nat.toDigits 10 k, isDigit c = true := fun _ => isDigit_of_mem_toDigits
  generalize Nat.toDigits 10 k = cs at decimal digits
  -- No digit is a sign.
  unfold readNumber?
  split
  rename_i negative magnitude is
  split at is
  · exact absurd (digits _ List.mem_cons_self) (by decide)
  · exact absurd (digits _ List.mem_cons_self) (by decide)
  · cases is
    simp only [decimal, Option.map_some, finite, Bool.false_eq_true, false_and, if_false]

theorem trim_toKbps : trim (toKbps rate).toList = (toKbps rate).toList := by
  rw [toList_toKbps]
  have digits : ∀ c ∈ Nat.toDigits 10 (rate.toNat / 1000), isDigit c = true :=
    fun _ => isDigit_of_mem_toDigits
  obtain ⟨c, cs, is⟩ := List.exists_cons_of_ne_nil (Nat.toDigits_ne_nil (n := rate.toNat / 1000) (b := 10))
  rw [is] at digits ⊢
  have begins : isBlank c = false := isBlank_of_isDigit (digits c List.mem_cons_self)
  rw [trim, List.cons_append, List.dropWhile_cons_of_neg (by rw [begins]; exact Bool.false_ne_true)]
  have ends : trimEnd (c :: (cs ++ [' ', 'K', 'b', 'p']) ++ ['s']) =
      c :: (cs ++ [' ', 'K', 'b', 'p']) ++ ['s'] := trimEnd_append (by decide)
  rwa [List.cons_append, List.append_assoc] at ends

/-- A rate is read as its number and its unit are. -/
theorem ofText?_of_split {s : String} {number unit : List Char} {x : Binary64}
    (split : trim s.toList = number ++ ' ' :: unit) (solid : ∀ c ∈ number, (c != ' ') = true)
    (read : readNumber? number = some x) (known : unit? (String.ofList (trim unit)) = some k) :
    ofText? s = some (UInt64.ofNat ((x.mulNat k).toNatClamped limit)) := by
  unfold ofText?
  simp only [split, List.dropWhile_append_of_pos solid, List.takeWhile_append_of_pos solid, bne_self_eq_false,
    List.dropWhile_cons, List.takeWhile_cons, Bool.false_eq_true, if_false, List.append_nil, read, known]

/-- **A rate is read as 0 only where it is written as 0.** -/
theorem ofText?_toKbps (rate : UInt64) :
    ∃ r, ofText? (toKbps rate) = some r ∧ (r ≠ 0 ↔ 1000 ≤ rate.toNat) := by
  have below : rate.toNat / 1000 < 2 ^ 64 := (Nat.div_le_self _ _).trans_lt rate.toNat_lt
  obtain ⟨x, read, value⟩ := readNumber?_toDigits below
  have solid : ∀ c ∈ Nat.toDigits 10 (rate.toNat / 1000), (c != ' ') = true := by
    intro c mem
    refine bne_iff_ne.2 fun is => ?_
    have digit := isDigit_of_mem_toDigits mem
    rw [is] at digit
    cases digit
  refine ⟨_, ofText?_of_split (trim_toKbps.trans toList_toKbps) solid read (k := 1000) (by decide), ?_⟩
  have bounded : (x.mulNat 1000).toNatClamped limit < UInt64.size :=
    (Binary64.toNatClamped_le _ _).trans_lt (by decide)
  rw [Ne, ← UInt64.toNat_inj, UInt64.toNat_ofNat_of_lt' bounded]
  obtain ⟨rfl, zero⟩ | ⟨one, positive⟩ := value
  · have none : ((Binary64.finite 0 0).mulNat 1000).toNatClamped limit = 0 := by decide
    rw [none]
    exact iff_of_false (fun h => h rfl) (by omega)
  · have more : 0 < (x.mulNat 1000).toNatClamped limit :=
      (one.mulNat (by decide)).toNatClamped_pos (by decide)
    exact iff_of_true (Nat.ne_of_gt more) (by omega)

/-! ## Limits of a UE -/

/-- What is read of a rate that may be left out, where nothing said is unlimited. -/
def heard? : Option String → Option UInt64
  | none => some 0
  | some s => ofText? s

/-- A text says a number of `Kbps` that is not 0 and not above a rate; it need not be whole. -/
def Bounds (rate : UInt64) (s : String) : Prop :=
  ∃ cs k, ∃ e : Int, s.toList = cs ++ [' ', 'K', 'b', 'p', 's'] ∧ readDecimal? cs = some (k, e) ∧
    k ≠ 0 ∧ k * 10 ^ e.toNat * 1000 ≤ rate.toNat * 10 ^ (-e).toNat

/-- A limit is handed over as one: the rate is given exactly if it is limited, as a number of `Kbps`
that is not 0 and not above the limit, and whoever reads it takes the rate for limited as well. -/
structure KeepsLimit (rate : UInt64) (text : Option String) : Prop where
  given : text.isSome = true ↔ rate ≠ 0
  number : ∀ s, text = some s → Bounds rate s
  heard : ∃ r, heard? text = some r ∧ (r ≠ 0 ↔ rate ≠ 0)

end Bitrate

/-- A direction of an aggregate bit rate. -/
inductive Direction where
  | uplink | downlink
  deriving DecidableEq

/-- The rate of a direction. -/
def Ambr.rate (a : Ambr) : Direction → UInt64
  | .uplink => a.uplink
  | .downlink => a.downlink

/-- The text of a direction. -/
def Document.AmbrBody.text? (b : Document.AmbrBody) : Direction → Option String
  | .uplink => b.uplink
  | .downlink => b.downlink

namespace Relocation

open Bitrate Document

variable {n : Node} {u : Nat} {x : Ue} {name : String} {rate : UInt64}

/-- Each direction is given in its own words, also where both are left out at once. -/
theorem text?_ambrBody (a : Ambr) (d : Direction) :
    (ambrBody a).bind (·.text? d) = rateText (a.rate d) := by
  unfold ambrBody
  split
  · rename_i uplink downlink
    cases d with
    | uplink => exact uplink.symm
    | downlink => exact downlink.symm
  · cases d <;> rfl

theorem isSome_rateText : (rateText rate).isSome = true ↔ rate ≠ 0 := by
  unfold rateText
  split <;> simpa

theorem eq_of_rateText {s : String} (given : rateText rate = some s) :
    rate ≠ 0 ∧ s = toString (rate.toNat / 1000) ++ " Kbps" := by
  unfold rateText at given
  split at given
  · cases given
  · rename_i limited
    exact ⟨limited, (Option.some.inj given).symm⟩

theorem exists_heard?_rateText (rate : UInt64) :
    ∃ r, heard? (rateText rate) = some r ∧ (r ≠ 0 ↔ 1000 ≤ rate.toNat) := by
  unfold rateText
  split
  · rename_i unlimited
    exact ⟨0, rfl, by simp [unlimited]⟩
  · exact ofText?_toKbps rate

/-- A limit of 1 `Kbps` or more is handed over as one, and one below is not. -/
theorem keepsLimit_rateText_iff : KeepsLimit rate (rateText rate) ↔ rate = 0 ∨ 1000 ≤ rate.toNat := by
  have limited : 1000 ≤ rate.toNat → rate ≠ 0 := by
    rintro large rfl
    exact absurd large (by decide)
  obtain ⟨r, heard, nonzero⟩ := exists_heard?_rateText rate
  constructor
  · intro keeps
    obtain ⟨r', heard', same⟩ := keeps.heard
    rw [heard] at heard'
    cases heard'
    by_cases unlimited : rate = 0
    · exact .inl unlimited
    · exact .inr (nonzero.1 (same.2 unlimited))
  · intro large
    refine ⟨isSome_rateText, fun s given => ?_, r, heard, nonzero.trans ?_⟩
    · obtain ⟨nonzero, rfl⟩ := eq_of_rateText given
      have large := large.resolve_left nonzero
      refine ⟨_, _, 0, toList_toKbps, Text.readDecimal?_toDigits _, by omega, ?_⟩
      simpa using Nat.div_mul_le_self rate.toNat 1000
    · exact ⟨limited, fun nonzero => large.resolve_left nonzero⟩

/-- **A limit is handed over rounded down, and one below 1 `Kbps` gets lost.** The context of every UE
that is found is given, with a text for each direction that is limited and for no other; the number in
it is that of the whole `Kbps` of the limit, and who reads the text takes the direction for limited
exactly from 1 `Kbps` on. So a limit is handed over as one exactly if it is no smaller. -/
theorem exec_request_ambr (found : n.context.findUe? name = some u)
    (known : n.context.ues.get? u = some x) (b : RelocationBody) :
    ∃ answer, (request (some name) b).exec n = (.ok answer, n) ∧ ∀ d : Direction,
      let rate := x.ambr.rate d
      let text := answer.ueContext.ambr.bind (·.text? d)
      (text.isSome = true ↔ rate ≠ 0) ∧
      (∀ s, text = some s → s = toString (rate.toNat / 1000) ++ " Kbps") ∧
      (∃ r, heard? text = some r ∧ (r ≠ 0 ↔ 1000 ≤ rate.toNat)) ∧
      (KeepsLimit rate text ↔ rate = 0 ∨ 1000 ≤ rate.toNat) := by
  refine ⟨_, exec_request found known b, fun d => ?_⟩
  intro rate text
  have is : text = rateText rate := text?_ambrBody x.ambr d
  rw [is]
  exact ⟨isSome_rateText, fun s given => (eq_of_rateText given).2, exists_heard?_rateText rate,
    keepsLimit_rateText_iff⟩

/-- A context with one UE, of an aggregate bit rate. -/
def rated (ambr : Ambr) : Context := Context.oneUe.modifyUe 1 fun x => { x with ambr }

set_option maxRecDepth 4000 in
/-- The hypotheses are satisfiable: a limit of some `Kbps` is handed over as one, beside a direction
that is unlimited. -/
theorem exec_request_ambr_uplink :
    let n : Node := { context := rated { uplink := 1500 } }
    ∃ x answer, (n.context.findUe? "imsi-1" = some 1 ∧ n.context.ues.get? 1 = some x) ∧
      (request (some "imsi-1") ⟨.initialRegistration, .threeGpp⟩).exec n = (.ok answer, n) ∧
      x.ambr = { uplink := 1500 } ∧
      ∀ d, KeepsLimit (x.ambr.rate d) (answer.ueContext.ambr.bind (·.text? d)) := by
  intro n
  have found : n.context.findUe? "imsi-1" = some 1 := by decide
  obtain ⟨x, known⟩ : ∃ x, n.context.ues.get? 1 = some x := Option.isSome_iff_exists.1 (by decide)
  have is : (n.context.ues.get? 1).map (·.ambr) = some { uplink := 1500 } := by decide
  rw [known, Option.map_some, Option.some_inj] at is
  obtain ⟨answer, done, given⟩ := exec_request_ambr found known ⟨.initialRegistration, .threeGpp⟩
  refine ⟨x, answer, ⟨found, known⟩, done, is, fun d => (given d).2.2.2.2 ?_⟩
  rw [is]
  cases d <;> decide

set_option maxRecDepth 4000 in
/-- A limit of 500 bits per second is given as 0, and read as no limit; `0.5 Kbps` would keep it. -/
theorem not_keepsLimit_slow :
    let n : Node := { context := rated { uplink := 500 } }
    ∃ x answer, n.context.findUe? "imsi-1" = some 1 ∧ n.context.ues.get? 1 = some x ∧
      (request (some "imsi-1") ⟨.initialRegistration, .threeGpp⟩).exec n = (.ok answer, n) ∧
      x.ambr.uplink = 500 ∧ answer.ueContext.ambr = some { uplink := some "0 Kbps" } ∧
      Bitrate.ofText? "0 Kbps" = some 0 ∧
      ¬KeepsLimit (x.ambr.rate .uplink) (answer.ueContext.ambr.bind (·.text? .uplink)) ∧
      KeepsLimit (x.ambr.rate .uplink) (some "0.5 Kbps") := by
  intro n
  have found : n.context.findUe? "imsi-1" = some 1 := by decide
  obtain ⟨x, known⟩ : ∃ x, n.context.ues.get? 1 = some x := Option.isSome_iff_exists.1 (by decide)
  have is : (n.context.ues.get? 1).map (·.ambr) = some { uplink := 500 } := by decide
  rw [known, Option.map_some, Option.some_inj] at is
  have text : ambrBody x.ambr = some { uplink := some "0 Kbps" } := by
    rw [is]
    decide
  refine ⟨x, _, found, known, exec_request found known _, by rw [is], text, by decide, fun keeps => ?_, ?_⟩
  · obtain ⟨r, heard, limited⟩ := keeps.heard
    have heard : heard? ((ambrBody x.ambr).bind (·.text? .uplink)) = some r := heard
    rw [text] at heard
    have unlimited : heard? (some "0 Kbps") = some 0 := by decide
    rw [show r = 0 from Option.some.inj (heard.symm.trans unlimited), is] at limited
    exact limited.2 (by decide) rfl
  · rw [is]
    refine ⟨by decide, ?_, 500, by decide, by decide⟩
    rintro _ ⟨⟩
    exact ⟨['0', '.', '5'], 5, -1, by decide, by decide, by decide, by decide⟩

end Relocation
end Amf
