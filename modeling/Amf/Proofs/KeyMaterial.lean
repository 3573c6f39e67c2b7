import Amf.Proofs.Numerals
import Amf.Proofs.Procedures
import Amf.Proofs.Provisioned

/-!
# Keys that are handed over

The context of a UE that another AMF asks for may hold key material: the identifier of the key set and
the key, in hexadecimal digits that are read back as the octets of the key (`Octets.readHex?_hex`). What
is handed over is the key of the UE (`Relocation.exec_request_seaf`). Whether a key is handed over is
decided by the numbers of the key set, and not by whether the keys of the UE can be used
(`Ue.securityValid`):

| security context | identifier | type | usable | handed over |
| --- | --- | --- | --- | --- |
| there | not 0, not 7 | not 0 | yes | yes |
| there | 0 | | yes | no |
| there | not 7 | 0, native | yes | no |
| | 7, no key | not 0 | no | yes |
| none | not 0 | not 0 | no | yes |
| else | | | no | no |
-/

namespace Amf

open Document

/-! ## Octets in hexadecimal -/

namespace Octets

/-- The octets of hexadecimal digits of either case, two digits each. -/
def readHex? : List Char → Option Octets
  | [] => some []
  | [_] => none
  | high :: low :: rest => do
    let high ← Text.hexDigit? high
    let low ← Text.hexDigit? low
    return UInt8.ofNat (high * 16 + low) :: (← readHex? rest)

/-- **Octets are read back from their hexadecimal digits.** -/
theorem readHex?_hex : ∀ xs : Octets, readHex? (hex xs) = some xs
  | [] => rfl
  | x :: xs => by
    have small : x.toNat < 256 := x.toNat_lt
    have high := Text.hexDigit?_digitChar (x.toNat / 16) (by omega)
    have low := Text.hexDigit?_digitChar (x.toNat % 16) (by omega)
    have octet : UInt8.ofNat (x.toNat / 16 * 16 + x.toNat % 16) = x := by
      rw [Nat.div_add_mod' x.toNat 16, UInt8.ofNat_toNat]
    show readHex? (Nat.digitChar (x.toNat / 16) :: Nat.digitChar (x.toNat % 16) :: hex xs) = _
    simp only [readHex?, high, low, readHex?_hex xs, Option.bind_eq_bind, Option.bind_some, octet]
    rfl

end Octets

/-! ## Keys of a UE -/

/-- The key material is that of a UE: its key set, with type 0 as a native one, and its key. -/
structure Document.SeafBody.IsOf (k : SeafBody) (x : Ue) : Prop where
  ksi : k.keySet.ksi = x.keySet.ksi
  native : k.keySet.tsc = .native ↔ x.keySet.tsc = 0
  kind : k.key.kind = .kamf
  key : Octets.readHex? k.key.value.toList = some x.kamf.toList

/-- The keys of a UE are handed over if they can be used, and only then. -/
def Ue.HandsOver (x : Ue) (seaf : Option SeafBody) : Prop :=
  (seaf.isSome = true ↔ x.securityValid = true) ∧ ∀ k, seaf = some k → k.IsOf x

namespace Relocation

variable {n : Node} {u : Nat} {x : Ue} {name : String}

theorem seafBody_isOf {k : SeafBody} (given : seafBody x = some k) : k.IsOf x := by
  unfold seafBody at given
  split at given
  · cases given
  · cases given
    refine ⟨rfl, ?_, rfl, ?_⟩
    · show securityOrigin x.keySet.tsc = .native ↔ _
      unfold securityOrigin
      split <;> simp_all
    · rw [String.toList_ofList]
      exact Octets.readHex?_hex _

theorem isSome_seafBody_iff :
    (seafBody x).isSome = true ↔ x.keySet.ksi ≠ 0 ∧ x.keySet.tsc ≠ 0 := by
  unfold seafBody
  split
  · rename_i none
    simpa using fun ksi => none.resolve_left ksi
  · rename_i some
    simpa using not_or.1 some

theorem handsOver_seafBody_iff : x.HandsOver (seafBody x) ↔
    (x.securityValid = true ↔ x.keySet.ksi ≠ 0 ∧ x.keySet.tsc ≠ 0) := by
  unfold Ue.HandsOver
  rw [isSome_seafBody_iff, and_iff_left fun _ => seafBody_isOf]
  exact iff_comm

/-- **What is handed over is the key of the UE; whether it is, depends on the numbers of the key set.**
The context of every UE that is found is given, with key material exactly if neither the identifier of
the key set nor its type is 0, and what is given is read back as the key set and the key of the UE. So
keys are handed over just as they can be used for the UEs of which both say the same. -/
theorem exec_request_seaf (found : n.context.findUe? name = some u)
    (known : n.context.ues.get? u = some x) (b : RelocationBody) :
    ∃ answer, (request (some name) b).exec n = (.ok answer, n) ∧
      (answer.ueContext.seaf.isSome = true ↔ x.keySet.ksi ≠ 0 ∧ x.keySet.tsc ≠ 0) ∧
      (∀ k, answer.ueContext.seaf = some k → k.IsOf x) ∧
      (x.HandsOver answer.ueContext.seaf ↔
        (x.securityValid = true ↔ x.keySet.ksi ≠ 0 ∧ x.keySet.tsc ≠ 0)) :=
  ⟨_, exec_request found known b, isSome_seafBody_iff, fun _ => seafBody_isOf, handsOver_seafBody_iff⟩

/-- A context with one UE that has a security context, with a key set. -/
def keyed (keySet : KeySet) : Context :=
  Context.oneUe.modifyUe 1 fun x =>
    { x with securityContext := true, keySet, kamf := .replicate 32 0xab }

set_option maxRecDepth 4000 in
/-- The hypotheses are satisfiable: a mapped security context goes with its key. -/
theorem exec_request_seaf_mapped :
    let n : Node := { context := keyed ⟨1, 2⟩ }
    ∃ x answer, (n.context.findUe? "imsi-1" = some 1 ∧ n.context.ues.get? 1 = some x) ∧
      (request (some "imsi-1") ⟨.initialRegistration, .threeGpp⟩).exec n = (.ok answer, n) ∧
      answer.ueContext.seaf.isSome = true ∧ x.HandsOver answer.ueContext.seaf := by
  intro n
  have found : n.context.findUe? "imsi-1" = some 1 := by decide
  obtain ⟨x, known⟩ : ∃ x, n.context.ues.get? 1 = some x := Option.isSome_iff_exists.1 (by decide)
  obtain ⟨answer, done, given, -, exact_iff⟩ :=
    exec_request_seaf found known ⟨.initialRegistration, .threeGpp⟩
  have is : (n.context.ues.get? 1).map (fun x => (x.keySet, x.securityValid)) = some (⟨1, 2⟩, true) := by
    decide
  rw [known, Option.map_some, Option.some_inj, Prod.mk.injEq] at is
  obtain ⟨keySet, valid⟩ := is
  rw [keySet] at given exact_iff
  rw [valid] at exact_iff
  exact ⟨x, answer, ⟨found, known⟩, done, given.2 (by decide), exact_iff.2 (by decide)⟩

set_option maxRecDepth 4000 in
/-- A native security context, whose keys can be used, goes without its key. -/
theorem not_handsOver_native :
    let n : Node := { context := keyed ⟨0, 2⟩ }
    ∃ x answer, n.context.findUe? "imsi-1" = some 1 ∧ n.context.ues.get? 1 = some x ∧
      (request (some "imsi-1") ⟨.initialRegistration, .threeGpp⟩).exec n = (.ok answer, n) ∧
      x.securityValid = true ∧ answer.ueContext.seaf = none ∧
      ¬x.HandsOver answer.ueContext.seaf := by
  intro n
  have found : n.context.findUe? "imsi-1" = some 1 := by decide
  obtain ⟨x, known⟩ : ∃ x, n.context.ues.get? 1 = some x := Option.isSome_iff_exists.1 (by decide)
  have valid : (n.context.ues.get? 1).map Ue.securityValid = some true := by decide
  have dropped : (n.context.ues.get? 1).map seafBody = some none := by decide
  rw [known, Option.map_some, Option.some_inj] at valid dropped
  refine ⟨x, _, found, known, exec_request found known _, valid, dropped, fun exactly => ?_⟩
  have given := exactly.1.2 valid
  rw [show (ueContext _ _ x _).seaf = none from dropped] at given
  cases given

end Relocation
end Amf
