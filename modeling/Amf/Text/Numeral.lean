/-!
# Numerals

Numerals as they are read and written here:

| reader | accepts |
| --- | --- |
| `readDigits?` | one or more digits `0` to `9` |
| `readUnsigned?` | one `+` at most, then digits, the value below a bound |
| `readHexadecimal?` | hexadecimal digits of either case |

and numerals written with a least width.
-/

namespace Amf
namespace Text

/-- The value of a decimal digit. -/
def digit? (c : Char) : Option Nat :=
  if '0'.toNat ≤ c.toNat ∧ c.toNat ≤ '9'.toNat then some (c.toNat - '0'.toNat) else none

theorem digit?_lt {c : Char} {d : Nat} (h : digit? c = some d) : d < 10 := by
  unfold digit? at h
  split at h
  · rename_i hc
    have h9 : '9'.toNat = 57 := rfl
    have h0 : '0'.toNat = 48 := rfl
    simp only [Option.some.injEq] at h
    omega
  · simp at h

/-- A decimal digit. -/
def isDigit (c : Char) : Bool := (digit? c).isSome

/-- The value of digits appended to a number already read. -/
def foldDigits (acc : Nat) : List Char → Option Nat
  | [] => some acc
  | c :: cs => (digit? c).bind fun d => foldDigits (acc * 10 + d) cs

/-- The value of one or more digits; leading zeros are allowed. -/
def readDigits? : List Char → Option Nat
  | [] => none
  | cs => foldDigits 0 cs

/-- The value of an unsigned numeral below `bound`: digits, with one `+` in front at most. -/
def readUnsigned? (bound : Nat) (cs : List Char) : Option Nat :=
  let digits := match cs with
    | '+' :: r => r
    | _ => cs
  (readDigits? digits).filter (· < bound)

theorem readUnsigned?_lt {bound n : Nat} {cs : List Char} (h : readUnsigned? bound cs = some n) :
    n < bound := by
  unfold readUnsigned? at h
  simpa using (Option.filter_eq_some_iff.1 h).2

/-- The value of a hexadecimal digit of either case. -/
def hexDigit? (c : Char) : Option Nat :=
  if 'a'.toNat ≤ c.toNat ∧ c.toNat ≤ 'f'.toNat then some (c.toNat - 'a'.toNat + 10)
  else if 'A'.toNat ≤ c.toNat ∧ c.toNat ≤ 'F'.toNat then some (c.toNat - 'A'.toNat + 10)
  else digit? c

/-- The value of hexadecimal digits; leading zeros are allowed. -/
def readHexadecimal? (cs : List Char) : Option Nat :=
  (cs.mapM hexDigit?).map (List.foldl (fun n d => n * 16 + d) 0)

/-- A number in decimal digits, without leading zeros. -/
def decimal (n : Nat) : List Char := Nat.toDigits 10 n

/-- A number in lower-case hexadecimal digits, without leading zeros. -/
def hexadecimal (n : Nat) : List Char := Nat.toDigits 16 n

/-- Text filled up with zeros in front to a least width. -/
def zeroFill (width : Nat) (cs : List Char) : List Char :=
  List.replicate (width - cs.length) '0' ++ cs

theorem length_zeroFill (width : Nat) (cs : List Char) :
    (zeroFill width cs).length = max width cs.length := by
  simp only [zeroFill, List.length_append, List.length_replicate]
  omega

end Text
end Amf
