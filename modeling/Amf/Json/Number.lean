import Amf.Binary64
import Amf.Json.Basic
import Amf.Text.Decimal

/-!
# JSON numbers

The numbers of JSON text. One without fraction and exponent that fits into 64 bits is an integer. Any other
is a binary64 number, kept as the shortest decimal that stands for it:

| text | number |
| --- | --- |
| `18446744073709551615`, `-9223372036854775808` | the integer |
| `18446744073709551616`, `-0`, `1.0`, `1e2` | a decimal |
| `007`, `1.`, `.5`, `+1`, `1e400` | none |

The binary64 number is computed and need not be the nearest one: as many of the digits as 64 bits hold
are an integer, which is rounded and then multiplied or divided by a power of ten that is rounded too. So
`1e-23` is read as `1.0000000000000001e-23`.
-/

namespace Amf
namespace Json

open Text

/-- Digits without a zero in front of others, and the rest. -/
def whole? (cs : List Char) : Option (List Char × List Char) :=
  match cs.takeWhile isDigit with
  | [] => none
  | ['0'] => some (['0'], cs.dropWhile isDigit)
  | '0' :: _ => none
  | ds => some (ds, cs.dropWhile isDigit)

/-- The digits after a point, if there is one, and the rest. -/
def fraction? : List Char → Option (List Char × List Char)
  | '.' :: cs =>
    match cs.takeWhile isDigit with
    | [] => none
    | ds => some (ds, cs.dropWhile isDigit)
  | cs => some ([], cs)

/-- An integer with digits appended as long as 64 bits hold it, and how many digits are left over. -/
def appendDigits (n : Nat) : List Char → Nat × Nat
  | [] => (n, 0)
  | c :: cs =>
    match (digit? c).filter fun d => n * 10 + d < UInt64.size with
    | some d => appendDigits (n * 10 + d) cs
    | none => (n, cs.length + 1)

theorem appendDigits_lt {n : Nat} (h : n < UInt64.size) (cs : List Char) :
    (appendDigits n cs).1 < UInt64.size := by
  fun_induction appendDigits n cs with
  | case1 => exact h
  | case2 n c cs d hd ih => exact ih (by simpa using (Option.filter_eq_some_iff.1 hd).2)
  | case3 => exact h

/-- The magnitude `whole.fraction · 10 ^ exponent`. -/
def magnitude (whole fraction : List Char) (exponent : Int) : Binary64 :=
  let (n, dropped) := appendDigits 0 whole
  let (m, unread) := appendDigits n fraction
  (Binary64.round m 1).timesTenTo (exponent + dropped - (fraction.length - unread))

/-- A binary64 number as a value, if it is finite. -/
def ofBinary64? (negative : Bool) (x : Binary64) : Option Json :=
  x.shortest?.map fun (digits, scale) => decimal negative digits scale

/-- An integer of 64 bits, signed or unsigned; no zero with a sign is one. -/
def ofInteger? (negative : Bool) (n : Nat) : Option Json :=
  if negative then if n = 0 ∨ 1 <<< 63 < n then none else some (int (- Int.ofNat n))
  else if n < UInt64.size then some (int (Int.ofNat n)) else none

/-- A character of a number. -/
def inNumber (c : Char) : Bool := isDigit c || ['+', '-', '.', 'e', 'E'].contains c

/-- A number. -/
def ofNumber? (cs : List Char) : Option Json := do
  let (negative, unsigned) := match cs with
    | '-' :: cs => (true, cs)
    | cs => (false, cs)
  let (whole, rest) ← whole? unsigned
  let (fraction, tail) ← fraction? rest
  let exponent ← readTail? tail
  let n ← readDigits? whole
  if rest.isEmpty then
    if let some j := ofInteger? negative n then return j
  ofBinary64? negative (magnitude whole fraction exponent)

example : (magnitude ['1'] [] (-23)).shortest? = some (10000000000000001, -39) := by decide +kernel

end Json
end Amf
