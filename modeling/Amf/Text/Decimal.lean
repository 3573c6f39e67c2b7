import Amf.Text.Numeral

/-!
# Decimal numbers

A decimal number without sign is digits with at most one point before, among or after them, and then
perhaps an exponent: `12.5`, `.5`, `5.`, `1e-3`. It is read as an integer and the power of ten that the
integer is multiplied by:

| text | integer | power of ten |
| --- | ---: | ---: |
| `12.5` | 125 | -1 |
| `1e-3` | 1 | -3 |
| `1.50E2` | 150 | 0 |
-/

namespace Amf
namespace Text

/-- An exponent after `e` or `E`: an optional sign, then digits. -/
def readExponent? : List Char → Option Int
  | '+' :: cs => (readDigits? cs).map Int.ofNat
  | '-' :: cs => (readDigits? cs).map fun n => - Int.ofNat n
  | cs => (readDigits? cs).map Int.ofNat

/-- What follows the digits of a number: nothing, or `e` and an exponent. -/
def readTail? : List Char → Option Int
  | [] => some 0
  | c :: cs => if c = 'e' ∨ c = 'E' then readExponent? cs else none

/-- The integer of a decimal number, and the power of ten that it is multiplied by. -/
def readDecimal? (cs : List Char) : Option (Nat × Int) :=
  let whole := cs.takeWhile isDigit
  let (fraction, tail) := match cs.dropWhile isDigit with
    | '.' :: r => (r.takeWhile isDigit, r.dropWhile isDigit)
    | r => ([], r)
  match readDigits? (whole ++ fraction), readTail? tail with
  | some digits, some exponent => some (digits, exponent - fraction.length)
  | _, _ => none

example : readDecimal? "12.5".toList = some (125, -1) := by decide

example : readDecimal? "1.50E2".toList = some (150, 0) := by decide

example : readDecimal? ".".toList = none := by decide

end Text
end Amf
