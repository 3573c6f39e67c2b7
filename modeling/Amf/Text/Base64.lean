import Amf.Octets

/-!
# Base64

Octets as text in the standard alphabet, three octets to four characters, padded with `=`.
-/

namespace Amf
namespace Text

/-- The character of a six-bit value. -/
def base64Char (n : Nat) : Char :=
  if n < 26 then Char.ofNat ('A'.toNat + n)
  else if n < 52 then Char.ofNat ('a'.toNat + (n - 26))
  else if n < 62 then Char.ofNat ('0'.toNat + (n - 52))
  else if n = 62 then '+' else '/'

/-- Octets in base64. -/
def base64 : Octets → List Char
  | [] => []
  | [a] =>
    let n := a.toNat * 65536
    [base64Char (n / 262144), base64Char (n / 4096 % 64), '=', '=']
  | [a, b] =>
    let n := a.toNat * 65536 + b.toNat * 256
    [base64Char (n / 262144), base64Char (n / 4096 % 64), base64Char (n / 64 % 64), '=']
  | a :: b :: c :: r =>
    let n := a.toNat * 65536 + b.toNat * 256 + c.toNat
    base64Char (n / 262144) :: base64Char (n / 4096 % 64) :: base64Char (n / 64 % 64) ::
      base64Char (n % 64) :: base64 r

/-- The standard's three examples of padding. -/
example : base64 [102] = ['Z', 'g', '=', '='] ∧ base64 [102, 111] = ['Z', 'm', '8', '='] ∧
    base64 [102, 111, 111] = ['Z', 'm', '9', 'v'] := by decide

end Text
end Amf
