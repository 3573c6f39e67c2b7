import Amf.Binary64
import Amf.Text.Decimal

/-!
# YAML scalars

A scalar without quotes is resolved by its form:

| form | scalar |
| --- | --- |
| nothing, `~`, `null` | null |
| `true`, `false` | a truth value |
| digits with an optional sign, `0x`, `0o`, `0b` | an integer |
| two digits or more, the first of them `0` | a text |
| any other decimal number in the range of binary64, `.inf`, `.nan` | a number |
| anything else | a text |

The words are written in lower case, in upper case, or with a capital. An integer beyond 64 bits but
within 128 is refused; one beyond 128 bits is a number. A tag of one of these types asks for its form.
-/

namespace Amf
namespace Yaml

open Text

/-- A number of the binary64 format; the two zeros are one, and so is whatever is no number. -/
inductive Number where
  /-- The value `units · 2 ^ -1074`. -/
  | finite (units : Int)
  /-- An infinity. -/
  | infinite (negative : Bool)
  /-- No number. -/
  | nan
  deriving DecidableEq, Repr, Inhabited

/-- A scalar. -/
inductive Scalar where
  /-- The null value. -/
  | null
  /-- A truth value. -/
  | bool (b : Bool)
  /-- An integer of 64 bits, signed or unsigned. -/
  | int (n : Int)
  /-- A number that is not written as an integer of 64 bits. -/
  | number (x : Number)
  /-- A text. -/
  | str (s : String)
  deriving DecidableEq, Repr, Inhabited

namespace Scalar

/-- A word in lower case, with a capital, or in upper case. -/
def isWord (word : String) (s : String) : Bool :=
  s = word || s = word.capitalize || s = word.toUpper

/-- The value of a digit in a radix up to 16. -/
def radixDigit? (radix : Nat) (c : Char) : Option Nat :=
  let value :=
    if c.isDigit then some (c.toNat - '0'.toNat)
    else if 'a' ≤ c ∧ c ≤ 'f' then some (c.toNat - 'a'.toNat + 10)
    else if 'A' ≤ c ∧ c ≤ 'F' then some (c.toNat - 'A'.toNat + 10)
    else none
  value.filter (· < radix)

/-- The value of one or more digits in a radix up to 16. -/
def readRadix? (radix : Nat) (cs : List Char) : Option Nat :=
  if cs.isEmpty then none
  else (cs.mapM (radixDigit? radix)).map (List.foldl (fun n d => n * radix + d) 0)

/-- An integer without sign: a radix mark and digits, or decimal digits. Two decimal digits or more of
which the first is `0` are no integer. -/
def readMagnitude? : List Char → Option Nat
  | '0' :: 'x' :: cs => readRadix? 16 cs
  | '0' :: 'o' :: cs => readRadix? 8 cs
  | '0' :: 'b' :: cs => readRadix? 2 cs
  | ['0'] => some 0
  | '0' :: _ => none
  | cs => readDigits? cs

/-- Text without a sign in front, and whether the sign was a minus. -/
def splitSign : List Char → Bool × List Char
  | '+' :: cs => (false, cs)
  | '-' :: cs => (true, cs)
  | cs => (false, cs)

/-- An integer. -/
def readInteger? (cs : List Char) : Option Int :=
  let (negative, magnitude) := splitSign cs
  (readMagnitude? magnitude).map fun n => if negative then - Int.ofNat n else Int.ofNat n

/-- An integer that some word of `bits` bits holds, signed or unsigned. -/
def fits (bits : Nat) (n : Int) : Bool :=
  - Int.ofNat (1 <<< (bits - 1)) ≤ n && n < Int.ofNat (1 <<< bits)

/-- Two decimal digits or more, the first of them `0`, with an optional sign. -/
def isZeroPadded (cs : List Char) : Bool :=
  match (splitSign cs).2 with
  | '0' :: d :: ds => (d :: ds).all isDigit
  | _ => false

/-- A number: a decimal one in the range of binary64, an infinity, or no number at all. -/
def readNumber? (cs : List Char) : Option Number :=
  let (negative, magnitude) := splitSign cs
  if [".inf", ".Inf", ".INF"].contains (String.ofList magnitude) then some (.infinite negative)
  else if [".nan", ".NaN", ".NAN"].contains (String.ofList cs) then some .nan
  else do
    let (digits, scale) ← readDecimal? magnitude
    let units ← (Binary64.ofDecimal digits scale).units?
    return .finite (if negative then - Int.ofNat units else Int.ofNat units)

/-- The null value by its word or sign. -/
def isNull (s : String) : Bool := s = "~" || isWord "null" s

/-- A truth value by its word. -/
def readBool? (s : String) : Option Bool :=
  if isWord "true" s then some true else if isWord "false" s then some false else none

/-- The scalar of an unquoted text that is no integer. -/
def ofNonInteger (s : String) : Scalar :=
  if s.isEmpty || isNull s then null
  else match readBool? s with
    | some b => bool b
    | none =>
      match if isZeroPadded s.toList then none else readNumber? s.toList with
      | some x => number x
      | none => str s

/-- The scalar of an unquoted text. -/
def ofPlain? (s : String) : Option Scalar :=
  match readInteger? s.toList with
  | some n => if fits 64 n then some (int n) else if fits 128 n then none else some (ofNonInteger s)
  | none => some (ofNonInteger s)

/-- The scalar of a text, which is resolved by its form if it is plain. -/
def ofText? (plain : Bool) (s : String) : Option Scalar :=
  if plain then ofPlain? s else some (str s)

/-- The scalar of a text with a tag: of a type of the format, in the form of that type, or else a
text. -/
def ofTagged? (tag : String) (s : String) : Option Scalar :=
  match tag with
  | "tag:yaml.org,2002:null" => if isNull s then some null else none
  | "tag:yaml.org,2002:bool" => (readBool? s).map bool
  | "tag:yaml.org,2002:int" => ((readInteger? s.toList).filter (fits 64)).map int
  | "tag:yaml.org,2002:float" => (readNumber? s.toList).map number
  | _ => some (str s)

end Scalar
end Yaml
end Amf
