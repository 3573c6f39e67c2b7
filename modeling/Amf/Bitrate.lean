import Amf.Binary64
import Amf.Text.Blank
import Amf.Text.Decimal

/-!
# Bit rates

Bit rates in bits per second, where 0 stands for "unlimited". On the service interface a rate is a
decimal number, a space and a unit:

| unit | bits per second |
| --- | ---: |
| `bps` | 1 |
| `Kbps` | 10³ |
| `Mbps` | 10⁶ |
| `Gbps` | 10⁹ |
| `Tbps` | 10¹² |

The number is read as the nearest binary64 number, multiplied by its unit in binary64, and rounded to
the nearest integer, a half upwards. Rates are written in whole `Kbps`.
-/

namespace Amf

open Text

/-- The two directions of an aggregate bit rate, 0 for an unlimited one. -/
structure Ambr where
  /-- From the network to the UE. -/
  downlink : UInt64 := 0
  /-- From the UE to the network. -/
  uplink : UInt64 := 0
  deriving DecidableEq, Repr, Inhabited

namespace Bitrate

/-- A finite number that is not negative. A zero may carry a minus sign, also one that only rounding
makes zero. -/
def readNumber? (cs : List Char) : Option Binary64 :=
  let (negative, magnitude) := match cs with
    | '+' :: r => (false, r)
    | '-' :: r => (true, r)
    | r => (false, r)
  match (readDecimal? magnitude).map fun d => Binary64.ofDecimal d.1 d.2 with
  | some (.finite m e) => if negative ∧ m ≠ 0 then none else some (.finite m e)
  | _ => none

/-- The bits per second of a unit. -/
def unit? (s : String) : Option Nat :=
  match s with
  | "bps" => some 1
  | "Kbps" => some 1000
  | "Mbps" => some 1000000
  | "Gbps" => some 1000000000
  | "Tbps" => some 1000000000000
  | _ => none

/-- The largest rate. -/
def limit : Nat := UInt64.size - 1

/-- A rate from its text: blanks around it and around the unit do not count, and a rate above
`limit` is `limit`. -/
def ofText? (s : String) : Option UInt64 :=
  let cs := trim s.toList
  match cs.dropWhile (· != ' ') with
  | [] => none
  | _ :: unit =>
    match readNumber? (cs.takeWhile (· != ' ')), unit? (String.ofList (trim unit)) with
    | some x, some k => some (UInt64.ofNat ((x.mulNat k).toNatClamped limit))
    | _, _ => none

/-- A rate in whole `Kbps`, rounded down. -/
def toKbps (rate : UInt64) : String :=
  toString (rate.toNat / 1000) ++ " Kbps"

end Bitrate
end Amf
