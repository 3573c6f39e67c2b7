import Amf.Text.Numeral
import Amf.Text.Pieces

/-!
# Network addresses

Literals of IPv4 and IPv6 addresses:

| literal | form |
| --- | --- |
| IPv4 | four decimal numbers below 256, no leading zeros, with points between them |
| IPv6 | eight groups of one to four hexadecimal digits, with colons between them |

In an IPv6 literal `::` stands for one group of zeros or more, and an IPv4 literal may take the place
of the last two groups. An address is written with `::` for its first longest run of two zero groups
or more; an IPv4-mapped one ends in an IPv4 literal.
-/

namespace Amf

open Text

/-- A network address. -/
inductive Address where
  /-- Four octets. -/
  | v4 (octets : List Nat)
  /-- Eight groups of sixteen bits. -/
  | v6 (groups : List Nat)
  deriving DecidableEq, Repr, Inhabited

namespace Address

/-- A decimal number below 256 without leading zeros. -/
def octet? (cs : List Char) : Option Nat :=
  if cs.length ≤ 3 ∧ (cs.length = 1 ∨ cs.head? ≠ some '0') then
    (readDigits? cs).filter (· < 256)
  else none

/-- The four octets of an IPv4 literal. -/
def v4Octets? (cs : List Char) : Option (List Nat) :=
  let ps := pieces '.' cs
  if ps.length = 4 then ps.mapM octet? else none

/-- A group of one to four hexadecimal digits. -/
def group? (cs : List Char) : Option Nat :=
  if 1 ≤ cs.length ∧ cs.length ≤ 4 then readHexadecimal? cs else none

/-- Groups with colons between them; an IPv4 literal at the end counts as two where `v4Tail`. -/
def groups? (v4Tail : Bool) : List (List Char) → Option (List Nat)
  | [] => some []
  | [p] =>
    match if v4Tail then v4Octets? p else none with
    | some [a, b, c, d] => some [a * 256 + b, c * 256 + d]
    | _ => (group? p).map fun g => [g]
  | p :: ps =>
    match group? p, groups? v4Tail ps with
    | some g, some gs => some (g :: gs)
    | _, _ => none

/-- The groups of one side of a `::`, or of a literal without one; none of an empty side. -/
def side? (v4Tail : Bool) (cs : List Char) : Option (List Nat) :=
  if cs.isEmpty then some [] else groups? v4Tail (pieces ':' cs)

/-- What stands before the first `::` and after it. -/
def splitDoubleColon : List Char → Option (List Char × List Char)
  | ':' :: ':' :: r => some ([], r)
  | c :: r => (splitDoubleColon r).map fun (a, b) => (c :: a, b)
  | [] => none

/-- The eight groups of an IPv6 literal. -/
def v6Groups? (cs : List Char) : Option (List Nat) :=
  match splitDoubleColon cs with
  | some (front, back) =>
    match side? false front, side? true back with
    | some f, some b =>
      if f.length + b.length < 8 then
        some (f ++ List.replicate (8 - (f.length + b.length)) 0 ++ b)
      else none
    | _, _ => none
  | none => (groups? true (pieces ':' cs)).filter (·.length = 8)

/-- The address of a literal. -/
def ofLiteral? (s : String) : Option Address :=
  match v4Octets? s.toList with
  | some octets => some (v4 octets)
  | none => (v6Groups? s.toList).map v6

/-- Numbers with a separator between them. -/
def joined (sep : String) (digits : Nat → List Char) (ns : List Nat) : String :=
  sep.intercalate (ns.map fun n => String.ofList (digits n))

/-- Start and length of the first longest run of zeros, with positions counted from `at`; `run` is
the length of the run that ends just before `at`, and `best` the best one so far. -/
def longestZeros (position run : Nat) (best : Nat × Nat) : List Nat → Nat × Nat
  | [] => best
  | g :: gs =>
    if g = 0 then
      let better := best.2 < run + 1
      longestZeros (position + 1) (run + 1)
        (if better then (position - run, run + 1) else best) gs
    else longestZeros (position + 1) 0 best gs

/-- The literal of eight groups. -/
def v6Literal (groups : List Nat) : String :=
  match groups with
  | [0, 0, 0, 0, 0, 0xffff, a, b] =>
    "::ffff:" ++ joined "." decimal [a / 256, a % 256, b / 256, b % 256]
  | _ =>
    let (start, length) := longestZeros 0 0 (0, 0) groups
    if 1 < length then
      joined ":" hexadecimal (groups.take start) ++ "::" ++
        joined ":" hexadecimal (groups.drop (start + length))
    else joined ":" hexadecimal groups

/-- The literal of an address. -/
def literal : Address → String
  | v4 octets => joined "." decimal octets
  | v6 groups => v6Literal groups

end Address
end Amf
