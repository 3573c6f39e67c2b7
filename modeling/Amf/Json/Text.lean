import Amf.Json.Number

/-!
# JSON as text

A JSON value as text without blanks, and the reader of JSON text:

| value | is written as |
| --- | --- |
| an integer | its digits |
| a decimal `digits · 10 ^ scale` | the digits, `e`, and the power of ten |
| a text | between quotes; quote, backslash and control characters as escapes, all else as it is |
| a list, an object | its items between brackets, commas between them |

Read are blanks between the parts, escapes of every kind, and the numbers of `Json.ofNumber?`.
-/

namespace Amf
namespace Json

open Text

/-! ## Writing -/

/-- A character of a text as it is written between quotes. -/
def escape (c : Char) : List Char :=
  match c with
  | '"' => ['\\', '"']
  | '\\' => ['\\', '\\']
  | '\x08' => ['\\', 'b']
  | '\t' => ['\\', 't']
  | '\n' => ['\\', 'n']
  | '\x0c' => ['\\', 'f']
  | '\r' => ['\\', 'r']
  | c =>
    if c.toNat < ' '.toNat then '\\' :: 'u' :: zeroFill 4 (hexadecimal c.toNat) else [c]

/-- A text between quotes. -/
def quote (s : String) : List Char := '"' :: (s.toList.flatMap escape ++ ['"'])

/-- An integer in digits. -/
def signed (n : Int) : List Char :=
  if n < 0 then '-' :: Text.decimal n.natAbs else Text.decimal n.natAbs

mutual

/-- A value in front of a text. -/
def write : Json → List Char → List Char
  | null, r => "null".toList ++ r
  | bool b, r => (toString b).toList ++ r
  | int n, r => signed n ++ r
  | decimal negative digits scale, r =>
    (if negative then ['-'] else []) ++ Text.decimal digits ++ 'e' :: (signed scale ++ r)
  | str s, r => quote s ++ r
  | arr items, r => '[' :: writeItems items (']' :: r)
  | obj members, r => '\x7b' :: writeMembers members ('\x7d' :: r)

/-- The items of a list, with commas between them, in front of a text. -/
def writeItems : List Json → List Char → List Char
  | [], r => r
  | [j], r => write j r
  | j :: js, r => write j (',' :: writeItems js r)

/-- The members of an object, with commas between them, in front of a text. -/
def writeMembers : List (String × Json) → List Char → List Char
  | [], r => r
  | [(name, j)], r => quote name ++ ':' :: write j r
  | (name, j) :: ms, r => quote name ++ ':' :: write j (',' :: writeMembers ms r)

end

/-- A value as text. -/
def text (j : Json) : String := String.ofList (write j [])

/-! ## Reading -/

/-- A blank between the parts of a text. -/
def isBlank (c : Char) : Bool := [' ', '\t', '\n', '\r'].contains c

/-- Text without the blanks in front. -/
def skipBlanks (cs : List Char) : List Char := cs.dropWhile isBlank

/-- The four hexadecimal digits of a code unit, and the rest. -/
def codeUnit? : List Char → Option (Nat × List Char)
  | a :: b :: c :: d :: cs => (readHexadecimal? [a, b, c, d]).map fun n => (n, cs)
  | _ => none

/-- The character of one code unit, or of two that are a surrogate pair, and the rest. -/
def codePoint? (cs : List Char) : Option (Char × List Char) := do
  let (n, r) ← codeUnit? cs
  if n.isValidChar then return (Char.ofNat n, r)
  match r with
  | '\\' :: 'u' :: r =>
    let (m, r) ← codeUnit? r
    if 0xd800 ≤ n ∧ n < 0xdc00 ∧ 0xdc00 ≤ m ∧ m < 0xe000 then
      return (Char.ofNat (0x10000 + (n - 0xd800) * 0x400 + (m - 0xdc00)), r)
    else none
  | _ => none

/-- The character of an escape, and the rest. -/
def unescape? : List Char → Option (Char × List Char)
  | 'u' :: cs => codePoint? cs
  | 'b' :: cs => some ('\x08', cs)
  | 't' :: cs => some ('\t', cs)
  | 'n' :: cs => some ('\n', cs)
  | 'f' :: cs => some ('\x0c', cs)
  | 'r' :: cs => some ('\r', cs)
  | c :: cs => if c = '"' ∨ c = '\\' ∨ c = '/' then some (c, cs) else none
  | [] => none

theorem length_of_codeUnit? {cs r : List Char} {n : Nat} (h : codeUnit? cs = some (n, r)) :
    r.length + 4 = cs.length := by
  unfold codeUnit? at h
  split at h
  · obtain ⟨_, _, h⟩ := Option.map_eq_some_iff.1 h
    simp only [Prod.mk.injEq] at h
    simp [← h.2]
  · simp at h

theorem length_of_codePoint? {cs r : List Char} {c : Char} (h : codePoint? cs = some (c, r)) :
    r.length < cs.length := by
  unfold codePoint? at h
  obtain ⟨⟨n, r₁⟩, h₁, h⟩ := Option.bind_eq_some_iff.1 h
  have l₁ := length_of_codeUnit? h₁
  simp only at h
  split at h
  · simp only [Option.pure_def, Option.some.injEq, Prod.mk.injEq] at h
    rw [← h.2]
    omega
  · split at h
    · obtain ⟨⟨m, r₂⟩, h₂, h⟩ := Option.bind_eq_some_iff.1 h
      have l₂ := length_of_codeUnit? h₂
      simp only [List.length_cons] at h l₁
      split at h
      · simp only [Option.pure_def, Option.some.injEq, Prod.mk.injEq] at h
        rw [← h.2]
        omega
      · simp at h
    · simp at h

/-- An escape takes up characters. -/
theorem length_of_unescape? {cs r : List Char} {c : Char} (h : unescape? cs = some (c, r)) :
    r.length < cs.length := by
  unfold unescape? at h
  split at h
  · have := length_of_codePoint? h
    rw [List.length_cons]
    omega
  all_goals grind

/-- The text between quotes, after the opening one, and the rest. -/
def unquote? (cs : List Char) : Option (List Char × List Char) :=
  match cs with
  | [] => none
  | c :: cs =>
    if c = '"' then some ([], cs)
    else if c = '\\' then
      match _h : unescape? cs with
      | none => none
      | some (d, r) => (unquote? r).map fun (s, r) => (d :: s, r)
    else if c.toNat < ' '.toNat then none
    else (unquote? cs).map fun (s, r) => (c :: s, r)
termination_by cs.length
decreasing_by
  · have := length_of_unescape? _h; simp only [List.length_cons]; omega
  · simp

/-- A value that is one word or one number, and the rest. -/
def readAtom? (cs : List Char) : Option (Json × List Char) :=
  match cs with
  | 'n' :: 'u' :: 'l' :: 'l' :: r => some (null, r)
  | 't' :: 'r' :: 'u' :: 'e' :: r => some (bool true, r)
  | 'f' :: 'a' :: 'l' :: 's' :: 'e' :: r => some (bool false, r)
  | cs => (ofNumber? (cs.takeWhile inNumber)).map fun j => (j, cs.dropWhile inNumber)

/-- The name of a member and its colon, and the rest. -/
def readName? (cs : List Char) : Option (String × List Char) :=
  match skipBlanks cs with
  | '"' :: r => do
    let (name, r) ← unquote? r
    match skipBlanks r with
    | ':' :: r => return (String.ofList name, r)
    | _ => none
  | _ => none

mutual

/-- The value that a text begins with, and the rest; `fuel` bounds the number of values. -/
def read? : Nat → List Char → Option (Json × List Char)
  | 0, _ => none
  | fuel + 1, cs =>
    match skipBlanks cs with
    | '"' :: r => (unquote? r).map fun (s, r) => (str (String.ofList s), r)
    | '[' :: r =>
      match skipBlanks r with
      | ']' :: r => some (arr [], r)
      | r => (readItems? fuel r).map fun (js, r) => (arr js, r)
    | '\x7b' :: r =>
      match skipBlanks r with
      | '\x7d' :: r => some (obj [], r)
      | r => (readMembers? fuel r).map fun (ms, r) => (obj ms, r)
    | r => readAtom? r

/-- The items of a list through its closing bracket. -/
def readItems? : Nat → List Char → Option (List Json × List Char)
  | 0, _ => none
  | fuel + 1, cs => do
    let (j, r) ← read? fuel cs
    match skipBlanks r with
    | ',' :: r =>
      let (js, r) ← readItems? fuel r
      return (j :: js, r)
    | ']' :: r => return ([j], r)
    | _ => none

/-- The members of an object through its closing bracket. -/
def readMembers? : Nat → List Char → Option (List (String × Json) × List Char)
  | 0, _ => none
  | fuel + 1, cs => do
    let (name, r) ← readName? cs
    let (j, r) ← read? fuel r
    match skipBlanks r with
    | ',' :: r =>
      let (ms, r) ← readMembers? fuel r
      return ((name, j) :: ms, r)
    | '\x7d' :: r => return ([(name, j)], r)
    | _ => none

end

/-- The value of a text. -/
def ofText? (s : String) : Option Json :=
  match read? (s.length + 1) s.toList with
  | some (j, r) => if (skipBlanks r).isEmpty then some j else none
  | none => none

end Json
end Amf
