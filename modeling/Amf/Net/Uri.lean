/-!
# Absolute URIs

The part of a URI's grammar that a notification target is read with: a scheme, `://`, an authority,
then a path, a query and a fragment. Only the scheme and the authority are kept.

| part | runs to | characters |
| --- | --- | --- |
| scheme | `://` | letters, digits, `+`, `-`, `.`, `~`; 64 at most |
| authority | `/`, `?`, `#` or the end | letters, digits and the marks of `isAuthorityMark`; `%` |
| path | `?`, `#` or the end | `isPathChar` |
| query | `#` or the end | `isQueryChar` |

An authority is not empty, has at most one pair of brackets, and does not end in `@`. Where it names
the host it has one colon at most outside the brackets, and a `%` only within them.
-/

namespace Amf

/-- The scheme and the authority of an absolute URI. -/
structure Uri where
  /-- The scheme, in lower case when it is `http` or `https`. -/
  scheme : String
  /-- The authority: user information, host and port. -/
  authority : List Char
  deriving DecidableEq, Repr, Inhabited

namespace Uri

/-- An ASCII letter or digit. -/
def isAlphanumeric (c : Char) : Bool :=
  ('a' ≤ c && c ≤ 'z') || ('A' ≤ c && c ≤ 'Z') || ('0' ≤ c && c ≤ '9')

/-- A character of a scheme. -/
def isSchemeChar (c : Char) : Bool :=
  isAlphanumeric c || ['+', '-', '.', '~'].contains c

/-- A mark that an authority may hold and that has no meaning there. -/
def isAuthorityMark (c : Char) : Bool :=
  ['!', '$', '&', '\'', '(', ')', '*', '+', ',', '-', '.', ';', '=', '_', '~'].contains c

/-- A character that ends an authority. -/
def endsAuthority (c : Char) : Bool := ['/', '?', '#'].contains c

/-- A character of a path. -/
def isPathChar (c : Char) : Bool :=
  c = '!' || ('$' ≤ c && c ≤ ';') || c = '=' || ('@' ≤ c && c ≤ '_') || ('a' ≤ c && c ≤ 'z') ||
    ['|', '~', '"', '\x7b', '\x7d'].contains c || 128 ≤ c.toNat

/-- A character of a query. -/
def isQueryChar (c : Char) : Bool :=
  c = '!' || ('$' ≤ c && c ≤ ';') || c = '=' || ('?' ≤ c && c ≤ '~') || 128 ≤ c.toNat

/-- What has been seen of an authority. -/
structure Scan where
  /-- Colons since the last `]` or `@`. -/
  colons : Nat := 0
  /-- There was a `[`. -/
  opened : Bool := false
  /-- There was a `]`. -/
  closed : Bool := false
  /-- There was a `%` since the last `]` or `@`. -/
  percent : Bool := false
  /-- The last character was `@`. -/
  atSign : Bool := false
  deriving DecidableEq, Repr, Inhabited

/-- The most colons between two of `]` and `@`. -/
def maxColons : Nat := 8

/-- One more character of an authority, unless it cannot stand there. -/
def Scan.step (s : Scan) (c : Char) : Option Scan :=
  if c = ':' then
    if s.colons < maxColons then some { s with colons := s.colons + 1, atSign := false } else none
  else if c = '[' then
    if s.percent || s.opened then none else some { s with opened := true, atSign := false }
  else if c = ']' then
    if s.opened && !s.closed then
      some { s with closed := true, colons := 0, percent := false, atSign := false }
    else none
  else if c = '@' then some { s with colons := 0, percent := false, atSign := true }
  else if c = '%' then some { s with percent := true, atSign := false }
  else if isAlphanumeric c || isAuthorityMark c then some { s with atSign := false }
  else none

/-- An authority may end here. -/
def Scan.complete (s : Scan) : Bool :=
  s.opened == s.closed && s.colons ≤ 1 && !s.atSign && !s.percent

/-- The text of an authority. -/
def isAuthority (cs : List Char) : Bool :=
  !cs.isEmpty && match cs.foldlM Scan.step {} with
    | some s => s.complete
    | none => false

/-- A query, and perhaps a fragment. -/
def isQuery (cs : List Char) : Bool :=
  (cs.takeWhile (· != '#')).all isQueryChar

/-- A path, perhaps a query, and perhaps a fragment. -/
def isPathAndQuery (cs : List Char) : Bool :=
  (cs.takeWhile fun c => c != '?' && c != '#').all isPathChar &&
    match cs.dropWhile fun c => c != '?' && c != '#' with
    | '?' :: r => isQuery r
    | _ => true

/-- Text without a leading pattern in lower-case letters, which it may hold in either case. -/
def dropScheme? : List Char → List Char → Option (List Char)
  | [], cs => some cs
  | _ :: _, [] => none
  | p :: ps, c :: cs => if c.toLower = p then dropScheme? ps cs else none

/-- The longest scheme. -/
def maxScheme : Nat := 64

/-- The scheme of a text, and what follows its `://`. -/
def splitScheme? (cs : List Char) : Option (String × List Char) :=
  match dropScheme? "http://".toList cs with
  | some r => some ("http", r)
  | none =>
    match dropScheme? "https://".toList cs with
    | some r => some ("https", r)
    | none =>
      let name := cs.takeWhile isSchemeChar
      match cs.dropWhile isSchemeChar with
      | ':' :: '/' :: '/' :: r =>
        if name.length ≤ maxScheme then some (String.ofList name, r) else none
      | _ => none

/-- The longest URI, in octets. -/
def maxOctets : Nat := 65534

/-- The scheme and the authority of an absolute URI. -/
def ofText? (s : String) : Option Uri :=
  if maxOctets < s.utf8ByteSize then none else
    match splitScheme? s.toList with
    | none => none
    | some (scheme, rest) =>
      let authority := rest.takeWhile (!endsAuthority ·)
      if isAuthority authority && isPathAndQuery (rest.dropWhile (!endsAuthority ·)) then
        some ⟨scheme, authority⟩
      else none

/-- What follows the last occurrence of a character, or all of a text without one. -/
def afterLast (c : Char) (cs : List Char) : List Char :=
  (cs.reverse.takeWhile (· != c)).reverse

/-- Text through the first occurrence of a character. -/
def through (c : Char) : List Char → List Char
  | [] => []
  | d :: ds => if d = c then [d] else d :: through c ds

/-- The host: after the last `@`, through `]` when it begins with `[`, and else to the first `:`. -/
def host (u : Uri) : List Char :=
  let cs := afterLast '@' u.authority
  match cs with
  | '[' :: _ => through ']' cs
  | _ => cs.takeWhile (· != ':')

/-- The text after the last `:` of the authority. -/
def portText? (u : Uri) : Option (List Char) :=
  if u.authority.contains ':' then some (afterLast ':' u.authority) else none

end Uri
end Amf
