import Amf.Text.Numeral
import Amf.Yaml.Glyph

/-!
# Tags and directives

A tag names the type of a value, and a directive in front of a document says how its text is read:

| text | is |
| --- | --- |
| `!<uri>` | the tag `uri` |
| `!word!uri`, `!!uri` | the tag of a handle `!word!` or `!!` and `uri` |
| `!uri` | the tag of the handle `!` and `uri`; alone, the tag `!` |
| `%YAML 1.2` | the version of the format |
| `%TAG handle uri` | what a handle stands for |

In a URI, `%` and two hexadecimal digits stand for an octet, and so many such octets in a row as its
first one announces for a character. A URI is read as octets, since they need be no UTF-8 beyond that; an
octet of zero ends it.
-/

namespace Amf
namespace Yaml

/-- A tag as it is written: what its handle stands for is said elsewhere. -/
structure Tag where
  /-- The handle, empty where the tag is written in full. -/
  handle : String
  /-- The octets that follow the handle. -/
  suffix : List UInt8
  deriving DecidableEq, Repr, Inhabited

/-- A directive. -/
inductive Directive where
  /-- The version of the format. -/
  | version (major minor : Nat)
  /-- What a handle stands for. -/
  | handle (name : String) (uri : List UInt8)
  deriving DecidableEq, Repr, Inhabited

/-- A character of a name. -/
def inName (c : Char) : Bool := c.isAlphanum || c = '_' || c = '-'

/-- A character of a URI, in full or with the characters that end it within brackets left out. -/
def inUri (full : Bool) (c : Char) : Bool :=
  inName c || [';', '/', '?', ':', '@', '&', '=', '+', '$', '.', '!', '~', '*', '\'', '(', ')',
    '%'].contains c || (full && [',', '[', ']'].contains c)

/-- The number of octets after the first one of a character. -/
def trailingOctets? (first : Nat) : Option Nat :=
  if first < 0x80 then some 0
  else if first < 0xc0 then none
  else if first < 0xe0 then some 1
  else if first < 0xf0 then some 2
  else if first < 0xf8 then some 3
  else none

/-- The octets that a URI stands for, given the octets that the last character still announces. -/
def uriOctets? (announced : Nat) : List Char → Option (List UInt8)
  | [] => if announced = 0 then some [] else none
  | '%' :: a :: b :: cs => do
    let n ← Text.readHexadecimal? [a, b]
    let announced ← match announced with
      | 0 => trailingOctets? n
      | k + 1 => if n / 0x40 = 2 then some k else none
    return .ofNat n :: (← uriOctets? announced cs)
  | c :: cs =>
    if c = '%' || announced ≠ 0 then none
    else (uriOctets? 0 cs).map (.ofNat c.toNat :: ·)

/-- Octets up to the first one of zero. -/
def upToZero (octets : List UInt8) : List UInt8 := octets.takeWhile (· ≠ 0)

/-- The URI that a text goes on with, perhaps empty, and the rest. -/
def uri? (full : Bool) (gs : List Glyph) : Option (List UInt8 × List Glyph) :=
  (uriOctets? 0 (chars (gs.takeWhile fun g => inUri full g.char))).map fun octets =>
    (octets, gs.dropWhile fun g => inUri full g.char)

/-- The URI that a text goes on with, and the rest. -/
def someUri? (full : Bool) (gs : List Glyph) : Option (List UInt8 × List Glyph) :=
  ((uri? full gs).filter fun (uri, _) => !uri.isEmpty).map fun (uri, r) => (upToZero uri, r)

/-- The octet of an exclamation mark. -/
def bang : UInt8 := 0x21

/-- The name that a text goes on with, perhaps empty, and the rest. -/
def takeName (gs : List Glyph) : String × List Glyph :=
  (String.ofList (chars (gs.takeWhile fun g => inName g.char)),
    gs.dropWhile fun g => inName g.char)

/-- A tag, after its exclamation mark, and the rest. -/
def tagBody? (gs : List Glyph) : Option (Tag × List Glyph) := do
  if atOneOf ['<'] gs then
    let (uri, r) ← someUri? true (gs.drop 1)
    if atOneOf ['>'] r then return (⟨"", uri⟩, r.drop 1) else none
  else
    let (word, r) := takeName gs
    if atOneOf ['!'] r then
      let (uri, r) ← someUri? false (r.drop 1)
      return (⟨"!" ++ word ++ "!", uri⟩, r)
    else
      let (uri, r) ← uri? false r
      let suffix := upToZero (word.toUTF8.toList ++ uri)
      return (if suffix.isEmpty then ⟨"", [bang]⟩ else ⟨"!", suffix⟩, r)

/-- A tag, after its exclamation mark, and the rest, which has to set it off. -/
def tag? (inFlow : Bool) (gs : List Glyph) : Option (Tag × List Glyph) :=
  (tagBody? gs).filter fun (_, r) => atGap r || (inFlow && atOneOf [','] r)

/-- Text after blanks. -/
def afterBlanks (gs : List Glyph) : List Glyph := gs.dropWhile fun g => isBlank g.char

/-- A number of at most nine digits, and the rest. -/
def number? (gs : List Glyph) : Option (Nat × List Glyph) := do
  let digits := gs.takeWhile fun g => Text.isDigit g.char
  if 9 < digits.length then none
  else return (← Text.readDigits? (chars digits), gs.drop digits.length)

/-- The handle that a directive explains, and the rest. -/
def handle? (gs : List Glyph) : Option (String × List Glyph) :=
  if atOneOf ['!'] gs then
    let (word, r) := takeName (gs.drop 1)
    if atOneOf ['!'] r then some ("!" ++ word ++ "!", r.drop 1)
    else if word.isEmpty then some ("!", r) else none
  else none

/-- A directive, after its percent sign, and the rest. -/
def directiveBody? (gs : List Glyph) : Option (Directive × List Glyph) := do
  let (word, r) := takeName gs
  if !atGap r then none
  else if word = "YAML" then
    let (major, r) ← number? (afterBlanks r)
    if !atOneOf ['.'] r then none
    else
      let (minor, r) ← number? (r.drop 1)
      return (.version major minor, r)
  else if word = "TAG" then
    let (handle, r) ← handle? (afterBlanks r)
    if !atOneOf [' ', '\t'] r then none
    else
      let (uri, r) ← someUri? true (afterBlanks r)
      if atGap r then return (.handle handle uri, r) else none
  else none

/-- A directive, after its percent sign, and the next line. -/
def directive? (gs : List Glyph) : Option (Directive × List Glyph) := do
  let (directive, r) ← directiveBody? gs
  return (directive, ← endLine? r)

end Yaml
end Amf
