/-!
# Glyphs

A YAML text as it is laid out on lines: its characters, each with its place. A line ends with one of

| break | read into a scalar as |
| --- | --- |
| LF, CR, CR LF, NEL (U+0085) | `\n` |
| LS (U+2028), PS (U+2029) | itself |

and a break is a single glyph. A *gap* is a run of blanks and breaks. Where a scalar goes on after a
gap, `fold` is the text that the gap stands for: a gap within a line stands for itself, a single break
for one space, and of several breaks the first counts for nothing.
-/

namespace Amf
namespace Yaml

/-- A character of a text and its place. -/
structure Glyph where
  /-- The character; that of a break is `\n`, LS or PS. -/
  char : Char
  /-- The octets in front of it. -/
  offset : Nat
  /-- The line breaks in front of it. -/
  line : Nat
  /-- The characters in front of it on its line. -/
  column : Nat
  deriving DecidableEq, Repr, Inhabited

/-- A character that may stand in a text: no control character but tabs and breaks. -/
def isAllowed (c : Char) : Bool :=
  let n := c.toNat
  n = 0x09 || n = 0x0a || n = 0x0d || n = 0x85 || (0x20 ≤ n && n ≤ 0x7e) ||
    (0xa0 ≤ n && n ≤ 0xfffd) || 0x10000 ≤ n

/-- A line break. -/
def isBreak (c : Char) : Bool := c = '\n' || c = '\u2028' || c = '\u2029'

/-- A blank within a line. -/
def isBlank (c : Char) : Bool := c = ' ' || c = '\t'

/-- A blank or a break. -/
def isGap (g : Glyph) : Bool := isBlank g.char || isBreak g.char

/-- A character as it is read into a scalar. -/
def normal (c : Char) : Char := if c = '\r' || c = '\u0085' then '\n' else c

/-- Characters with their places, the first of them at a given place. -/
def placed (offset line column : Nat) : List Char → List Glyph
  | [] => []
  | '\r' :: '\n' :: cs => ⟨'\n', offset, line, column⟩ :: placed (offset + 2) (line + 1) 0 cs
  | c :: cs =>
    ⟨normal c, offset, line, column⟩ ::
      (if isBreak (normal c) then placed (offset + c.utf8Size) (line + 1) 0 cs
      else placed (offset + c.utf8Size) line (column + 1) cs)

/-- The glyphs of a text, if each of its characters may stand in one. -/
def glyphs? (s : String) : Option (List Glyph) :=
  if s.toList.all isAllowed then some (placed 0 0 0 s.toList) else none

/-- The characters of glyphs. -/
def chars (gs : List Glyph) : List Char := gs.map (·.char)

/-- The text ends here, or goes on with a gap. -/
def atGap : List Glyph → Bool
  | [] => true
  | g :: _ => isGap g

/-- The next character. -/
def next? (gs : List Glyph) : Option Char := gs.head?.map (·.char)

/-- The text goes on with one of some characters. -/
def atOneOf (cs : List Char) (gs : List Glyph) : Bool := (next? gs).any cs.contains

/-- A line begins here with a mark of three characters. -/
def atMark (mark : List Char) (gs : List Glyph) : Bool :=
  (gs.head?.any fun g => g.column = 0) && chars (gs.take 3) = mark && atGap (gs.drop 3)

/-- A line begins here with the mark that opens or the mark that closes a document. -/
def atDocumentMark (gs : List Glyph) : Bool :=
  atMark ['-', '-', '-'] gs || atMark ['.', '.', '.'] gs

/-- What follows a gap. -/
def afterGap (gs : List Glyph) : List Glyph := gs.dropWhile isGap

/-- The gap itself. -/
def gapOf (gs : List Glyph) : List Glyph := gs.takeWhile isGap

theorem length_afterGap_le (gs : List Glyph) : (afterGap gs).length ≤ gs.length :=
  (List.dropWhile_sublist _).length_le

/-- The breaks of a gap. -/
def breaks (gap : List Glyph) : List Char := (chars gap).filter isBreak

/-- The text that a gap within a scalar stands for. -/
def fold (gap : List Glyph) : List Char :=
  match breaks gap with
  | [] => chars gap
  | ['\n'] => [' ']
  | '\n' :: more => more
  | all => all

/-- What follows the rest of a line that holds nothing but blanks and a comment. -/
def endLine? (gs : List Glyph) : Option (List Glyph) :=
  let rest := gs.dropWhile fun g => isBlank g.char
  let rest := if atOneOf ['#'] rest then rest.dropWhile fun g => !isBreak g.char else rest
  match rest with
  | [] => some []
  | g :: rest => if isBreak g.char then some rest else none

end Yaml
end Amf
