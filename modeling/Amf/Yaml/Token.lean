import Amf.Yaml.BlockText
import Amf.Yaml.Plain
import Amf.Yaml.Quoted
import Amf.Yaml.Tag

/-!
# Tokens

A YAML text as tokens. Indentation becomes tokens too: outside of brackets, a list or mapping opens
where a `-`, `?` or key stands deeper than the collection around it, and closes before the first token
that is less deep than its own.

A key is known as one only by the colon after it. So the place of every token that may begin a key is
kept, the latest one for each level of brackets, and a colon puts the token `key` in front of it. A key
is on one line and at most 1024 octets long. A text whose tokens are at fault is none of YAML.
-/

namespace Amf
namespace Yaml

/-- A token. -/
inductive Token where
  /-- A directive. -/
  | directive (d : Directive)
  /-- The mark that opens a document. -/
  | documentStart
  /-- The mark that closes a document. -/
  | documentEnd
  /-- A list by indentation opens. -/
  | blockSequence
  /-- A mapping by indentation opens. -/
  | blockMapping
  /-- A collection by indentation closes. -/
  | blockEnd
  /-- The bracket that opens a list. -/
  | flowSequence
  /-- The bracket that closes a list. -/
  | flowSequenceEnd
  /-- The bracket that opens a mapping. -/
  | flowMapping
  /-- The bracket that closes a mapping. -/
  | flowMappingEnd
  /-- The dash in front of an item. -/
  | blockEntry
  /-- The comma after an entry. -/
  | flowEntry
  /-- A key follows. -/
  | key
  /-- The value of a key follows. -/
  | value
  /-- What an anchor stands at. -/
  | reference (name : String)
  /-- The anchor of the next value. -/
  | anchor (name : String)
  /-- The tag of the next value. -/
  | tag (t : Tag)
  /-- A scalar, plain or not. -/
  | scalar (text : String) (plain : Bool)
  deriving DecidableEq, Repr, Inhabited

/-- A place where a key may have begun. -/
structure KeyPlace where
  /-- The number of tokens in front of it. -/
  index : Nat
  /-- Whatever begins here has to be a key. -/
  required : Bool
  /-- The glyph that it begins with. -/
  start : Glyph
  deriving Inhabited

/-- The place is too far back for the key to end at a glyph. -/
def KeyPlace.isStale (p : KeyPlace) (g : Glyph) : Bool :=
  p.start.line < g.line || p.start.offset + 1024 < g.offset

/-- The tokens read so far, and what decides how the text goes on. -/
structure Layout where
  /-- The tokens, the latest first. -/
  tokens : List Token := []
  /-- The number of tokens. -/
  count : Nat := 0
  /-- The depths of the open collections by indentation, the innermost first; a depth is one more than
  a column. -/
  depths : List Nat := []
  /-- The place where a key may have begun, if there is one. -/
  keyPlace : Option KeyPlace := none
  /-- The same outside of each open bracket, the innermost first. -/
  outerPlaces : List (Option KeyPlace) := []
  /-- A key may begin here. -/
  keyAllowed : Bool := true
  deriving Inhabited

namespace Layout

/-- Within brackets. -/
def inFlow (l : Layout) : Bool := !l.outerPlaces.isEmpty

/-- The depth of the innermost collection by indentation, zero outside of any. -/
def depth (l : Layout) : Nat := l.depths.head?.getD 0

/-- One token more. -/
def put (t : Token) (l : Layout) : Layout := { l with tokens := t :: l.tokens, count := l.count + 1 }

/-- One token more, behind the first `index`. -/
def putAt (index : Nat) (t : Token) (l : Layout) : Layout :=
  let later := l.count - index
  { l with tokens := l.tokens.take later ++ t :: l.tokens.drop later, count := l.count + 1 }

/-- The collections by indentation that are deeper than `depth` close. -/
def close (depth : Nat) (l : Layout) : Layout :=
  if l.inFlow then l
  else
    (l.depths.takeWhile (depth < ·)).foldl (fun l _ => l.put .blockEnd)
      { l with depths := l.depths.dropWhile (depth < ·) }

/-- A collection by indentation opens behind the first `index` tokens, if the column is deeper than the
one around it. -/
def openAt (index column : Nat) (t : Token) (l : Layout) : Layout :=
  if l.inFlow || column < l.depth then l
  else { l.putAt index t with depths := (column + 1) :: l.depths }

/-- Nothing read so far is a key any more; a key that had to be one is a fault. -/
def dropKey? (l : Layout) : Option Layout :=
  match l.keyPlace with
  | some p => if p.required then none else some { l with keyPlace := none }
  | none => some l

/-- A key may begin at a glyph, where one is allowed. -/
def markKey? (g : Glyph) (l : Layout) : Option Layout :=
  if l.keyAllowed then
    l.dropKey?.map fun l =>
      { l with keyPlace := some ⟨l.count, !l.inFlow && l.depth = g.column + 1, g⟩ }
  else some l

/-- A place that is not too far back for a key to end at a glyph. -/
def current? (g : Glyph) : Option KeyPlace → Option (Option KeyPlace)
  | some p => if !p.isStale g then some (some p) else if p.required then none else some none
  | none => some none

/-- The places that are too far back for a key to end at a glyph are given up. -/
def giveUp? (g : Glyph) (l : Layout) : Option Layout := do
  return { l with
    keyPlace := ← current? g l.keyPlace
    outerPlaces := ← l.outerPlaces.mapM (current? g) }

/-! ## Steps -/

/-- A token in front of a document. -/
def documentToken? (t : Token) (l : Layout) : Option Layout :=
  (l.close 0).dropKey?.map fun l => { l.put t with keyAllowed := false }

/-- A token that may begin a key. -/
def keyToken? (g : Glyph) (t : Token) (l : Layout) : Option Layout :=
  (l.markKey? g).map fun l => { l.put t with keyAllowed := false }

/-- A bracket opens. -/
def openFlow? (g : Glyph) (t : Token) (l : Layout) : Option Layout :=
  (l.markKey? g).map fun l =>
    { l.put t with
      keyPlace := none, outerPlaces := l.keyPlace :: l.outerPlaces, keyAllowed := true }

/-- A bracket closes. -/
def closeFlow? (t : Token) (l : Layout) : Option Layout :=
  l.dropKey?.map fun l =>
    let l := match l.outerPlaces with
      | p :: ps => { l with keyPlace := p, outerPlaces := ps }
      | [] => l
    { l.put t with keyAllowed := false }

/-- An entry within brackets ends. -/
def flowEntry? (l : Layout) : Option Layout :=
  l.dropKey?.map fun l => { l.put .flowEntry with keyAllowed := true }

/-- A collection by indentation may open at a column, if a key may begin there. -/
def openHere? (column : Nat) (t : Token) (l : Layout) : Option Layout :=
  if l.inFlow then some l
  else if l.keyAllowed then some (l.openAt l.count column t) else none

/-- An item begins with a dash. -/
def blockEntry? (g : Glyph) (l : Layout) : Option Layout := do
  let l ← (← l.openHere? g.column .blockSequence).dropKey?
  return { l.put .blockEntry with keyAllowed := true }

/-- A key begins with a question mark. -/
def explicitKey? (g : Glyph) (l : Layout) : Option Layout := do
  let l ← (← l.openHere? g.column .blockMapping).dropKey?
  return { l.put .key with keyAllowed := !l.inFlow }

/-- A value begins with a colon. -/
def value? (g : Glyph) (l : Layout) : Option Layout :=
  match l.keyPlace with
  | some p =>
    let l := (l.putAt p.index .key).openAt p.index p.start.column .blockMapping
    some { l.put .value with keyPlace := none, keyAllowed := false }
  | none =>
    (l.openHere? g.column .blockMapping).map fun l =>
      { l.put .value with keyAllowed := !l.inFlow }

/-- A block text. -/
def blockText? (folded : Bool) (r : List Glyph) (l : Layout) : Option (Layout × List Glyph) := do
  let l ← l.dropKey?
  let (text, r) ← Yaml.blockText? folded l.depth r
  return ({ l.put (.scalar (String.ofList text) false) with keyAllowed := true }, r)

/-- A plain scalar; after a line break behind it, a key may begin. -/
def plain? (g : Glyph) (r : List Glyph) (l : Layout) : Option (Layout × List Glyph) := do
  let p ← Yaml.plain? l.inFlow l.depth (g :: r)
  let l ← l.keyToken? g (.scalar (String.ofList p.text) true)
  return ({ l with keyAllowed := p.isBroken }, p.rest)

/-- A token that may begin a key and has a text of its own. -/
def texted? (g : Glyph) (l : Layout) (t : α → Token) (read : Option (α × List Glyph)) :
    Option (Layout × List Glyph) := do
  let (a, r) ← read
  return (← l.keyToken? g (t a), r)

/-- The name of an anchor, and the rest, which has to set it off. -/
def anchorName? (gs : List Glyph) : Option (String × List Glyph) :=
  let (name, r) := takeName gs
  if !name.isEmpty && (atGap r || atOneOf ['?', ':', ',', ']', '\x7d', '%', '@', '\x60'] r) then
    some (name, r)
  else none

/-- A character with which no plain scalar begins. -/
def isIndicator (c : Char) : Bool :=
  ['#', '|', '>', '%', '@', '\x60', '\t'].contains c

/-- The token that begins with a glyph. -/
def step? (l : Layout) (g : Glyph) (r : List Glyph) : Option (Layout × List Glyph) :=
  let gs := g :: r
  if g.column = 0 && g.char = '%' then do
    let (d, r) ← directive? r
    return (← l.documentToken? (.directive d), r)
  else if atMark ['-', '-', '-'] gs then (l.documentToken? .documentStart).map (·, r.drop 2)
  else if atMark ['.', '.', '.'] gs then (l.documentToken? .documentEnd).map (·, r.drop 2)
  else
    match g.char with
    | '[' => (l.openFlow? g .flowSequence).map (·, r)
    | '\x7b' => (l.openFlow? g .flowMapping).map (·, r)
    | ']' => (l.closeFlow? .flowSequenceEnd).map (·, r)
    | '\x7d' => (l.closeFlow? .flowMappingEnd).map (·, r)
    | ',' => l.flowEntry?.map (·, r)
    | '*' => l.texted? g .reference (anchorName? r)
    | '&' => l.texted? g .anchor (anchorName? r)
    | '!' => l.texted? g .tag (tag? l.inFlow r)
    | '\'' => l.texted? g (fun s => .scalar (String.ofList s) false) (singleQuoted? r)
    | '"' => l.texted? g (fun s => .scalar (String.ofList s) false) (doubleQuoted? r)
    | c =>
      if c = '-' && atGap r then (l.blockEntry? g).map (·, r)
      else if c = '?' && (l.inFlow || atGap r) then (l.explicitKey? g).map (·, r)
      else if c = ':' && (l.inFlow || atGap r) then (l.value? g).map (·, r)
      else if c = '|' && !l.inFlow then l.blockText? false r
      else if c = '>' && !l.inFlow then l.blockText? true r
      else if isIndicator c then none
      else l.plain? g r

end Layout

/-- The text from the next token on, and whether a key may begin there. Blanks, comments and line breaks
are skipped; a tab is one of the blanks within brackets and where no key may begin, and a byte order
mark where it opens a line. -/
def toToken (inFlow : Bool) (inComment keyAllowed : Bool) : List Glyph → List Glyph × Bool
  | [] => ([], keyAllowed)
  | g :: r =>
    if isBreak g.char then toToken inFlow false (keyAllowed || !inFlow) r
    else if inComment || g.char = ' ' || (g.char = '\t' && (inFlow || !keyAllowed)) ||
        (g.char = '\ufeff' && g.column = 0) then
      toToken inFlow inComment keyAllowed r
    else if g.char = '#' then toToken inFlow true keyAllowed r
    else (g :: r, keyAllowed)

/-- The tokens of a text after those of a layout; `fuel` bounds their number. -/
def layout? : Nat → Layout → List Glyph → Option Layout
  | 0, _, _ => none
  | fuel + 1, l, gs =>
    match toToken l.inFlow false l.keyAllowed gs with
    | ([], _) => (l.close 0).dropKey?
    | (g :: r, keyAllowed) => do
      let l ← { l with keyAllowed }.giveUp? g
      let (l, r) ← (l.close (g.column + 1)).step? g r
      layout? fuel l r

/-- The tokens of a text. -/
def tokens? (s : String) : Option (List Token) := do
  let gs ← glyphs? s
  let l ← layout? (gs.length + 1) {} gs
  return l.tokens.reverse

end Yaml
end Amf
