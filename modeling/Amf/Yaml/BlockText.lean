import Amf.Text.Numeral
import Amf.Yaml.Glyph

/-!
# Block texts

A text on lines of its own, below a header: `|` keeps its line breaks, `>` folds them. The header may
say, in either order, what becomes of the breaks at the end and how deep the lines are:

| sign | the last break | empty lines after it |
| --- | --- | --- |
| none | kept | dropped |
| `-` | dropped | dropped |
| `+` | kept | kept |

Without a depth, the lines are as deep as the first of them that is not empty. A folded break stands for
a space, and for nothing where empty lines follow; next to a line that begins with a blank it is kept.
-/

namespace Amf
namespace Yaml

/-- What becomes of the breaks at the end of a block text. -/
inductive Chomp where
  | strip | clip | keep
  deriving DecidableEq, Repr, Inhabited

/-- The header of a block text. -/
structure BlockHeader where
  /-- What becomes of the breaks at the end. -/
  chomp : Chomp
  /-- The depth of the lines beyond that of the collection around, zero where it is left open. -/
  width : Nat
  deriving DecidableEq, Repr, Inhabited

/-- The sign for the breaks at the end, if there is one, and the rest. -/
def chomp : List Glyph → Option Chomp × List Glyph
  | [] => (none, [])
  | g :: r =>
    if g.char = '+' then (some .keep, r)
    else if g.char = '-' then (some .strip, r)
    else (none, g :: r)

/-- The digit for the depth, zero if there is none, and the rest; the digit `0` is refused. -/
def width? : List Glyph → Option (Nat × List Glyph)
  | [] => some (0, [])
  | g :: r =>
    match Text.digit? g.char with
    | some 0 => none
    | some n => some (n, r)
    | none => some (0, g :: r)

/-- The header of a block text, after its first sign, and the lines that follow. -/
def blockHeader? (gs : List Glyph) : Option (BlockHeader × List Glyph) := do
  let (first, r) := chomp gs
  let (width, r) ← width? r
  let (second, r) := if first.isNone && width ≠ 0 then chomp r else (first, r)
  return (⟨second.getD .clip, width⟩, ← endLine? r)

/-- Empty lines and the indentation of the line after them. -/
structure Margin where
  /-- The breaks of the empty lines. -/
  breaks : List Char
  /-- The column of the deepest of these lines. -/
  deepest : Nat
  /-- What follows. -/
  rest : List Glyph

/-- The empty lines that a text goes on with, and the indentation of the next line up to a depth; with
depth zero, all of it. A tab is no indentation. -/
def margin? (depth : Nat) (deepest : Nat) : List Glyph → Option Margin
  | [] => some ⟨[], deepest, []⟩
  | g :: r =>
    let deepest := max deepest g.column
    let inMargin := depth = 0 || g.column < depth
    if isBreak g.char then
      (margin? depth deepest r).map fun m => { m with breaks := g.char :: m.breaks }
    else if inMargin && g.char = ' ' then margin? depth deepest r
    else if inMargin && g.char = '\t' then none
    else some ⟨[], deepest, g :: r⟩

/-- A margin takes up glyphs. -/
theorem length_of_margin? {depth deepest : Nat} {gs : List Glyph} {m : Margin}
    (h : margin? depth deepest gs = some m) : m.rest.length ≤ gs.length := by
  induction gs generalizing deepest m with
  | nil =>
    simp only [margin?, Option.some.injEq] at h
    simp [← h]
  | cons g r ih =>
    unfold margin? at h
    simp only at h
    split at h
    · obtain ⟨m', hm, e⟩ := Option.map_eq_some_iff.1 h
      have := ih hm
      rw [← e, List.length_cons]
      simp only
      omega
    · split at h
      · have := ih h
        rw [List.length_cons]
        omega
      · split at h
        · simp at h
        · simp only [Option.some.injEq] at h
          simp [← h]

/-- The rest of a line. -/
def lineOf (gs : List Glyph) : List Glyph := gs.takeWhile fun g => !isBreak g.char

/-- What follows the rest of a line, from its break on. -/
def afterLine (gs : List Glyph) : List Glyph := gs.dropWhile fun g => !isBreak g.char

/-- What follows a line and its break is shorter. -/
theorem length_afterLine_lt (g : Glyph) (r : List Glyph) :
    ((afterLine (g :: r)).drop 1).length < (g :: r).length := by
  have h := (List.dropWhile_sublist (fun g : Glyph => !isBreak g.char) (l := r)).length_le
  unfold afterLine
  rw [List.dropWhile_cons]
  split
  · rw [List.length_drop, List.length_cons]
    omega
  · simp

/-- A block text that is read as far as its last line. -/
structure BlockLines where
  /-- The text, without what stands for the last break. -/
  text : List Char
  /-- The last break, if there is one. -/
  last : List Char
  /-- The breaks of the empty lines after it. -/
  breaks : List Char
  /-- What follows. -/
  rest : List Glyph

/-- The text that a break stands for between two lines, given the empty lines between them and whether
one of the two begins with a blank. -/
def joinLines (folded blank : Bool) (last breaks : List Char) : List Char :=
  if folded && last = ['\n'] && !blank then (if breaks.isEmpty then [' '] else breaks)
  else last ++ breaks

/-- The lines of a block text at a depth, after a line that ends with `last` and begins with a blank if
`blank` says so, and after empty lines with `breaks`. -/
def blockLines? (folded : Bool) (depth : Nat) (blank : Bool) (last breaks : List Char)
    (gs : List Glyph) : Option BlockLines :=
  match gs with
  | [] => some ⟨[], last, breaks, []⟩
  | g :: r =>
    if g.column ≠ depth then some ⟨[], last, breaks, g :: r⟩
    else
      let here := isBlank g.char
      let text := joinLines folded (blank || here) last breaks ++ chars (lineOf (g :: r))
      match _h : margin? depth 0 ((afterLine (g :: r)).drop 1) with
      | none => none
      | some m =>
        (blockLines? folded depth here (chars ((afterLine (g :: r)).take 1)) m.breaks m.rest).map
          fun b => { b with text := text ++ b.text }
termination_by gs.length
decreasing_by
  have h₁ := length_of_margin? _h
  have h₂ := length_afterLine_lt g r
  omega

/-- The block text in a collection of some depth, after its first sign, and the rest. -/
def blockText? (folded : Bool) (depth : Nat) (gs : List Glyph) :
    Option (List Char × List Glyph) := do
  let (header, r) ← blockHeader? gs
  let wanted := if header.width = 0 then 0 else depth - 1 + header.width
  let m ← margin? wanted 0 r
  let depth := if wanted = 0 then max (max m.deepest depth) 1 else wanted
  let b ← blockLines? folded depth false [] m.breaks m.rest
  let tail := match header.chomp with
    | .strip => []
    | .clip => b.last
    | .keep => b.last ++ b.breaks
  return (b.text ++ tail, b.rest)

end Yaml
end Amf
