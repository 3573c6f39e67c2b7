import Amf.Yaml.Glyph

/-!
# Plain scalars

A scalar without quotes: words with gaps between them. A word ends at a gap, at a colon that a gap
follows, and within brackets at a bracket or comma. The scalar ends where no word follows, before a
comment, before the mark of a document, and outside of brackets before a line that is less deep than
its collection requires.
-/

namespace Amf
namespace Yaml

/-- A bracket or comma. -/
def isFlowMark (c : Char) : Bool := ['[', ']', '\x7b', '\x7d', ','].contains c

/-- The word that a text goes on with, and the rest. Within brackets, no colon in a word stands before
a bracket, comma or question mark. -/
def word? (inFlow : Bool) : List Glyph → Option (List Char × List Glyph)
  | [] => some ([], [])
  | g :: r =>
    if isGap g then some ([], g :: r)
    else if inFlow && g.char = ':' && (next? r).any fun c => isFlowMark c || c = '?' then none
    else if (g.char = ':' && atGap r) || (inFlow && isFlowMark g.char) then some ([], g :: r)
    else (word? inFlow r).map fun (w, r) => (g.char :: w, r)

/-- A word and the rest are as long as the text. -/
theorem length_of_word? {inFlow : Bool} {gs r : List Glyph} {w : List Char}
    (h : word? inFlow gs = some (w, r)) : w.length + r.length = gs.length := by
  induction gs generalizing w r with
  | nil =>
    simp only [word?, Option.some.injEq, Prod.mk.injEq] at h
    simp [← h.1, ← h.2]
  | cons g gs ih =>
    unfold word? at h
    split at h
    · simp only [Option.some.injEq, Prod.mk.injEq] at h
      simp [← h.1, ← h.2]
    · split at h
      · simp at h
      · split at h
        · simp only [Option.some.injEq, Prod.mk.injEq] at h
          simp [← h.1, ← h.2]
        · obtain ⟨⟨w', r'⟩, hw, e⟩ := Option.map_eq_some_iff.1 h
          simp only [Prod.mk.injEq] at e
          have := ih hw
          rw [← e.1, ← e.2, List.length_cons, List.length_cons]
          omega

/-- A gap holds a line break. -/
def isBroken (gap : List Glyph) : Bool := !(breaks gap).isEmpty

/-- A tab stands in front of a line where the depth of a collection has to be reached. -/
def isTabbed (depth : Nat) (gap : List Glyph) : Bool :=
  (gap.dropWhile fun g => !isBreak g.char).any fun g => g.char = '\t' && g.column < depth

/-- Outside of brackets, the text goes on less deep than a collection requires. -/
def isShallow (inFlow : Bool) (depth : Nat) (gs : List Glyph) : Bool :=
  !inFlow && gs.head?.any fun g => g.column < depth

/-- A plain scalar. -/
structure Plain where
  /-- Its text. -/
  text : List Char
  /-- The gap after it holds a line break. -/
  isBroken : Bool
  /-- What follows the gap. -/
  rest : List Glyph

/-- The words of a plain scalar that a text goes on with after a gap. -/
def plainAfter? (inFlow : Bool) (depth : Nat) (gap gs : List Glyph) : Option Plain :=
  if atDocumentMark gs || atOneOf ['#'] gs then some ⟨[], isBroken gap, gs⟩
  else match _h : word? inFlow gs with
    | none => none
    | some ([], _) => some ⟨[], isBroken gap, gs⟩
    | some (c :: w, r) =>
      let text := fold gap ++ c :: w
      if isTabbed depth (gapOf r) then none
      else if isShallow inFlow depth (afterGap r) then
        some ⟨text, isBroken (gapOf r), afterGap r⟩
      else (plainAfter? inFlow depth (gapOf r) (afterGap r)).map fun p =>
        { p with text := text ++ p.text }
termination_by gs.length
decreasing_by
  have h₁ := length_of_word? _h
  have h₂ := length_afterGap_le r
  simp only [List.length_cons] at h₁
  omega

/-- The plain scalar that a text begins with, in a collection of some depth. -/
def plain? (inFlow : Bool) (depth : Nat) (gs : List Glyph) : Option Plain :=
  plainAfter? inFlow depth [] gs

end Yaml
end Amf
