import Amf.Text.Numeral
import Amf.Yaml.Glyph

/-!
# Quoted scalars

A text between quotes, on one line or several. Between single quotes a quote is written twice and
everything else once; between double quotes a backslash opens an escape:

| escape | stands for |
| --- | --- |
| a letter or sign of `escape?` | its character |
| `x`, `u`, `U` and two, four, eight digits | the character of that code point |
| a line break | nothing; of the gap after it only further breaks count |

A line that begins with the mark of a document is no part of a text.
-/

namespace Amf
namespace Yaml

/-- The text between single quotes, after the opening one, and the rest. -/
def singleQuoted? (gs : List Glyph) : Option (List Char × List Glyph) :=
  match gs with
  | [] => none
  | g :: r =>
    if atDocumentMark (g :: r) then none
    else if g.char = '\'' then
      if atOneOf ['\''] r then (singleQuoted? (r.drop 1)).map fun (s, r) => ('\'' :: s, r)
      else some ([], r)
    else if isGap g then
      (singleQuoted? (afterGap r)).map fun (s, rest) => (fold (g :: gapOf r) ++ s, rest)
    else (singleQuoted? r).map fun (s, r) => (g.char :: s, r)
termination_by gs.length
decreasing_by
  · simp only [List.length_drop, List.length_cons]; omega
  · have := length_afterGap_le r; simp only [List.length_cons]; omega
  · simp

/-- What the escape of a letter or sign stands for. -/
def escape? (c : Char) : Option Char :=
  match c with
  | '"' | '\\' | '/' | ' ' => some c
  | '0' => some '\x00'
  | 'a' => some '\x07'
  | 'b' => some '\x08'
  | 't' | '\t' => some '\t'
  | 'n' => some '\n'
  | 'v' => some '\x0b'
  | 'f' => some '\x0c'
  | 'r' => some '\r'
  | 'e' => some '\x1b'
  | 'N' => some '\u0085'
  | '_' => some '\u00a0'
  | 'L' => some '\u2028'
  | 'P' => some '\u2029'
  | _ => none

/-- The number of hexadecimal digits after the escape of a letter. -/
def escapeDigits? (c : Char) : Option Nat :=
  match c with
  | 'x' => some 2
  | 'u' => some 4
  | 'U' => some 8
  | _ => none

/-- The character of hexadecimal digits. -/
def codePoint? (digits : List Char) : Option Char :=
  ((Text.readHexadecimal? digits).filter (·.isValidChar)).map Char.ofNat

/-- The text of an escape, after the backslash, and the rest. -/
def escaped? (gs : List Glyph) : Option (List Char × List Glyph) :=
  match gs with
  | [] => none
  | g :: r =>
    if isBreak g.char then some (breaks (gapOf r), afterGap r)
    else match escapeDigits? g.char with
      | some k =>
        if r.length < k then none
        else (codePoint? (chars (r.take k))).map fun c => ([c], r.drop k)
      | none => (escape? g.char).map fun c => ([c], r)

/-- An escape takes up glyphs. -/
theorem length_of_escaped? {gs r : List Glyph} {s : List Char} (h : escaped? gs = some (s, r)) :
    r.length < gs.length := by
  unfold escaped? at h
  split at h
  · simp at h
  · rename_i g r'
    split at h
    · simp only [Option.some.injEq, Prod.mk.injEq] at h
      have := length_afterGap_le r'
      rw [← h.2, List.length_cons]
      omega
    · split at h
      · split at h
        · simp at h
        · obtain ⟨_, _, h⟩ := Option.map_eq_some_iff.1 h
          simp only [Prod.mk.injEq] at h
          rw [← h.2, List.length_drop, List.length_cons]
          omega
      · obtain ⟨_, _, h⟩ := Option.map_eq_some_iff.1 h
        simp only [Prod.mk.injEq] at h
        simp [← h.2]

/-- The text between double quotes, after the opening one, and the rest. -/
def doubleQuoted? (gs : List Glyph) : Option (List Char × List Glyph) :=
  match gs with
  | [] => none
  | g :: r =>
    if atDocumentMark (g :: r) then none
    else if g.char = '"' then some ([], r)
    else if g.char = '\\' then
      match _h : escaped? r with
      | none => none
      | some (s, rest) => (doubleQuoted? rest).map fun (t, rest) => (s ++ t, rest)
    else if isGap g then
      (doubleQuoted? (afterGap r)).map fun (s, rest) => (fold (g :: gapOf r) ++ s, rest)
    else (doubleQuoted? r).map fun (s, r) => (g.char :: s, r)
termination_by gs.length
decreasing_by
  · have := length_of_escaped? _h; simp only [List.length_cons]; omega
  · have := length_afterGap_le r; simp only [List.length_cons]; omega
  · simp

end Yaml
end Amf
