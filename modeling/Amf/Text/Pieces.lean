/-!
# Pieces

A text cut at every occurrence of a separator. There is one piece more than there are separators, and
the pieces with the separators between them are the text again.
-/

namespace Amf
namespace Text

/-- The pieces of a text between the occurrences of a separator. -/
def pieces (sep : Char) : List Char → List (List Char)
  | [] => [[]]
  | c :: cs =>
    if c = sep then [] :: pieces sep cs
    else match pieces sep cs with
      | [] => [[c]]
      | p :: ps => (c :: p) :: ps

theorem pieces_ne_nil (sep : Char) (cs : List Char) : pieces sep cs ≠ [] := by
  cases cs with
  | nil => simp [pieces]
  | cons c cs =>
    unfold pieces
    split
    · simp
    · split <;> simp

/-- The pieces with the separator between them are the text again. -/
theorem intercalate_pieces (sep : Char) (cs : List Char) :
    [sep].intercalate (pieces sep cs) = cs := by
  induction cs with
  | nil => rfl
  | cons c cs ih =>
    have ne := pieces_ne_nil sep cs
    unfold pieces
    split
    · rename_i h
      cases hp : pieces sep cs with
      | nil => exact absurd hp ne
      | cons p ps =>
        rw [hp] at ih
        simp [List.intercalate, List.intersperse] at ih ⊢
        exact ⟨h.symm, ih⟩
    · cases hp : pieces sep cs with
      | nil => exact absurd hp ne
      | cons p ps =>
        rw [hp] at ih
        cases ps <;> simp_all [List.intercalate, List.intersperse]

/-- The pieces of a text that are not empty. -/
def words (sep : Char) (s : String) : List String :=
  ((pieces sep s.toList).filter (!·.isEmpty)).map String.ofList

end Text
end Amf
