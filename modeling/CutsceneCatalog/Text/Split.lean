/-!
# Splitting a text

Splitting a text at every occurrence of one character.  There is always one piece more than there
are separators, and joining the pieces with the separator gives the text back (`join_pieces`).
-/

namespace CutsceneCatalog
namespace Text

/-- The pieces of a text between the separators. -/
def pieces (separator : Char) : List Char → List (List Char)
  | [] => [[]]
  | c :: rest =>
      match pieces separator rest with
      | [] => [[c]]
      | piece :: more => if c = separator then [] :: piece :: more else (c :: piece) :: more

/-- The pieces with the separator between them. -/
def join (separator : Char) : List (List Char) → List Char
  | [] => []
  | [piece] => piece
  | piece :: more => piece ++ separator :: join separator more

theorem pieces_ne_nil (separator : Char) (cs : List Char) : pieces separator cs ≠ [] := by
  cases cs with
  | nil => simp [pieces]
  | cons c rest =>
    simp only [pieces]
    split
    · simp
    · split <;> simp

theorem join_pieces (separator : Char) (cs : List Char) :
    join separator (pieces separator cs) = cs := by
  induction cs with
  | nil => rfl
  | cons c rest ih =>
    simp only [pieces]
    split
    · next h => exact absurd h (pieces_ne_nil separator rest)
    · next piece more h =>
      rw [h] at ih
      by_cases hc : c = separator
      · simp [hc, join, ih]
      · cases more with
        | nil => simpa [hc, join] using ih
        | cons next others => simpa [hc, join] using ih

end Text
end CutsceneCatalog
