/-!
# Pieces between separators

A text cut at every occurrence of one character.

* `pieces`: every piece, empty ones included; there is always at least one.
* `filledPieces`: the pieces that hold a character.
-/

namespace CommandSchema.Text

/-- The pieces between the separators, empty ones included. -/
def pieces (sep : Char) : List Char → List (List Char)
  | [] => [[]]
  | c :: cs =>
    if c = sep then [] :: pieces sep cs
    else match pieces sep cs with
      | [] => [[c]]
      | p :: ps => (c :: p) :: ps

/-- The pieces between the separators that hold at least one character. -/
def filledPieces (sep : Char) (cs : List Char) : List (List Char) :=
  (pieces sep cs).filter fun p => !p.isEmpty

theorem pieces_ne_nil (sep : Char) (cs : List Char) : pieces sep cs ≠ [] := by
  cases cs with
  | nil => simp [pieces]
  | cons c cs =>
    unfold pieces
    split
    · simp
    · split <;> simp

end CommandSchema.Text
