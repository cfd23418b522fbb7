/-!
Contract: a text cut at every separator.

Owns: the pieces between separators. They are one more than the separators, and some may be empty.

Does not own: which character separates.
-/

namespace PassScheduler.Text

/-- The pieces of a text between separators, empty ones included. -/
def pieces (separator : Char) : List Char → List (List Char)
  | [] => [[]]
  | c :: rest =>
      if c = separator then
        [] :: pieces separator rest
      else match pieces separator rest with
      | [] => [[c]]
      | piece :: others => (c :: piece) :: others

end PassScheduler.Text
