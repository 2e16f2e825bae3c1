/-
# Deferral.Text.Split -- texts in parts

Paths, numbers in base sixty and file names are texts whose parts stand between
the places of a separator. There is always at least one part.
-/

namespace Deferral

/-- The parts of a text between the places of a separator. -/
def splitAtChar (separator : Char) : List Char → List (List Char)
  | [] => [[]]
  | c :: rest =>
    if c = separator then [] :: splitAtChar separator rest
    else match splitAtChar separator rest with
      | [] => [[c]]
      | part :: parts => (c :: part) :: parts

/-- Parts with a text between them. -/
def joinWith (separator : List Char) (parts : List (List Char)) : List Char :=
  separator.intercalate parts

end Deferral
