/-
# Deferral.Text.Order -- lists of texts in order

Names are listed in the order of their characters' codes.
-/

namespace Deferral

/-- Texts in order with one more. -/
def insertText (text : String) : List String → List String
  | [] => [text]
  | first :: rest =>
    if text ≤ first then text :: first :: rest else first :: insertText text rest

/-- Texts in order. -/
def inOrder : List String → List String
  | [] => []
  | text :: rest => insertText text (inOrder rest)

end Deferral
