/-
# Deferral.Item.Thread -- where a deep comment is shown

The path of a comment lists the ids of its ancestors and its own, with points
between them. A comment below the depth to which threads are shown appears in a
subtree of its own, whose root is the ancestor a fixed number of levels up.
-/

import Deferral.Item
import Deferral.Text.Split

namespace Deferral

/-- The depth to which threads are shown, unless the settings say otherwise. -/
def defaultDepthLimit : Int := 6

/-- The last `count` parts. For zero these are all of them, and below zero so many
are left out at the beginning. -/
def lastParts {α : Type} (parts : List α) (count : Int) : List α :=
  if 0 < count then parts.drop (parts.length - count.toNat) else parts.drop (-count).toNat

/-- The id of the root of the subtree in which a path is shown. -/
def subtreeRoot (path : List Char) (depthLimit : Int) : Except Failure Int :=
  match lastParts (splitAtChar '.' path) (depthLimit - 1) with
  | [] => .error .emptySelection
  | root :: _ =>
    match readInteger? root with
    | some id => .ok id
    | none => .error .malformedNumber

/-- The root of the subtree in which the path of an item is shown. -/
def Value.subtreeRoot (path : Value) (depthLimit : Value) : Except Failure Int := do
  match path with
  | .text path =>
    match depthLimit with
    | .int limit => Deferral.subtreeRoot path.toList limit
    | .bool limit => Deferral.subtreeRoot path.toList limit.toNat
    | _ => throw .wrongType
  | _ => throw .missingOperation

end Deferral
