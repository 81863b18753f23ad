/-!
# Similarity of texts

The Jaro-Winkler similarity of two texts, a number between 0 and 1. Two characters match when they
are equal and not further apart than half the longer text less one; every character matches once,
the earliest possible partner first. The Jaro similarity is the mean of the share of characters
matched in each text and of the share of matches that are in the same order. Texts that are already
similar gain by up to four equal characters at their starts.
-/

namespace PluginDiscovery.Text

/-- Marks the first unused character equal to `c` at a place from `low` up to, but not including,
`high`. The texts are given from the place `place` on. -/
def claim (c : Char) (low high place : Nat) : List (Char × Bool) → Option (List (Char × Bool))
  | [] => none
  | (other, used) :: rest =>
    if high ≤ place then none
    else if low ≤ place && c = other && !used then some ((other, true) :: rest)
    else (claim c low high (place + 1) rest).map ((other, used) :: ·)

/-- The characters of a text, given with their places, that find a partner, and the other text with
the partners marked. -/
def matchUp (range : Nat) (other : List (Char × Bool)) :
    List (Char × Nat) → List Char × List (Char × Bool)
  | [] => ([], other)
  | (c, place) :: rest =>
    match claim c (place - range) (place + range + 1) 0 other with
    | none => matchUp range other rest
    | some marked =>
      let (found, final) := matchUp range marked rest
      (c :: found, final)

/-- The Jaro similarity. -/
def jaro (a b : List Char) : Float :=
  if a.isEmpty && b.isEmpty then 1.0
  else if a.isEmpty || b.isEmpty then 0.0
  else
    let range := max a.length b.length / 2 - 1
    let (found, marked) := matchUp range (b.map fun c => (c, false)) a.zipIdx
    let partners := (marked.filter (·.2)).map (·.1)
    let misplaced := ((found.zip partners).filter fun pair => pair.1 ≠ pair.2).length / 2
    let count := found.length.toFloat
    if found.isEmpty then 0.0
    else
      (count / a.length.toFloat + count / b.length.toFloat
        + (found.length - misplaced).toFloat / count) / 3.0

/-- The number of equal characters at the starts of two texts. -/
def commonStart : List Char → List Char → Nat
  | a :: as, b :: bs => if a = b then commonStart as bs + 1 else 0
  | _, _ => 0

/-- The Jaro-Winkler similarity. -/
def similarity (a b : String) : Float :=
  let base := jaro a.toList b.toList
  if base > 0.7 then
    base + 0.1 * (min 4 (commonStart a.toList b.toList)).toFloat * (1.0 - base)
  else base

end PluginDiscovery.Text
