/-!
# Readers

A reader takes something off the start of a text and gives what it stands for together with the rest
of the text. It fails on a text that does not start with such a thing. Lists are read by repeating a
reader; the repetition ends because every round leaves a shorter text.
-/

namespace PluginDiscovery.Text

/-- Reads an `α` off the start of a text. -/
abbrev Reader (α : Type) := List Char → Option (α × List Char)

namespace Reader

variable {α : Type}

/-- Puts a character in front of a text that has been read. -/
def prepend (c : Option Char) (read : Option (List Char × List Char)) :
    Option (List Char × List Char) := do
  let c ← c
  let (text, rest) ← read
  return (c :: text, rest)

/-- Takes one given character off a text. -/
def skipChar (c : Char) : List Char → Option (List Char)
  | [] => none
  | first :: rest => if first = c then some rest else none

/-- Reads one or more items with a separator between them. -/
def separated (item : Reader α) (separator : Char) (text : List Char) :
    Option (List α × List Char) := do
  let (first, rest) ← item text
  match skipChar separator rest with
  | none => return ([first], rest)
  | some next =>
    if _h : next.length < text.length then
      let (others, final) ← separated item separator next
      return (first :: others, final)
    else none
termination_by text.length

/-- Reads items with commas between them, and one after the last if need be, up to and including a
closing character. Before an item, a comma and the closing character something may be skipped. -/
def listed (item : Reader α) (skip : List Char → List Char) (close : Char) (text : List Char) :
    Option (List α × List Char) :=
  match skipChar close (skip text) with
  | some rest => some ([], rest)
  | none => do
    let (first, rest) ← item (skip text)
    match skipChar ',' (skip rest) with
    | none =>
      let final ← skipChar close (skip rest)
      return ([first], final)
    | some next =>
      if _h : next.length < text.length then
        let (others, final) ← listed item skip close next
        return (first :: others, final)
      else none
termination_by text.length

end Reader

end PluginDiscovery.Text
