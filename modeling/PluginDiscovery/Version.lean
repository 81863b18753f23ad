import PluginDiscovery.Text.Numeral

/-!
# Semantic versions

A semantic version is three numbers, an optional pre-release and optional build information, such as
`1.2.3-alpha.1+build.5`. Numbers have no leading zeros and fit into 64 bits; the parts of a
pre-release are not empty and those of digits alone have no leading zeros either; the parts of the
build information are not empty. Anything else is no version.
-/

namespace PluginDiscovery

/-- A semantic version. -/
structure Version where
  /-- The number that changes with incompatible releases. -/
  major : Nat
  /-- The number that changes with new features. -/
  minor : Nat
  /-- The number that changes with corrections. -/
  patch : Nat
  /-- The pre-release, empty for a release. -/
  preRelease : String := ""
  /-- The build information, which may be empty. -/
  build : String := ""
deriving DecidableEq, Repr

namespace Version

/-- Whether a text of digits starts with a zero that does not stand for zero. -/
def hasLeadingZero : List Char → Bool
  | '0' :: _ :: _ => true
  | _ => false

/-- Reads a number of 64 bits that has no leading zero. -/
def number? (text : List Char) : Option Nat :=
  if text.isEmpty || !text.all Char.isDigit || hasLeadingZero text then none
  else if Text.valueIn 10 text < UInt64.size then some (Text.valueIn 10 text) else none

/-- Whether a part consists of letters, digits and hyphens, one at least. -/
def isIdentifier (part : List Char) : Bool :=
  !part.isEmpty && part.all fun c => c.isAlphanum || c = '-'

/-- Whether a part is allowed in a pre-release. -/
def isPreReleasePart (part : List Char) : Bool :=
  isIdentifier part && !(part.all Char.isDigit && hasLeadingZero part)

/-- Reads an optional dotted part of which every piece passes a test. -/
def dotted? (accepts : List Char → Bool) : Option (List Char) → Option String
  | none => some ""
  | some text => if (text.splitOn '.').all accepts then some (String.ofList text) else none

/-- Reads a version. -/
def ofText? (text : String) : Option Version := do
  let (release, build) := Text.cutWhere (· = '+') text.toList
  let (core, preRelease) := Text.cutWhere (· = '-') release
  let [major, minor, patch] := core.splitOn '.' | none
  return {
    major := ← number? major
    minor := ← number? minor
    patch := ← number? patch
    preRelease := ← dotted? isPreReleasePart preRelease
    build := ← dotted? isIdentifier build
  }

/-- The version as text. -/
def text (v : Version) : String :=
  s!"{v.major}.{v.minor}.{v.patch}"
    ++ (if v.preRelease.isEmpty then "" else "-" ++ v.preRelease)
    ++ (if v.build.isEmpty then "" else "+" ++ v.build)

end Version

end PluginDiscovery
