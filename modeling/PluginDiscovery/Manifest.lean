import PluginDiscovery.Files
import PluginDiscovery.NameMap
import PluginDiscovery.Text.Blank
import PluginDiscovery.Traced

/-!
# Manifests

A manifest is a text at a fixed path that lists one type name per line. Every root of the search
path may hold a fragment of it, and all fragments count, in the order of the search path. A line is
listed without the blanks around it, and blank lines are passed over; the lines themselves are
numbered from one, blank ones included.

A fragment must be UTF-8. It is read line by line, so the listings before the first bad line have
been noted when the fault is found.
-/

namespace PluginDiscovery

/-! ## Lines of a stream -/

namespace Stream

/-- The reason for refusing bytes that are not UTF-8. -/
def notText : String := "stream did not contain valid UTF-8"

/-- The lines among pieces of bytes, the last of which is not ended, and why reading stopped, if it
did not reach the end. A stream that breaks off loses the line that is not ended. -/
def linesOf (failure : Option String) : List (List UInt8) → List String × Option String
  | [] => ([], failure)
  | [last] =>
    match failure with
    | some reason => ([], some reason)
    | none =>
      if last.isEmpty then ([], none)
      else
        match textOf? last with
        | some text => ([text], none)
        | none => ([], some notText)
  | piece :: rest =>
    match textOf? piece with
    | some text =>
      let (texts, stopped) := linesOf failure rest
      (text :: texts, stopped)
    | none => ([], some notText)

/-- The byte that ends a line. -/
def lineEnd : UInt8 := 10

/-- The lines that can be read, and why reading stopped, if it did not reach the end. -/
def lines (stream : Stream) : List String × Option String :=
  linesOf stream.failure (stream.bytes.splitOn lineEnd)

end Stream

/-! ## The search path -/

/-- A root of the search path. -/
inductive ModuleRoot where
  /-- A folder of the file system. -/
  | folder (path : String)
  /-- Texts by path, compiled into the program. -/
  | embedded (label : String) (resources : NameMap String)
  /-- A root that fails: it cannot be opened or, if it has content, breaks off after it. -/
  | faulty (location : String) (content : Option String) (reason : String)
deriving DecidableEq

namespace ModuleRoot

/-- Where the root is, for notes and faults. -/
def location : ModuleRoot → String
  | folder path => path
  | embedded label _ => s!"embedded:{label}"
  | faulty location _ _ => location

/-- The path of a root that is a folder. -/
def folderPath? : ModuleRoot → Option String
  | folder path => some path
  | _ => none

/-- Opens a path in the root. -/
def openPath (files : Files) (path : String) : ModuleRoot → Opening
  | folder root => files.openPath (Path.join root path)
  | embedded _ resources =>
    match resources.find? path with
    | some text => .opened (.ofText text)
    | none => .absent
  | faulty _ content reason =>
    match content with
    | some text => .opened { bytes := bytesOf text, failure := some reason }
    | none => .refused reason

end ModuleRoot

/-! ## Listings -/

/-- A type name that a manifest lists. -/
structure Listing where
  /-- The fragment that it comes from. -/
  source : String
  /-- The number of its line. -/
  line : Nat
  /-- The name. -/
  typeName : String
deriving DecidableEq, Repr

/-- The place of a listing, for notes and faults. -/
def Listing.position (listing : Listing) : String := s!"{listing.source}:{listing.line}"

namespace Manifest

/-- The listings of numbered lines. -/
def listings (source : String) (lines : List (String × Nat)) : List Listing :=
  (lines.filterMap fun (text, line) =>
    let typeName := Text.trim text
    if typeName.isEmpty then none else some { source, line, typeName })

/-- Makes a note of every listing. -/
def noteAll : List Listing → Traced Fault Unit
  | [] => .ok ()
  | listing :: rest => do
    .note s!"processing entry {listing.typeName} from {listing.source}"
    noteAll rest

/-- The fault that a fragment cannot be read. -/
def unreadable (source reason : String) : Fault := ⟨.unreadableManifest, [source, reason]⟩

/-- Reads the fragment of one root. -/
def readFragment (files : Files) (path : String) (root : ModuleRoot) :
    Traced Fault (List Listing) := do
  let source := s!"{root.location}/{path}"
  match root.openPath files path with
  | .absent => return []
  | .refused reason => .fail (unreadable source reason)
  | .opened stream =>
    .note s!"resource found at {source}"
    let (texts, stopped) := stream.lines
    let found := listings source (texts.zipIdx 1)
    noteAll found
    match stopped with
    | some reason => .fail (unreadable source reason)
    | none => return found

/-- Reads the fragments of all roots, in order, and lists what they list. The first fragment that
cannot be read ends the reading. -/
def read (files : Files) (path : String) : List ModuleRoot → Traced Fault (List Listing)
  | [] => return []
  | root :: rest => do
    let found ← readFragment files path root
    let others ← read files path rest
    return found ++ others

end Manifest

end PluginDiscovery
