import PluginDiscovery.Path

/-!
# Files

A file system as far as manifests need one: folders and files below a root. A place in it is given
by its components from the root. An absolute path starts at the root, any other path at the working
folder. Paths are followed from left to right, one segment at a time. A segment may stay (`.`), go
up (`..`, which stays at the root) or name something in the folder reached so far.

Opening a path finds nothing, is refused, or gives a stream. A folder can be opened, but reading it
fails.
-/

namespace PluginDiscovery

/-- What an opened resource yields: its bytes and, if reading breaks off after them, the reason. -/
structure Stream where
  /-- The bytes that can be read. -/
  bytes : List UInt8
  /-- Why reading fails after them; nothing for a stream that simply ends. -/
  failure : Option String := none
deriving DecidableEq, Repr

/-- What comes of opening a resource. -/
inductive Opening where
  /-- There is no such resource. -/
  | absent
  /-- There is something, but it cannot be opened. -/
  | refused (reason : String)
  /-- The resource can be read. -/
  | opened (stream : Stream)
deriving DecidableEq, Repr

/-- The bytes of a text. -/
def bytesOf (text : String) : List UInt8 := text.toUTF8.data.toList

/-- The text of bytes that are valid UTF-8. -/
def textOf? (bytes : List UInt8) : Option String := String.fromUTF8? ⟨bytes.toArray⟩

/-- The stream of a text. -/
def Stream.ofText (text : String) : Stream := { bytes := bytesOf text }

/-- The folders and files of a file system, each given by its components from the root. -/
structure Files where
  /-- The folder at which paths start that are not absolute. It is there, and so are the folders
  that it is in. -/
  working : List String := []
  /-- The other folders. -/
  folders : List (List String) := []
  /-- The files; of two entries for one path the first counts. -/
  files : List (List String × List UInt8) := []
deriving DecidableEq

namespace Files

/-- The place that a component of a path leads to. Up from the root is the root itself. -/
def step (place : List String) (component : String) : List String :=
  if component = ".." then place.dropLast else place ++ [component]

/-- The places that components lead to, one after the other. -/
def trail (place : List String) : List String → List (List String)
  | [] => []
  | component :: rest => step place component :: trail (step place component) rest

/-- Where a path starts. -/
def start (fs : Files) (path : String) : List String :=
  if Path.isAbsolute path then [] else fs.working

/-- Where a path leads if there is nothing but folders on the way. -/
def destination (fs : Files) (path : String) : List String :=
  (Path.components path).foldl step (fs.start path)

/-- What a path leads to. -/
inductive Target where
  /-- A folder. -/
  | folder (place : List String)
  /-- A file at a place, and its content. -/
  | file (place : List String) (bytes : List UInt8)
  /-- Nothing. -/
  | nothing
  /-- Through a file as if it were a folder. -/
  | throughFile
  /-- To a name that is too long for a file. -/
  | overlong

/-- The longest name of a file, in bytes. -/
def nameLimit : Nat := 255

/-- The shortest path that is too long, in bytes. -/
def pathLimit : Nat := 4096

/-- Whether there is a folder at a place. -/
def hasFolder (fs : Files) (place : List String) : Bool :=
  place.isPrefixOf fs.working || place ∈ fs.folders

/-- The content of the file at a place. -/
def content? (fs : Files) (place : List String) : Option (List UInt8) := fs.files.lookup place

/-- Follows the segments of a path from a place. -/
def follow (fs : Files) (place : List String) : List String → Target
  | [] => .folder place
  | segment :: rest =>
    if segment = "" || segment = "." then fs.follow place rest
    else if segment = ".." then fs.follow place.dropLast rest
    else if nameLimit < segment.utf8ByteSize then .overlong
    else
      let child := place ++ [segment]
      if fs.hasFolder child then fs.follow child rest
      else
        match fs.content? child with
        | none => .nothing
        | some bytes => if rest.isEmpty then .file child bytes else .throughFile

/-- Opens a path for reading. -/
def openPath (fs : Files) (path : String) : Opening :=
  if path.contains '\x00' then .refused "file name contained an unexpected NUL byte"
  else if path.isEmpty then .absent
  else if pathLimit ≤ path.utf8ByteSize then .refused "File name too long (os error 36)"
  else
    match fs.follow (fs.start path) (Path.segments path) with
    | .folder _ => .opened { bytes := [], failure := some "Is a directory (os error 21)" }
    | .file _ bytes => .opened { bytes }
    | .nothing => .absent
    | .throughFile => .refused "Not a directory (os error 20)"
    | .overlong => .refused "File name too long (os error 36)"

/-- Makes a folder at a place, if there is none. -/
def ensure (fs : Files) (place : List String) : Files :=
  if fs.hasFolder place then fs else { fs with folders := fs.folders ++ [place] }

/-- Makes a folder and all folders on the way to it. -/
def makeFolder (fs : Files) (path : String) : Files :=
  (trail (fs.start path) (Path.components path)).foldl ensure fs

/-- Writes a file, in place of what it held before, and makes the folders on the way to it. -/
def write (fs : Files) (path : String) (bytes : List UInt8) : Files :=
  let target := fs.destination path
  let fs := (trail (fs.start path) (Path.components path).dropLast).foldl ensure fs
  { fs with files := (target, bytes) :: fs.files.filter fun file => file.1 ≠ target }

/-- Removes the file or the folder that a path leads to, a folder with all that is in it. The
working folder stays. -/
def remove (fs : Files) (path : String) : Files :=
  match fs.follow (fs.start path) (Path.segments path) with
  | .file target _ => { fs with files := fs.files.filter fun file => file.1 ≠ target }
  | .folder target =>
    { fs with
      folders := fs.folders.filter fun folder => !target.isPrefixOf folder
      files := fs.files.filter fun file => !target.isPrefixOf file.1 }
  | _ => fs

/-- Making folders touches no file. -/
theorem files_foldl_ensure (fs : Files) (places : List (List String)) :
    (places.foldl ensure fs).files = fs.files := by
  induction places generalizing fs with
  | nil => rfl
  | cons place places ih =>
    rw [List.foldl_cons, ih, ensure]
    split <;> rfl

/-- Making folders leaves the working folder where it is. -/
theorem working_foldl_ensure (fs : Files) (places : List (List String)) :
    (places.foldl ensure fs).working = fs.working := by
  induction places generalizing fs with
  | nil => rfl
  | cons place places ih =>
    rw [List.foldl_cons, ih, ensure]
    split <;> rfl

/-- Without the files of one path, the other paths hold what they held. -/
theorem lookup_filter_ne (files : List (List String × List UInt8)) (target other : List String) :
    (files.filter fun file => file.1 ≠ target).lookup other =
      if target = other then none else files.lookup other := by
  induction files with
  | nil =>
    rw [List.filter_nil, List.lookup_nil]
    split <;> rfl
  | cons file files ih =>
    obtain ⟨name, bytes⟩ := file
    by_cases hname : name = target
    · have hfilter : ((name, bytes) :: files).filter (fun file => file.1 ≠ target) =
          files.filter fun file => file.1 ≠ target := by simp [hname]
      rw [hfilter, ih]
      by_cases hother : target = other
      · rw [if_pos hother, if_pos hother]
      · have hbeq : (other == name) = false := by
          rw [hname]
          simpa using Ne.symm hother
        rw [if_neg hother, if_neg hother, List.lookup_cons, hbeq]
    · have hfilter : ((name, bytes) :: files).filter (fun file => file.1 ≠ target) =
          (name, bytes) :: files.filter fun file => file.1 ≠ target := by simp [hname]
      rw [hfilter, List.lookup_cons, List.lookup_cons, ih]
      by_cases hother : target = other
      · have hbeq : (other == name) = false := by
          rw [← hother]
          simpa using Ne.symm hname
        simp only [hbeq, if_pos hother]
      · rw [if_neg hother, if_neg hother]

/-- A file holds what was written to it last. -/
theorem content?_write (fs : Files) (path : String) (bytes : List UInt8) (other : List String) :
    (fs.write path bytes).content? other =
      if fs.destination path = other then some bytes else fs.content? other := by
  simp only [write, content?, files_foldl_ensure, List.lookup_cons, lookup_filter_ne]
  by_cases h : fs.destination path = other
  · simp [h]
  · have hbeq : (other == fs.destination path) = false := by simpa using Ne.symm h
    simp only [hbeq, if_neg h]

end Files

end PluginDiscovery
