import PluginDiscovery.Loader

/-!
# Module trees

A module tree lays out modules on disk, one folder each below a common root, with the manifest
fragments that they contribute. A module enters the search path when it is first mentioned, and
stays there. A workbench is a tree together with a loader over the search path that the tree had
when the workbench was built.
-/

namespace PluginDiscovery

/-- Modules on disk. -/
structure ModuleTree where
  /-- The folder that holds the modules. -/
  root : String
  /-- The manifests' paths are those of the settings. -/
  settings : Settings
  /-- What is on disk. -/
  files : Files
  /-- The folders of the modules, in the order in which they were first mentioned. -/
  modules : List String := []

namespace ModuleTree

/-- The folder of a module. -/
def folder (tree : ModuleTree) (module : String) : String := Path.join tree.root module

/-- Mentions a module, which makes its folder if it is new. -/
def mention (tree : ModuleTree) (module : String) : ModuleTree :=
  let folder := tree.folder module
  if tree.modules.any (Path.same folder) then tree
  else { tree with files := tree.files.makeFolder folder, modules := tree.modules ++ [folder] }

/-- Writes a manifest of a module. -/
def writeBytes (tree : ModuleTree) (module manifest : String) (bytes : List UInt8) : ModuleTree :=
  let tree := tree.mention module
  { tree with files := tree.files.write (Path.join (tree.folder module) manifest) bytes }

/-- Writes the manifest of one side, one line for each name. -/
def writeLines (tree : ModuleTree) (side : Side) (module : String) (lines : List String) :
    ModuleTree :=
  tree.writeBytes module (tree.settings.manifest side)
    (bytesOf (String.join (lines.map fun line => line ++ "\n")))

/-- Removes both manifests of a module. -/
def clear (tree : ModuleTree) (module : String) : ModuleTree :=
  let tree := tree.mention module
  let remove (files : Files) (side : Side) : Files :=
    files.remove (Path.join (tree.folder module) (tree.settings.manifest side))
  { tree with files := remove (remove tree.files .interfaces) .implementations }

/-- The search path of the tree: all its modules. -/
def searchPath (tree : ModuleTree) : List ModuleRoot := tree.modules.map .folder

end ModuleTree

/-- A module tree and a loader over it. -/
structure Workbench where
  /-- The modules. -/
  tree : ModuleTree
  /-- The loader. -/
  loader : Loader

namespace Workbench

/-- Builds a workbench from the manifest fragments of some modules, below a root that is on disk.
The extension points of all modules are written first. -/
def build (catalog : Catalog) (settings : Settings) (files : Files) (root : String)
    (fragments : List (Side × String × List String)) : Workbench :=
  let write (side : Side) (tree : ModuleTree) (fragment : Side × String × List String) :
      ModuleTree :=
    if fragment.1 = side then tree.writeLines side fragment.2.1 fragment.2.2 else tree
  let tree := fragments.foldl (write .implementations)
    (fragments.foldl (write .interfaces) { root, settings, files })
  { tree, loader := { catalog, settings, searchPath := tree.searchPath } }

/-- Reloads over what the tree holds now. -/
def reload (bench : Workbench) : Workbench × Traced FaultReport LoadReport :=
  let (loader, run) := bench.loader.reload bench.tree.files
  ({ bench with loader }, run)

end Workbench

end PluginDiscovery
