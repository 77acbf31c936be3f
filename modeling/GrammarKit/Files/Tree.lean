import GrammarKit.Files.Access
import GrammarKit.Files.Path

/-!
# Trees of files

Files that are held as a value.
-/

namespace GrammarKit

/-- Files and directories by the segments of their paths from the top.  The directories that lead
to an entry are there with it. -/
structure FileTree where
  /-- The bytes of each file; a directory has none. -/
  entries : List (List String × Option (List UInt8)) := []
  workingDirectory : List String := []

inductive FileTree.Entry where
  | file (bytes : List UInt8)
  | directory (path : List String)

namespace FileTree

/-- What stands behind the given segments from the top. -/
def entry? (tree : FileTree) (path : List String) : Option Entry :=
  match tree.entries.lookup path with
  | some (some bytes) => some (.file bytes)
  | some none => some (.directory path)
  | none =>
    if path.isPrefixOf tree.workingDirectory || tree.entries.any (path.isPrefixOf ·.1) then
      some (.directory path)
    else none

def follow (tree : FileTree) : Entry → List String → Except ReadFault Entry
  | entry, [] => .ok entry
  | .file _, _ :: _ => .error .notDirectory
  | .directory path, segment :: rest =>
    if segment = "" || segment = "." then tree.follow (.directory path) rest
    else if segment = ".." then tree.follow (.directory path.dropLast) rest
    else
      match tree.entry? (path ++ [segment]) with
      | some entry => tree.follow entry rest
      | none => .error .notFound

def find (tree : FileTree) (path : String) : Except ReadFault Entry :=
  if path.isEmpty then .error .notFound
  else
    let start := if Path.isRelative path then tree.workingDirectory else []
    tree.follow (.directory start) (Path.segments path)

def names (tree : FileTree) (directory : List String) : List String :=
  (tree.entries.filterMap fun e =>
    if directory.isPrefixOf e.1 then (e.1.drop directory.length).head? else none).eraseDups

/-- The tree as files of a program without effects. -/
def access (tree : FileTree) : FileAccess Id where
  readBytes path :=
    match tree.find path with
    | .error fault => .error fault
    | .ok (.directory _) => .error .isDirectory
    | .ok (.file bytes) => .ok bytes
  listDirectory path :=
    match tree.find path with
    | .error fault => .error fault
    | .ok (.file _) => .error .notDirectory
    | .ok (.directory path) => .ok (tree.names path)
  isFile path :=
    match tree.find path with
    | .ok (.file _) => true
    | _ => false

end FileTree

end GrammarKit
