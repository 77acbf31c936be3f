import GrammarKit.Text.Utf8

/-!
# Access to files

What the program asks of the files around it: reading a file, listing a directory, and whether
there is a file at all.
-/

namespace GrammarKit

/-- Why a file could not be read or a directory could not be listed. -/
inductive ReadFault where
  | notFound
  | isDirectory
  | notDirectory
  | notText
  /-- Any other reason, in the words of the system. -/
  | other (message : String)
deriving DecidableEq, Repr

def ReadFault.message : ReadFault → String
  | .notFound => "No such file or directory (os error 2)"
  | .isDirectory => "Is a directory (os error 21)"
  | .notDirectory => "Not a directory (os error 20)"
  | .notText => "stream did not contain valid UTF-8"
  | .other message => message

/-- Files as a program that runs in `m` gets at them. -/
structure FileAccess (m : Type → Type) where
  readBytes : (path : String) → m (Except ReadFault (List UInt8))
  /-- The names in the directory at a path, in any order. -/
  listDirectory : (path : String) → m (Except ReadFault (List String))
  /-- Whether there is a file at a path, and not a directory. -/
  isFile : (path : String) → m Bool

namespace FileAccess

variable {m : Type → Type} [Monad m]

def readText (files : FileAccess m) (path : String) : m (Except ReadFault String) := do
  match ← files.readBytes path with
  | .error fault => return .error fault
  | .ok bytes =>
    match Text.decode bytes with
    | .error _ => return .error .notText
    | .ok text => return .ok text

end FileAccess

end GrammarKit
