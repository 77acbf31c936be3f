/-!
# Commands

What the program can be asked to do.
-/

namespace GrammarKit

/-- Something that the program can be asked to do. -/
inductive Command where
  | verify
  /-- Parses a file and shows its tree, or only its errors. -/
  | parse (file : String) (quiet : Bool)
  | highlight (file : String)
  | nodeTypes
  | test (dir : String)
deriving DecidableEq, Repr

/-- A command with what is set for every command. -/
structure Invocation where
  command : Command
  verbose : Bool
  config : Option String
deriving DecidableEq, Repr

inductive UsageError where
  | help
  /-- The arguments ask for the version of the program. -/
  | version
  | nothingGiven
  | missingCommand
  | unknownCommand (word : String)
  /-- A command lacks what it is to work on. -/
  | missingOperand
  | unexpectedWord (word : String)
  /-- An option or a command lacks a value that is not empty. -/
  | missingValue
  | unwantedValue
  | repeated
deriving DecidableEq, Repr

end GrammarKit
