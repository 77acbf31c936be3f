/-!
# Regular expressions

The regular expressions of a grammar are compiled and run by an engine that is no part of this
library.  All that is asked of it here is that a search stays in the text that it searches.
-/

namespace GrammarKit

/-- A part of a text, from one place to another.  Places are counted in characters, so that no
character is cut. -/
@[ext]
structure Stretch where
  start : Nat
  stop : Nat
deriving DecidableEq, Repr

/-- A compiled regular expression. -/
structure Regex where
  /-- The stretch that a search of the text finds. -/
  find : (text : List Char) → Option Stretch
  /-- It ends in the text. -/
  stop_le : ∀ {text : List Char} {found : Stretch}, find text = some found →
    found.stop ≤ text.length

/-- Compiles what is written for a regular expression, or refuses it. -/
abbrev Regex.Compiler := (written : List Char) → Option Regex

end GrammarKit
