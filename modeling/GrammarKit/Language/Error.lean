import GrammarKit.Rule
import GrammarKit.Text.Quoted

/-!
# Why a grammar is refused
-/

namespace GrammarKit

/-- The oldest version of the artifact format that can be loaded. -/
def oldestVersion : Nat := 1

/-- The newest version of the artifact format that can be loaded. -/
def newestVersion : Nat := 1

inductive LanguageError where
  /-- The artifact has a version of the format that cannot be loaded. -/
  | unsupportedVersion (found : Nat)
  | noSymbols
  /-- The table is so long that its indexes would reach `errorSymbol`. -/
  | tooManySymbols (count : Nat)
  /-- The table does not start with the end of the input. -/
  | missingEnd
  /-- Two symbols share a name and whether they are named. -/
  | duplicateSymbol (name : String)
  /-- The root is no symbol that a rule defines. -/
  | invalidRoot (root : Symbol)
  /-- A symbol refers to one that cannot stand there. -/
  | invalidReference (owner : String) (symbol : Symbol)
  /-- An operator of an expression table is no literal token. -/
  | invalidOperator (owner : String) (symbol : Symbol)
  | emptyToken (name : String)
  | invalidPattern (name : String)
  /-- An extra or a recovery symbol is no token. -/
  | invalidToken (symbol : Symbol)
deriving DecidableEq, Repr

def LanguageError.message : LanguageError → String
  | .unsupportedVersion found =>
    s!"incompatible language version {found}, expected {oldestVersion}..={newestVersion}"
  | .noSymbols => "language has no symbols"
  | .tooManySymbols count =>
    s!"language has {count} symbols, at most {errorSymbol} are supported"
  | .missingEnd => "symbol 0 must be the end symbol"
  | .duplicateSymbol name => s!"duplicate symbol {Text.quote name}"
  | .invalidRoot root => s!"root symbol {root} is not a rule"
  | .invalidReference owner symbol => s!"{owner} references invalid symbol {symbol}"
  | .invalidOperator owner symbol =>
    s!"{owner} uses symbol {symbol} as an operator but it is not a literal"
  | .emptyToken name => s!"token {Text.quote name} matches the empty string"
  | .invalidPattern name => s!"invalid pattern for {name}"
  | .invalidToken symbol => s!"symbol {symbol} is not a token"

end GrammarKit
