import GrammarKit.Log
import GrammarKit.Parser
import GrammarKit.Pattern.Compile
import GrammarKit.Ponos.Grammar

/-!
# Loading grammars
-/

namespace GrammarKit

structure LoadFailure where
  /-- The name under which the grammar was to be loaded. -/
  grammar : String
  cause : LanguageError
deriving DecidableEq, Repr

def LoadFailure.message (f : LoadFailure) : String :=
  s!"Error loading {f.grammar} grammar"

namespace Language

def ponos : Except LanguageError Language :=
  ofArtifact Pattern.compile Ponos.artifact 0

/-- What the log tells when an artifact has become a language. -/
def loadedEvent (l : Language) : Event :=
  .languageLoaded l.name l.version l.kindCount

/-- Loads a grammar and binds it to a parser: the language, and what the log tells. -/
def verify (grammar : String) (artifact : Artifact) (identity : Nat) :
    Except LoadFailure Language × List Event :=
  match ofArtifact Pattern.compile artifact identity with
  | .error cause => (.error ⟨grammar, cause⟩, [.grammarRefused grammar])
  | .ok l =>
    match ({} : Parser).setLanguage l with
    | .error cause => (.error ⟨grammar, cause⟩, [l.loadedEvent, .grammarRefused grammar])
    | .ok _ => (.ok l, [l.loadedEvent, .grammarLoaded grammar l.version l.kindCount])

end Language

end GrammarKit
