import GrammarKit.Text.Quoted

/-!
# Why a query is refused
-/

namespace GrammarKit

/-- A part of query languages that is left out. -/
inductive QueryFeature where
  | predicates
  | anchors
  | negatedFields
  | fields
  | quantifiers
  | groupedPatterns
deriving DecidableEq, Repr

def QueryFeature.label : QueryFeature → String
  | .predicates => "predicates"
  | .anchors => "anchors"
  | .negatedFields => "negated fields"
  | .fields => "fields"
  | .quantifiers => "quantifiers"
  | .groupedPatterns => "grouped patterns"

/-- What is wrong with the written form of a query. -/
inductive QueryFault where
  | unexpected (c : Char)
  | unexpectedEnd
  | expectedPattern
  | expectedCaptureName
  | expectedKind
  | unclosedParenthesis
  | unclosedBracket
  | unterminatedString
  | emptyAlternation
deriving DecidableEq, Repr

def QueryFault.message : QueryFault → String
  | .unexpected c => "unexpected " ++ Text.quoteChar c
  | .unexpectedEnd => "unexpected end of query"
  | .expectedPattern => "expected a pattern"
  | .expectedCaptureName => "expected a capture name"
  | .expectedKind => "expected a node kind"
  | .unclosedParenthesis => "unclosed `(`"
  | .unclosedBracket => "unclosed `[`"
  | .unterminatedString => "unterminated string"
  | .emptyAlternation => "empty alternation"

/-- Why a query is refused, with the byte of its text where that shows. -/
inductive QueryError where
  | malformed (offset : Nat) (fault : QueryFault)
  /-- There is no such kind of node, or none that can be seen. -/
  | unknownKind (offset : Nat) (name : String)
  | unsupported (offset : Nat) (feature : QueryFeature)
deriving DecidableEq, Repr

namespace QueryError

/-- The byte of the query's text that the error is about. -/
def offset : QueryError → Nat
  | .malformed offset _ => offset
  | .unknownKind offset _ => offset
  | .unsupported offset _ => offset

def message : QueryError → String
  | .malformed offset fault => s!"syntax error at offset {offset}: " ++ fault.message
  | .unknownKind offset name => s!"invalid node type {Text.quote name} at offset {offset}"
  | .unsupported offset feature => feature.label ++ s!" are not supported (at offset {offset})"

end QueryError

end GrammarKit
