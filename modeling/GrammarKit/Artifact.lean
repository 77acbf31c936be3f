import GrammarKit.Rule

/-!
# Grammar artifacts

An artifact is a grammar as data.  Nothing here checks it: it may refer to symbols that it does not
have, or hold patterns that cannot be read.
-/

namespace GrammarKit

inductive Definition where
  | endOfInput
  | literal (text : String)
  | pattern (regex : String)
  | rule (rule : Rule)
  | expression (table : ExpressionTable)
  /-- A kind of node that expression tables build and that is never matched by itself. -/
  | derived
deriving Repr

namespace Definition

def isToken : Definition → Bool
  | .literal _ => true
  | .pattern _ => true
  | _ => false

def isParseable : Definition → Bool
  | .rule _ => true
  | .expression _ => true
  | d => d.isToken

def isLiteral : Definition → Bool
  | .literal _ => true
  | _ => false

/-- Whether the symbol is the end of the input. -/
def isEnd : Definition → Bool
  | .endOfInput => true
  | _ => false

end Definition

structure SymbolInfo where
  name : String
  named : Bool
  /-- Hidden nonterminals leave their children to the node around them. -/
  hidden : Bool
  definition : Definition
deriving Repr

namespace SymbolInfo

/-- Nonterminals whose name starts with an underscore are hidden unless said otherwise. -/
def hidesByName (name : String) : Bool :=
  name.toList.head? == some '_'

def endOfInput : SymbolInfo :=
  { name := "end", named := false, hidden := true, definition := .endOfInput }

def literal (text : String) : SymbolInfo :=
  { name := text, named := false, hidden := false, definition := .literal text }

def pattern (name regex : String) : SymbolInfo :=
  { name, named := true, hidden := false, definition := .pattern regex }

def rule (name : String) (rule : Rule) : SymbolInfo :=
  { name, named := true, hidden := hidesByName name, definition := .rule rule }

def expression (name : String) (table : ExpressionTable) : SymbolInfo :=
  { name, named := true, hidden := hidesByName name, definition := .expression table }

def derived (name : String) : SymbolInfo :=
  { name, named := true, hidden := false, definition := .derived }

end SymbolInfo

structure Artifact where
  version : Nat
  name : String
  symbols : Array SymbolInfo
  /-- The symbol that a whole text is parsed as. -/
  root : Symbol
  extras : List Symbol
  /-- Tokens that end what is skipped after an error. -/
  recovery : List Symbol
deriving Repr

namespace Artifact

def empty : Artifact :=
  { version := 0, name := "", symbols := #[], root := 0, extras := [], recovery := [] }

/-- The definition of a symbol, if the table has it. -/
def definition? (a : Artifact) (s : Symbol) : Option Definition :=
  a.symbols[s]?.map (·.definition)

end Artifact

end GrammarKit
