import GrammarKit.Log
import GrammarKit.Recovery
import GrammarKit.Tree.Node

/-!
# Parsers

A parser is bound to one language at a time and turns texts into trees.  It never fails on a text:
what the grammar has no place for ends up in error nodes.
-/

namespace GrammarKit

/-- How deeply symbols may be nested unless said otherwise. -/
def defaultMaxDepth : Nat := 128

def maxDepthLimit : Nat := 1024

structure Parser where
  language : Option Language := none
  /-- How deeply symbols may be nested; what is nested more deeply does not match. -/
  maxDepth : Nat := defaultMaxDepth

structure Parse where
  tree : Tree
  bytes : Nat
  tokenCount : Nat
  maxDepth : Nat
  /-- Whether a symbol was given up because it was nested too deeply. -/
  truncated : Bool

namespace Parse

def sexp (p : Parse) : String :=
  p.tree.root.toSexp

def events (p : Parse) : List Event :=
  let language := p.tree.language.name
  let parsed := Event.textParsed language p.bytes p.tokenCount
  if p.truncated then [.nestingLimitHit language p.maxDepth, parsed] else [parsed]

end Parse

namespace Language

/-- Parses a text with at most `depth` symbols nested. -/
def parse (l : Language) (depth : Nat) (text : String) : Parse :=
  let lexed := l.lexer.tokenize text
  let input : Input := { tokens := lexed.tokens.toArray, length := text.utf8ByteSize }
  let (root, truncated) := l.parseRoot input depth
  { tree := Tree.ofSubtree l (root.insertExtras lexed.extras) text.toList
    bytes := text.utf8ByteSize
    tokenCount := lexed.tokens.length
    maxDepth := depth
    truncated }

end Language

namespace Parser

/-- A parser with the given nesting limit and no language yet. -/
def withMaxDepth (maxDepth : Nat) : Parser :=
  { maxDepth := min maxDepth maxDepthLimit }

def setMaxDepth (p : Parser) (maxDepth : Nat) : Parser :=
  { p with maxDepth := min maxDepth maxDepthLimit }

def setLanguage (p : Parser) (l : Language) : Except LanguageError Parser := do
  Artifact.checkVersion l.version
  return { p with language := some l }

/-- Parses a text, if the parser is bound to a language. -/
def parse (p : Parser) (text : String) : Option Parse :=
  p.language.map fun l => l.parse p.maxDepth text

end Parser

end GrammarKit
