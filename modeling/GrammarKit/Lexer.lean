import GrammarKit.Artifact
import GrammarKit.Language.Error
import GrammarKit.Regex
import GrammarKit.Text.Blank
import GrammarKit.Text.Utf8
import GrammarKit.Token

/-!
# Cutting a text into tokens

At every place the longest token wins; among tokens of one length a literal wins over a pattern,
and then the symbol that comes first in the table.  White space between tokens is dropped.
-/

namespace GrammarKit

structure LiteralToken where
  symbol : Symbol
  text : List Char

structure PatternToken where
  symbol : Symbol
  regex : Regex

/-- The tokens of a grammar, each kind in the order of the symbol table. -/
structure Lexer where
  literals : List LiteralToken
  patterns : List PatternToken
  /-- The symbols of the tokens that may stand anywhere. -/
  extras : List Symbol

/-- What could be read at a place of the text: a symbol and how many characters it takes. -/
structure Candidate where
  symbol : Symbol
  length : Nat
deriving DecidableEq, Repr

namespace Candidate

/-- The longer one of two candidates, or the first if neither is longer. -/
def longer (best : Option Candidate) (c : Candidate) : Option Candidate :=
  match best with
  | none => some c
  | some b => if b.length < c.length then some c else some b

end Candidate

def LiteralToken.candidate? (t : LiteralToken) (text : List Char) : Option Candidate :=
  if t.text.isPrefixOf text then some ⟨t.symbol, t.text.length⟩ else none

/-- Up to where a search finds the pattern in the text, unless that is its start. -/
def PatternToken.candidate? (t : PatternToken) (text : List Char) : Option Candidate :=
  match t.regex.find text with
  | some ⟨_, n + 1⟩ => some ⟨t.symbol, n + 1⟩
  | _ => none

namespace Lexer

/-- What is written for a pattern, in a group behind the start of the text. -/
def anchor (written : String) : List Char :=
  ['^', '(', '?', ':'] ++ written.toList ++ [')']

/-- Adds one symbol of the table behind those of `lexer`. -/
def addSymbol (compile : Regex.Compiler) (lexer : Lexer) (symbol : Symbol) (info : SymbolInfo) :
    Except LanguageError Lexer :=
  match info.definition with
  | .literal text =>
    if text.toList.isEmpty then .error (.emptyToken info.name)
    else .ok { lexer with literals := ⟨symbol, text.toList⟩ :: lexer.literals }
  | .pattern written =>
    match compile (anchor written) with
    | none => .error (.invalidPattern info.name)
    | some regex =>
      if (regex.find []).isSome then .error (.emptyToken info.name)
      else .ok { lexer with patterns := ⟨symbol, regex⟩ :: lexer.patterns }
  | _ => .ok lexer

/-- Adds the symbols of a table from the index `first` on. -/
def addSymbols (compile : Regex.Compiler) (lexer : Lexer) (first : Symbol) :
    List SymbolInfo → Except LanguageError Lexer
  | [] => .ok lexer
  | info :: rest => do
    (← lexer.addSymbol compile first info).addSymbols compile (first + 1) rest

/-- The lexer of a grammar, or the fault of the first token that cannot be used. -/
def ofArtifact (compile : Regex.Compiler) (a : Artifact) : Except LanguageError Lexer := do
  let lexer ← addSymbols compile ⟨[], [], a.extras⟩ 0 a.symbols.toList
  return { lexer with
    literals := lexer.literals.reverse
    patterns := lexer.patterns.reverse }

/-- Everything that could be read at the start of the text, literals first. -/
def candidates (lexer : Lexer) (text : List Char) : List Candidate :=
  lexer.literals.filterMap (·.candidate? text) ++ lexer.patterns.filterMap (·.candidate? text)

def longest (lexer : Lexer) (text : List Char) : Option Candidate :=
  (lexer.candidates text).foldl Candidate.longer none

/-- Cuts a text that starts at byte `offset`; its first `skip` characters belong to a token that
was found before. -/
def scan (lexer : Lexer) : (skip offset : Nat) → List Char → Lexed
  | _, _, [] => {}
  | skip + 1, offset, c :: text => scan lexer skip (offset + c.utf8Size) text
  | 0, offset, c :: text =>
    let next := offset + c.utf8Size
    if Text.isBlank c then scan lexer 0 next text
    else
      match lexer.longest (c :: text) with
      | some found =>
        let stop := offset + Text.byteLength ((c :: text).take found.length)
        (scan lexer (found.length - 1) next text).cons (lexer.extras.contains found.symbol)
          ⟨found.symbol, offset, stop⟩
      | none => (scan lexer 0 next text).consUnknown offset next

def tokenize (lexer : Lexer) (text : String) : Lexed :=
  lexer.scan 0 0 text.toList

end Lexer

end GrammarKit
