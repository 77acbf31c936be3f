import GrammarKit.Text.Blank

/-!
# S-expressions

The written form of a tree of kinds, and the form of such a text in which white space is reduced to
the single spaces that are needed.
-/

namespace GrammarKit

inductive Sexp where
  | node (kind : String) (children : List Sexp)
deriving Repr

namespace Sexp

mutual

/-- The tree in parentheses: its kind and then its children, each behind a space. -/
def chars : Sexp → List Char
  | .node kind children => '(' :: kind.toList ++ charsOfChildren children ++ [')']

def charsOfChildren : List Sexp → List Char
  | [] => []
  | t :: ts => ' ' :: t.chars ++ charsOfChildren ts

end

def render (t : Sexp) : String :=
  String.ofList t.chars

/-- Reduces white space in what follows `last`: a run of it becomes one space, and none is left
behind an opening parenthesis or before a closing one.  `gap` tells whether white space was just
passed over. -/
def normalizeFrom : (last : Option Char) → (gap : Bool) → List Char → List Char
  | _, _, [] => []
  | last, gap, c :: text =>
    if Text.isBlank c then normalizeFrom last last.isSome text
    else if gap && c != ')' && last != some '(' then ' ' :: c :: normalizeFrom (some c) false text
    else c :: normalizeFrom (some c) false text

/-- The characters of a text with its white space reduced. -/
def normalize (text : List Char) : List Char :=
  normalizeFrom none false text

def normalizeText (text : String) : String :=
  String.ofList (normalize text.toList)

end Sexp

end GrammarKit
