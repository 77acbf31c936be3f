import GrammarKit.Token

/-!
# Subtrees

What matching builds: trees of symbols with the bytes that each of them spans.
-/

namespace GrammarKit

/-- A tree over the bytes from `start` up to `stop`. -/
structure Subtree where
  symbol : Symbol
  start : Nat
  stop : Nat
  children : List Subtree
  /-- Whether the tree is a token that may stand anywhere. -/
  extra : Bool
deriving Repr

namespace Subtree

def leaf (t : Token) : Subtree :=
  { symbol := t.symbol, start := t.start, stop := t.stop, children := [], extra := false }

/-- A tree without children, over a token that may stand anywhere. -/
def extraLeaf (t : Token) : Subtree :=
  { leaf t with extra := true }

/-- A tree that spans its children; without children it stands at `place`. -/
def node (symbol : Symbol) (children : List Subtree) (place : Nat) : Subtree :=
  { symbol
    start := (children.head?.map (·.start)).getD place
    stop := (children.getLast?.map (·.stop)).getD place
    children
    extra := false }

/-- Whether the tree is one of what could not be parsed. -/
def isError (t : Subtree) : Bool :=
  t.symbol == errorSymbol

/-- Whether the bytes of a token lie within those of the tree. -/
def encloses (t : Subtree) (token : Token) : Bool :=
  t.start ≤ token.start && token.stop ≤ t.stop

mutual

/-- Whether the tree or a tree in it could not be parsed. -/
def hasError : Subtree → Bool
  | ⟨symbol, _, _, children, _⟩ => symbol == errorSymbol || anyError children

def anyError : List Subtree → Bool
  | [] => false
  | t :: ts => t.hasError || anyError ts

end

mutual

def size : Subtree → Nat
  | ⟨_, _, _, children, _⟩ => 1 + totalSize children

def totalSize : List Subtree → Nat
  | [] => 0
  | t :: ts => t.size + totalSize ts

end

/-! ## Tokens that may stand anywhere -/

/-- Puts a token among trees in the order of the text: behind those that start no later. -/
def placeAmong (token : Token) (trees : List Subtree) : List Subtree :=
  trees.takeWhile (·.start ≤ token.start) ++
    extraLeaf token :: trees.dropWhile (·.start ≤ token.start)

mutual

/-- Adds a token to the deepest tree that encloses it, or to the whole tree if none does. -/
def insertExtra (token : Token) : Subtree → Subtree
  | ⟨symbol, start, stop, children, extra⟩ =>
    ⟨symbol, start, stop, (insertEnclosed token children).getD (placeAmong token children), extra⟩

/-- Adds a token to the first of the trees that encloses it, if one does. -/
def insertEnclosed (token : Token) : List Subtree → Option (List Subtree)
  | [] => none
  | t :: ts =>
    if t.encloses token then some (t.insertExtra token :: ts)
    else (insertEnclosed token ts).map (t :: ·)

end

def insertExtras (t : Subtree) (tokens : List Token) : Subtree :=
  tokens.foldl (fun t token => t.insertExtra token) t

end Subtree

end GrammarKit
