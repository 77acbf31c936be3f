import GrammarKit.Text.Alphanumeric
import GrammarKit.Text.Quoted
import GrammarKit.Tree.Node

/-!
# Queries

A query is a list of patterns over the nodes of a tree.  A pattern for a node asks for its kind and
for children that match further patterns in the same order, others between them being allowed; an
alternation asks for one of several patterns.  Nodes that a pattern matches can be captured under
names.
-/

namespace GrammarKit

inductive NodeTest where
  | anyNamed
  | kind (symbol : Symbol)
deriving DecidableEq, Repr

/-- A pattern for a node.  Captures are indexes of capture names. -/
inductive QueryPattern where
  | node (test : NodeTest) (children : List QueryPattern) (captures : List Nat)
  | alternation (alternatives : List QueryPattern) (captures : List Nat)
deriving Repr

structure Query where
  patterns : List QueryPattern
  captureNames : List String
deriving Repr

namespace Query

def patternCount (q : Query) : Nat :=
  q.patterns.length

def captureIndex? (q : Query) (name : String) : Option Nat :=
  q.captureNames.findIdx? (· == name)

end Query

/-! ## Matching -/

/-- A captured node and the index of the capture name. -/
structure Capture (tree : Tree) where
  node : Node tree
  index : Nat
deriving DecidableEq

/-- A pattern of a query that matches at a node. -/
structure QueryMatch (tree : Tree) where
  patternIndex : Nat
  captures : List (Capture tree)
deriving DecidableEq

def NodeTest.accepts {tree : Tree} : NodeTest → Node tree → Bool
  | .anyNamed, n => n.isNamed
  | .kind s, n => n.symbol == s

namespace QueryPattern

variable {tree : Tree}

/-- The captures of a pattern at the node that it matches. -/
def capturesAt (n : Node tree) (captures : List Nat) : List (Capture tree) :=
  captures.map (⟨n, ·⟩)

/-- Finds the first of the nodes that `first` matches and behind which `others` match too. -/
def seek (first : Node tree → Option (List (Capture tree)))
    (others : List (Node tree) → Option (List (Capture tree))) :
    List (Node tree) → Option (List (Capture tree))
  | [] => none
  | n :: ns =>
    match first n with
    | none => seek first others ns
    | some captured =>
      match others ns with
      | none => seek first others ns
      | some more => some (captured ++ more)

mutual

/-- The captures of the pattern at a node, its own before those of its parts, if it matches. -/
def matchNode (n : Node tree) : QueryPattern → Option (List (Capture tree))
  | .node test children captures =>
    if test.accepts n then
      (matchChildren children n.children).map (capturesAt n captures ++ ·)
    else none
  | .alternation alternatives captures =>
    (matchFirst n alternatives).map (capturesAt n captures ++ ·)

/-- The captures of the patterns at some of the nodes, in order. -/
def matchChildren : List QueryPattern → List (Node tree) → Option (List (Capture tree))
  | [], _ => some []
  | p :: ps, nodes => seek (fun n => p.matchNode n) (matchChildren ps) nodes

/-- The captures of the first pattern that matches at the node. -/
def matchFirst (n : Node tree) : List QueryPattern → Option (List (Capture tree))
  | [] => none
  | p :: ps =>
    match p.matchNode n with
    | some captured => some captured
    | none => matchFirst n ps

end

end QueryPattern

namespace Query

variable {tree : Tree}

/-- The patterns, numbered from `index` on, that match at a node. -/
def matchesAt (n : Node tree) : (index : Nat) → List QueryPattern → List (QueryMatch tree)
  | _, [] => []
  | index, p :: ps =>
    match p.matchNode n with
    | some captures => ⟨index, captures⟩ :: matchesAt n (index + 1) ps
    | none => matchesAt n (index + 1) ps

/-- Every match of a pattern at a node from `n` down, nodes before their children. -/
def run (q : Query) (n : Node tree) : List (QueryMatch tree) :=
  n.descendants.flatMap fun d => matchesAt d 0 q.patterns

end Query

/-! ## Results in words -/

/-- A capture in words: the name, the kind and the bytes of the node, and its text. -/
structure CapturedText where
  name : String
  kind : String
  start : Nat
  stop : Nat
  text : String
deriving DecidableEq, Repr

structure MatchReport where
  patternIndex : Nat
  captures : List CapturedText
deriving DecidableEq, Repr

namespace Query

variable {tree : Tree}

def captureName (q : Query) (index : Nat) : String :=
  q.captureNames[index]?.getD ""

/-- A capture in words; `source` is the text of the tree. -/
def describe (q : Query) (source : String) (c : Capture tree) : CapturedText :=
  { name := q.captureName c.index
    kind := c.node.kind
    start := c.node.start
    stop := c.node.stop
    text := c.node.text source }

def report (q : Query) (source : String) (n : Node tree) : List MatchReport :=
  (q.run n).map fun m => ⟨m.patternIndex, m.captures.map (q.describe source)⟩

end Query

end GrammarKit
