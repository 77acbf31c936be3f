import GrammarKit.Sexp
import GrammarKit.Text.Utf8
import GrammarKit.Tree.Basic

/-!
# Nodes

What a node of a tree tells about itself, and the ways from it to other nodes.
-/

namespace GrammarKit

structure Node (tree : Tree) where
  index : Fin tree.nodes.size
deriving DecidableEq

namespace Tree

def node? (tree : Tree) (index : Nat) : Option (Node tree) :=
  if h : index < tree.nodes.size then some ⟨⟨index, h⟩⟩ else none

def root (tree : Tree) : Node tree :=
  ⟨⟨0, tree.nonempty⟩⟩

end Tree

namespace Node

variable {tree : Tree}

def data (n : Node tree) : NodeData :=
  tree.nodes[n.index]

def symbol (n : Node tree) : Symbol :=
  n.data.symbol

def kind (n : Node tree) : String :=
  (tree.language.kindName? n.symbol).getD ""

def isNamed (n : Node tree) : Bool :=
  tree.language.isNamed n.symbol

/-- Whether the node is a token that may stand anywhere. -/
def isExtra (n : Node tree) : Bool :=
  n.data.extra

/-- Whether the node holds what could not be parsed. -/
def isError (n : Node tree) : Bool :=
  n.symbol == errorSymbol

/-- Whether the node or a node below it is an error. -/
def hasError (n : Node tree) : Bool :=
  n.data.hasError

def start (n : Node tree) : Nat :=
  n.data.start

def stop (n : Node tree) : Nat :=
  n.data.stop

def startPoint (n : Node tree) : Text.Point :=
  tree.point n.start

def stopPoint (n : Node tree) : Text.Point :=
  tree.point n.stop

/-! ## Children, parent and siblings -/

def childCount (n : Node tree) : Nat :=
  n.data.childCount

def child? (n : Node tree) (i : Nat) : Option (Node tree) :=
  if i < n.childCount then tree.node? (n.data.firstChild + i) else none

def children (n : Node tree) : List (Node tree) :=
  (List.range' n.data.firstChild n.data.childCount).filterMap tree.node?

def namedChildren (n : Node tree) : List (Node tree) :=
  n.children.filter (·.isNamed)

def namedChildCount (n : Node tree) : Nat :=
  n.namedChildren.length

def namedChild? (n : Node tree) (i : Nat) : Option (Node tree) :=
  n.namedChildren[i]?

/-- The node above; the root has none. -/
def parent? (n : Node tree) : Option (Node tree) :=
  n.data.parent.bind tree.node?

def nextSibling? (n : Node tree) : Option (Node tree) := do
  let p ← n.parent?
  if n.index + 1 < p.data.firstChild + p.childCount then tree.node? (n.index + 1) else none

/-- The child of the node above that comes just before. -/
def prevSibling? (n : Node tree) : Option (Node tree) := do
  let p ← n.parent?
  if p.data.firstChild < n.index then tree.node? (n.index - 1) else none

/-! ## Descendants -/

/-- The given nodes with all that is below each, every node before its children; `count` bounds
how many there are. -/
def preorder : (count : Nat) → List (Node tree) → List (Node tree)
  | 0, _ => []
  | _ + 1, [] => []
  | count + 1, n :: ns => n :: preorder count (n.children ++ ns)

/-- The node and every node below it, each before its children. -/
def descendants (n : Node tree) : List (Node tree) :=
  preorder tree.nodes.size [n]

/-- Whether the node takes all the bytes from `start` up to `stop`. -/
def spans (n : Node tree) (start stop : Nat) : Bool :=
  n.start ≤ start && stop ≤ n.stop

/-- Goes down from a node to the first child that spans the bytes, as long as there is one;
`levels` bounds how often. -/
def narrow (start stop : Nat) : (levels : Nat) → Node tree → Node tree
  | 0, n => n
  | levels + 1, n =>
    match n.children.find? (·.spans start stop) with
    | some c => narrow start stop levels c
    | none => n

/-- The smallest node, from this one down, that spans the bytes. -/
def descendantFor? (n : Node tree) (start stop : Nat) : Option (Node tree) :=
  if n.spans start stop then some (narrow start stop tree.nodes.size n) else none

/-! ## Written forms -/

/-- The kinds of the named nodes, `levels` levels deep. -/
def skeletonWithin : (levels : Nat) → Node tree → Sexp
  | 0, n => .node n.kind []
  | levels + 1, n => .node n.kind (n.namedChildren.map (skeletonWithin levels))

/-- The kinds of the node and of the named nodes below it. -/
def skeleton (n : Node tree) : Sexp :=
  skeletonWithin tree.nodes.size n

def toSexp (n : Node tree) : String :=
  n.skeleton.render

/-- The kind of the node and the positions of its ends. -/
def summary (n : Node tree) : String :=
  "\x7bNode " ++ n.kind ++ " " ++ n.startPoint.render ++ " - " ++ n.stopPoint.render ++ "\x7d"

/-- The text of the node in the text that was parsed. -/
def text (n : Node tree) (source : String) : String :=
  String.ofList (Text.slice source.toList n.start n.stop)

/-- The text that the bytes at the node's place in `source` spell. -/
def textOfBytes (n : Node tree) (source : List UInt8) : Except Text.Utf8Fault String :=
  Text.decode ((source.drop n.start).take (n.stop - n.start))

end Node

/-- Every node of a tree, each before its children. -/
def Tree.walk (tree : Tree) : List (Node tree) :=
  tree.root.descendants

/-- The kind of the root and the positions of its ends. -/
def Tree.summary (tree : Tree) : String :=
  "\x7bTree " ++ tree.root.summary ++ "\x7d"

end GrammarKit
