import GrammarKit.Language
import GrammarKit.Subtree
import GrammarKit.Text.Position

/-!
# Trees

A finished tree keeps its nodes in one array in breadth-first order, so that the children of a node
stand side by side.
-/

namespace GrammarKit

structure NodeData where
  symbol : Symbol
  start : Nat
  stop : Nat
  /-- The index of the node above; the root has none. -/
  parent : Option Nat
  /-- The index of the first child, if there is a child. -/
  firstChild : Nat
  childCount : Nat
  /-- Whether the node is a token that may stand anywhere. -/
  extra : Bool
  /-- Whether the node or a node below it is an error. -/
  hasError : Bool
deriving DecidableEq, Repr

namespace Subtree

/-- The node for a tree whose children have no place yet. -/
def seed (parent : Option Nat) (t : Subtree) : NodeData :=
  { symbol := t.symbol
    start := t.start
    stop := t.stop
    parent
    firstChild := 0
    childCount := 0
    extra := t.extra
    hasError := t.isError }

/-- The trees, numbered from `index` on, whose children are still without a place: the children
with the number of the tree above them.  Trees without children do not wait. -/
def waiting : (index : Nat) → List Subtree → List (Nat × List Subtree)
  | _, [] => []
  | index, t :: ts =>
    if t.children.isEmpty then waiting (index + 1) ts
    else (index, t.children) :: waiting (index + 1) ts

/-- Gives the children of the node at the index `parent` places behind all nodes. -/
def place (nodes : Array NodeData) (parent : Nat) (children : List Subtree) : Array NodeData :=
  nodes.modify parent (fun d =>
      { d with firstChild := nodes.size, childCount := children.length }) ++
    (children.map (seed (some parent))).toArray

/-- Gives places to all children that wait, those of one node after those of the other.  Their own
children wait until all others had their turn; `turns` bounds how many turns there are. -/
def settle : (turns : Nat) → (nodes : Array NodeData) → (queue : List (Nat × List Subtree)) →
    Array NodeData
  | 0, nodes, _ => nodes
  | _ + 1, nodes, [] => nodes
  | turns + 1, nodes, (parent, children) :: queue =>
    settle turns (place nodes parent children) (queue ++ waiting nodes.size children)

/-- Marks the node above the one at an index, if that one is marked. -/
def markAbove (nodes : Array NodeData) (index : Nat) : Array NodeData :=
  match nodes[index]? with
  | none => nodes
  | some d =>
    match d.parent with
    | none => nodes
    | some p => if d.hasError then nodes.modify p fun e => { e with hasError := true } else nodes

/-- Marks every node above a marked one, from the index `last` down. -/
def markErrors : (last : Nat) → Array NodeData → Array NodeData
  | 0, nodes => nodes
  | last + 1, nodes => markErrors last (markAbove nodes (last + 1))

/-- All trees within a tree in one array, level by level.  Children come behind their parents, so
that errors are passed on from the end of the array to its start. -/
def nodes (t : Subtree) : Array NodeData :=
  let nodes := settle (t.size + 1) #[seed none t] [(0, t.children)]
  markErrors (nodes.size - 1) nodes

@[simp] theorem size_place (nodes : Array NodeData) (parent : Nat) (children : List Subtree) :
    (place nodes parent children).size = nodes.size + children.length := by
  simp [place]

theorem size_le_settle (turns : Nat) (nodes : Array NodeData)
    (queue : List (Nat × List Subtree)) : nodes.size ≤ (settle turns nodes queue).size := by
  induction turns generalizing nodes queue with
  | zero => exact Nat.le_refl _
  | succ turns ih =>
    match queue with
    | [] => exact Nat.le_refl _
    | (parent, children) :: queue =>
      refine Nat.le_trans ?_ (ih _ _)
      rw [size_place]
      exact Nat.le_add_right _ _

@[simp] theorem size_markAbove (nodes : Array NodeData) (index : Nat) :
    (markAbove nodes index).size = nodes.size := by
  unfold markAbove
  split
  · rfl
  · split
    · rfl
    · split <;> simp

@[simp] theorem size_markErrors (last : Nat) (nodes : Array NodeData) :
    (markErrors last nodes).size = nodes.size := by
  induction last generalizing nodes with
  | zero => rfl
  | succ last ih => rw [markErrors, ih, size_markAbove]

theorem size_nodes_pos (t : Subtree) : 0 < t.nodes.size := by
  rw [nodes, size_markErrors]
  exact Nat.lt_of_lt_of_le Nat.zero_lt_one (size_le_settle (t.size + 1) #[seed none t] _)

end Subtree

structure Tree where
  language : Language
  nodes : Array NodeData
  /-- The bytes at which the lines of the text start. -/
  lineStarts : List Nat
  nonempty : 0 < nodes.size

namespace Tree

/-- The finished tree for what was built from a text. -/
def ofSubtree (language : Language) (root : Subtree) (text : List Char) : Tree :=
  { language
    nodes := root.nodes
    lineStarts := Text.lineStarts text
    nonempty := root.size_nodes_pos }

def point (t : Tree) (byte : Nat) : Text.Point :=
  Text.pointAt t.lineStarts byte

end Tree

end GrammarKit
