import GrammarKit.Proofs.Settling
import GrammarKit.Tree.Node

/-!
# Trees in one array

The nodes of a finished tree are the trees within the tree that it was made of, level by level.
Going down from node to node in the array is going down in that tree.
-/

namespace GrammarKit

namespace Node

-- The children that stand side by side are those at the positions of children.
theorem children_eq {tree : Tree} (n : Node tree) :
    n.children = (List.range n.childCount).filterMap n.child? := by
  rw [children, List.range'_eq_map_range, List.filterMap_map]
  refine List.filterMap_congr fun k hk => ?_
  exact (if_pos (List.mem_range.mp hk)).symm

section

variable {l : Language} {t : Subtree} {text : List Char}

theorem size_nodes (l : Language) (t : Subtree) (text : List Char) :
    (Tree.ofSubtree l t text).nodes.size = t.breadthFirst.length :=
  t.size_nodes

/-- The tree that the node was made of. -/
def subtree (n : Node (Tree.ofSubtree l t text)) : Subtree :=
  t.breadthFirst.get ⟨n.index.val, size_nodes l t text ▸ n.index.isLt⟩

theorem getElem?_breadthFirst (n : Node (Tree.ofSubtree l t text)) :
    t.breadthFirst[n.index.val]? = some n.subtree :=
  List.getElem?_eq_getElem _

theorem data_shows (n : Node (Tree.ofSubtree l t text)) :
    n.subtree.Shows (1 + Subtree.firstChildIndex t.breadthFirst n.index) n.data := by
  have hd : t.nodes[n.index.val]? = some n.data := Array.getElem?_eq_getElem n.index.isLt
  exact Subtree.nodes_shows n.getElem?_breadthFirst hd

variable (n : Node (Tree.ofSubtree l t text))

@[simp] theorem symbol_eq : n.symbol = n.subtree.symbol := n.data_shows.symbol

@[simp] theorem start_eq : n.start = n.subtree.start := n.data_shows.start

@[simp] theorem stop_eq : n.stop = n.subtree.stop := n.data_shows.stop

@[simp] theorem isExtra_eq : n.isExtra = n.subtree.extra := n.data_shows.extra

@[simp] theorem hasError_eq : n.hasError = n.subtree.hasError := n.data_shows.hasError

@[simp] theorem childCount_eq : n.childCount = n.subtree.children.length := n.data_shows.childCount

@[simp] theorem isError_eq : n.isError = n.subtree.isError := by
  rw [isError, symbol_eq]
  rfl

theorem subtree_within : n.subtree.Within t :=
  Subtree.within_of_mem_breadthFirst (List.getElem_mem _)

theorem subtree_root : (Tree.ofSubtree l t text).root.subtree = t := by
  have h := getElem?_breadthFirst (Tree.ofSubtree l t text).root
  rw [Subtree.breadthFirst_eq] at h
  exact (Option.some.inj h).symm

-- A node other than the root lies within a child of the root.
theorem eq_root_or_within_child :
    n = (Tree.ofSubtree l t text).root ∨ ∃ c ∈ t.children, n.subtree.Within c := by
  obtain ⟨⟨index, hlt⟩⟩ := n
  cases index with
  | zero => exact .inl rfl
  | succ index =>
    refine .inr ?_
    have hget := getElem?_breadthFirst (⟨⟨index + 1, hlt⟩⟩ : Node (Tree.ofSubtree l t text))
    rw [Subtree.breadthFirst_eq, List.getElem?_cons_succ] at hget
    obtain ⟨s, hs, hchild⟩ := List.mem_flatMap.mp (List.mem_of_getElem? hget)
    -- the node is a child of some tree, which is the root or lies within a child of it
    cases Subtree.within_of_mem_breadthFirst hs with
    | refl => exact ⟨_, hchild, .refl⟩
    | child hc hs => exact ⟨_, hc, (Subtree.Within.child hchild .refl).trans hs⟩

-- A tree stands at the index of each child.
theorem child?_eq {k : Nat} (hk : k < n.childCount) :
    (n.child? k).map subtree = n.subtree.children[k]? := by
  have hk' : k < n.subtree.children.length := by rwa [childCount_eq] at hk
  -- the root comes first in the array, before the children of everything
  have hindex : n.data.firstChild + k =
      Subtree.firstChildIndex t.breadthFirst n.index + k + 1 := by
    rw [n.data_shows.firstChild (List.ne_nil_of_length_pos (Nat.zero_lt_of_lt hk'))]
    omega
  have hget : t.breadthFirst[n.data.firstChild + k]? = n.subtree.children[k]? := by
    conv => lhs; rw [Subtree.breadthFirst_eq, hindex, List.getElem?_cons_succ]
    exact Subtree.getElem?_flatMap_children n.getElem?_breadthFirst hk'
  rw [List.getElem?_eq_getElem hk'] at hget ⊢
  obtain ⟨hlt, heq⟩ := List.getElem?_eq_some_iff.mp hget
  have hsize : n.data.firstChild + k < (Tree.ofSubtree l t text).nodes.size := by
    rwa [size_nodes]
  rw [child?, if_pos hk, Tree.node?, dif_pos hsize]
  exact congrArg some heq

/-- The children of a node are the children of its tree. -/
theorem children_map_subtree : n.children.map subtree = n.subtree.children := by
  have hall (ts : List Subtree) : (List.range ts.length).filterMap (ts[·]?) = ts := by
    induction ts with
    | nil => rfl
    | cons t ts ih =>
      rw [List.length_cons, List.range_succ_eq_map, List.filterMap_cons, List.filterMap_map]
      exact congrArg (t :: ·) ih
  rw [children_eq, List.map_filterMap]
  conv => rhs; rw [← hall n.subtree.children, ← childCount_eq]
  refine List.filterMap_congr fun k hk => ?_
  exact n.child?_eq (List.mem_range.mp hk)

theorem subtree_mem_children {c : Node (Tree.ofSubtree l t text)} (hc : c ∈ n.children) :
    c.subtree ∈ n.subtree.children := by
  rw [← children_map_subtree]
  exact List.mem_map_of_mem hc

-- With its children in place of a node, one node less is to be gone through.
theorem totalSize_below_le {count : Nat} {ns : List (Node (Tree.ofSubtree l t text))}
    (h : Subtree.totalSize ((n :: ns).map subtree) ≤ count + 1) :
    Subtree.totalSize ((n.children ++ ns).map subtree) ≤ count := by
  rw [List.map_append, children_map_subtree, Subtree.totalSize_append]
  simp only [List.map_cons, Subtree.totalSize, Subtree.size_eq] at h
  omega

-- Going through the nodes is going through their trees.
theorem preorder_map_subtree {count : Nat} {ns : List (Node (Tree.ofSubtree l t text))}
    (h : Subtree.totalSize (ns.map subtree) ≤ count) :
    (preorder count ns).map subtree = Subtree.preorderAll (ns.map subtree) := by
  induction count generalizing ns with
  | zero =>
    rw [List.map_eq_nil_iff.mp (Subtree.eq_nil_of_totalSize h)]
    rfl
  | succ count ih =>
    cases ns with
    | nil => rfl
    | cons n ns =>
      rw [preorder, List.map_cons, ih (n.totalSize_below_le h), List.map_append,
        children_map_subtree, Subtree.preorderAll_append, List.map_cons, Subtree.preorderAll,
        Subtree.preorder_eq, List.cons_append]

theorem size_subtree_le : n.subtree.size ≤ (Tree.ofSubtree l t text).nodes.size := by
  rw [size_nodes, Subtree.length_breadthFirst]
  exact n.subtree_within.size_le

theorem totalSize_singleton_le :
    Subtree.totalSize ([n].map subtree) ≤ (Tree.ofSubtree l t text).nodes.size :=
  n.size_subtree_le

/-- A node with all that is below it, each before its children. -/
theorem descendants_map_subtree : n.descendants.map subtree = n.subtree.preorder := by
  rw [descendants, preorder_map_subtree n.totalSize_singleton_le]
  exact List.append_nil _

end

end Node

end GrammarKit
