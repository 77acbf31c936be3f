import GrammarKit.Proofs.Descent
import Mathlib.Data.List.Nodup

/-!
# Nothing is lost in the array

From its root on, a finished tree can be unfolded again: what the nodes show of themselves, with
their children by position, is the tree that the array was made of.  A walk meets every node of the
array once, and below every node in the order in which that tree is read.
-/

namespace GrammarKit

namespace Node

variable {tree : Tree}

/-- What the node shows of itself and, `levels` levels deep, of its children by position. -/
def unfoldWithin : (levels : Nat) → Node tree → Subtree
  | 0, n => ⟨n.symbol, n.start, n.stop, [], n.isExtra⟩
  | levels + 1, n =>
    ⟨n.symbol, n.start, n.stop,
      ((List.range n.childCount).filterMap n.child?).map (unfoldWithin levels), n.isExtra⟩

/-- The node with all that is below it as a tree. -/
def unfolded (n : Node tree) : Subtree :=
  unfoldWithin tree.nodes.size n

section

variable {l : Language} {t : Subtree} {text : List Char} {d : Node (Tree.ofSubtree l t text)}
  {ns ms : List (Node (Tree.ofSubtree l t text))} (n : Node (Tree.ofSubtree l t text))

/-! ## Unfolding -/

theorem unfoldWithin_eq {levels : Nat} (h : n.subtree.size ≤ levels) :
    unfoldWithin levels n = n.subtree := by
  induction levels generalizing n with
  | zero => exact absurd h (Nat.not_le_of_lt n.subtree.size_pos)
  | succ levels ih =>
    have hchildren : n.children.map (unfoldWithin levels) = n.subtree.children := by
      rw [← children_map_subtree]
      refine List.map_congr_left fun c hc => ih c ?_
      exact Nat.le_of_lt_succ (Nat.lt_of_lt_of_le
        (Subtree.size_lt_of_mem_children (n.subtree_mem_children hc)) h)
    rw [unfoldWithin, ← children_eq, hchildren, symbol_eq, start_eq, stop_eq, isExtra_eq]
    cases n.subtree
    rfl

theorem unfolded_eq : n.unfolded = n.subtree :=
  n.unfoldWithin_eq n.size_subtree_le

/-! ## The way of a walk -/

theorem preorder_nil (count : Nat) : preorder count ([] : List (Node tree)) = [] := by
  cases count <;> rfl

-- With nodes enough to go through, it does not matter how many more there may be.
theorem preorder_congr {count count' : Nat} (h : Subtree.totalSize (ns.map subtree) ≤ count)
    (h' : Subtree.totalSize (ns.map subtree) ≤ count') :
    preorder count ns = preorder count' ns := by
  induction count generalizing ns count' with
  | zero =>
    rw [List.map_eq_nil_iff.mp (Subtree.eq_nil_of_totalSize h), preorder_nil, preorder_nil]
  | succ count ih =>
    cases ns with
    | nil => rw [preorder_nil, preorder_nil]
    | cons n ns =>
      cases count' with
      | zero => cases List.map_eq_nil_iff.mp (Subtree.eq_nil_of_totalSize h')
      | succ count' =>
        rw [preorder, preorder, ih (n.totalSize_below_le h) (n.totalSize_below_le h')]

theorem preorder_append {count : Nat} (h : Subtree.totalSize ((ns ++ ms).map subtree) ≤ count) :
    preorder count (ns ++ ms) = preorder count ns ++ preorder count ms := by
  induction count generalizing ns with
  | zero => rfl
  | succ count ih =>
    cases ns with
    | nil => rw [preorder_nil, List.nil_append, List.nil_append]
    | cons n ns =>
      have hbelow := n.totalSize_below_le h
      rw [List.append_eq, ← List.append_assoc] at hbelow
      have hms : Subtree.totalSize (ms.map subtree) ≤ count := by
        rw [List.map_append, Subtree.totalSize_append] at hbelow
        omega
      rw [List.cons_append, preorder, preorder, List.cons_append, ← List.append_assoc, ih hbelow,
        preorder_congr hms (Nat.le_succ_of_le hms)]

-- Going through nodes is going through each of them with what is below it.
theorem preorder_eq_flatMap {count : Nat} (h : Subtree.totalSize (ns.map subtree) ≤ count) :
    preorder count ns = ns.flatMap descendants := by
  induction ns with
  | nil => exact preorder_nil count
  | cons n ns ih =>
    have hsplit : Subtree.totalSize ([n].map subtree) + Subtree.totalSize (ns.map subtree) ≤
        count := by
      rwa [← Subtree.totalSize_append, ← List.map_append]
    have happend : preorder count ([n] ++ ns) = _ := preorder_append h
    rw [List.flatMap_cons, ← ih (by omega), descendants,
      preorder_congr n.totalSize_singleton_le (show _ ≤ count by omega), ← happend]
    rfl

/-- A node comes before its children, and each of these with what is below it before the next. -/
theorem descendants_eq : n.descendants = n :: n.children.flatMap descendants := by
  have hsize := n.totalSize_singleton_le
  obtain ⟨count, hcount⟩ : ∃ count, (Tree.ofSubtree l t text).nodes.size = count + 1 :=
    ⟨_, (Nat.succ_pred_eq_of_pos (Tree.ofSubtree l t text).nonempty).symm⟩
  rw [hcount] at hsize
  have hbelow := n.totalSize_below_le hsize
  rw [List.append_nil] at hbelow
  rw [descendants, hcount, preorder, List.append_nil, preorder_eq_flatMap hbelow]

theorem nodup_descendants : n.descendants.Nodup :=
  n.pairwise_descendants.imp fun h => by
    rintro rfl
    exact Before.irrefl h

theorem descendants_map_unfolded : n.descendants.map unfolded = n.unfolded.preorder := by
  rw [unfolded_eq, ← descendants_map_subtree]
  exact List.map_congr_left fun d _ => d.unfolded_eq

/-! ## No node is left out -/

-- The nodes but the first are the children of nodes before them.
theorem exists_parent {j : Nat} (h : j + 1 < (Tree.ofSubtree l t text).nodes.size) :
    ∃ p : Node (Tree.ofSubtree l t text), p.index.val < j + 1 ∧ ⟨⟨j + 1, h⟩⟩ ∈ p.children := by
  have hlength := h
  rw [size_nodes, Subtree.breadthFirst_eq, List.length_cons] at hlength
  obtain ⟨i, s, k, hs, hk, rfl⟩ :=
    Subtree.exists_firstChildIndex (Nat.lt_of_succ_lt_succ hlength)
  have hi : i < (Tree.ofSubtree l t text).nodes.size := by
    rw [size_nodes]
    exact (List.getElem?_eq_some_iff.mp hs).1
  let p : Node (Tree.ofSubtree l t text) := ⟨⟨i, hi⟩⟩
  have hp : p.subtree = s := Option.some.inj (p.getElem?_breadthFirst.symm.trans hs)
  have hcount : k < p.childCount := by rwa [childCount_eq, hp]
  obtain ⟨c, hc⟩ := p.exists_child? hcount
  have hindex : c = ⟨⟨Subtree.firstChildIndex t.breadthFirst i + k + 1, h⟩⟩ := by
    cases c
    refine congrArg _ (Fin.ext ((index_of_child? hc).trans ?_))
    simp only [p]
    omega
  rw [← hindex]
  have hmem : c ∈ p.children := mem_children.mpr ⟨k, hc⟩
  have hlt := index_lt_of_mem_children hmem
  rw [hindex] at hlt
  exact ⟨p, hlt, hmem⟩

theorem root_below : (Tree.ofSubtree l t text).root.Below n := by
  obtain ⟨⟨index, h⟩⟩ := n
  induction index using Nat.strongRecOn with
  | ind index ih =>
    cases index with
    | zero => exact .refl
    | succ j =>
      obtain ⟨p, hlt, hmem⟩ := exists_parent h
      exact .child (ih p.index hlt p.index.isLt) hmem

end

end Node

namespace Tree

/-- The finished tree keeps all of `t`, and its nodes can be listed without losing one. -/
structure Keeps (tree : Tree) (t : Subtree) : Prop where
  unfolded : tree.root.unfolded = t
  children : ∀ n : Node tree, n.children.map some = (List.range n.childCount).map n.child?
  /-- A node comes before its children, and each of these with what is below it before the next. -/
  descendants : ∀ n : Node tree,
    n.descendants = n :: n.children.flatMap (·.descendants)
  mem_descendants : ∀ n d : Node tree, d ∈ n.descendants ↔ n.Below d
  nodup_descendants : ∀ n : Node tree, n.descendants.Nodup
  descendants_unfolded : ∀ n : Node tree, n.descendants.map (·.unfolded) = n.unfolded.preorder
  walk : tree.walk.map (·.unfolded) = t.preorder
  walk_once : ∀ n : Node tree, tree.walk.count n = 1

/-- Whatever tree is laid out in an array, nothing of it is lost. -/
theorem keeps_ofSubtree (l : Language) (t : Subtree) (text : List Char) :
    (ofSubtree l t text).Keeps t := by
  have hroot : (ofSubtree l t text).root.unfolded = t :=
    (ofSubtree l t text).root.unfolded_eq.trans Node.subtree_root
  refine ⟨hroot, Node.map_some_children, Node.descendants_eq, fun _ _ => Node.mem_descendants,
    Node.nodup_descendants, Node.descendants_map_unfolded, ?_, fun n => ?_⟩
  · rw [walk, Node.descendants_map_unfolded, hroot]
  · exact List.count_eq_one_of_mem (Node.nodup_descendants _)
      (Node.mem_descendants.mpr n.root_below)

end Tree

end GrammarKit
