import GrammarKit.Proofs.Flattening

/-!
# Going down in a tree

What is below a node, and the order in which nodes are met on the way down: a node before what is
below it, and what is below one child before what is below the next.
-/

namespace GrammarKit

theorem Tree.node?_eq_some {tree : Tree} {index : Nat} {n : Node tree} :
    tree.node? index = some n ↔ n.index.val = index := by
  obtain ⟨⟨i, hi⟩⟩ := n
  unfold node?
  by_cases h : index < tree.nodes.size
  · simp [h, eq_comm]
  · rw [dif_neg h]
    constructor
    · intro hnone
      cases hnone
    · rintro rfl
      exact absurd hi h

namespace Node

/-! ## Below and before -/

variable {tree : Tree}

/-- `d` is the node `n` or stands below it. -/
inductive Below (n : Node tree) : Node tree → Prop
  | refl : Below n n
  | child {p c} : Below n p → c ∈ p.children → Below n c

/-- The order of reading: a node stands before what is below its children, and what is below a
child before what is below the children after that one. -/
inductive Before (a b : Node tree) : Prop
  | inner {c} : c ∈ a.children → c.Below b → Before a b
  | aside {p c d : Node tree} {i j : Nat} : p.child? i = some c → p.child? j = some d → i < j →
      c.Below a → d.Below b → Before a b

theorem Below.trans {a b c : Node tree} (hab : a.Below b) (hbc : b.Below c) : a.Below c := by
  induction hbc with
  | refl => exact hab
  | child _ hc ih => exact .child ih hc

theorem below_of_mem_children {n c d : Node tree} (hc : c ∈ n.children) (hd : c.Below d) :
    n.Below d :=
  (Below.refl.child hc).trans hd

-- What is below a node is the node or below one of its children.
theorem Below.eq_or_below_child {n d : Node tree} (h : n.Below d) :
    d = n ∨ ∃ c ∈ n.children, c.Below d := by
  induction h with
  | refl => exact .inl rfl
  | @child p c _ hc ih =>
    rcases ih with rfl | ⟨top, htop, hp⟩
    · exact .inr ⟨c, hc, .refl⟩
    · exact .inr ⟨top, htop, hp.child hc⟩

theorem child?_eq_some {n c : Node tree} {k : Nat} :
    n.child? k = some c ↔ k < n.childCount ∧ c.index.val = n.data.firstChild + k := by
  unfold child?
  by_cases hk : k < n.childCount
  · rw [if_pos hk, Tree.node?_eq_some, and_iff_right hk]
  · simp [hk]

theorem mem_children {n c : Node tree} : c ∈ n.children ↔ ∃ k, n.child? k = some c := by
  rw [children_eq, List.mem_filterMap]
  constructor
  · rintro ⟨k, -, hk⟩
    exact ⟨k, hk⟩
  · rintro ⟨k, hk⟩
    exact ⟨k, List.mem_range.mpr (child?_eq_some.mp hk).1, hk⟩

section

variable {l : Language} {t : Subtree} {text : List Char} {n m c d : Node (Tree.ofSubtree l t text)}

/-! ## Children by position -/

theorem exists_child? {k : Nat} (hk : k < n.childCount) : ∃ c, n.child? k = some c := by
  have h := n.child?_eq hk
  rw [childCount_eq] at hk
  rw [List.getElem?_eq_getElem hk] at h
  obtain ⟨c, hc, -⟩ := Option.map_eq_some_iff.mp h
  exact ⟨c, hc⟩

theorem map_some_children (n : Node (Tree.ofSubtree l t text)) :
    n.children.map some = (List.range n.childCount).map n.child? := by
  rw [children_eq, List.map_filterMap, ← List.filterMap_eq_map]
  refine List.filterMap_congr fun k hk => ?_
  obtain ⟨c, hc⟩ := n.exists_child? (List.mem_range.mp hk)
  rw [Function.comp_apply, hc, Option.map_some]

theorem length_children (n : Node (Tree.ofSubtree l t text)) :
    n.children.length = n.childCount := by
  rw [childCount_eq, ← children_map_subtree, List.length_map]

/-- The children of a node in a list are those at its positions. -/
theorem getElem?_children (n : Node (Tree.ofSubtree l t text)) (k : Nat) :
    n.children[k]? = n.child? k := by
  rcases Nat.lt_or_ge k n.childCount with hk | hk
  · obtain ⟨c, hc⟩ := n.exists_child? hk
    have h := congrArg (·[k]?) n.map_some_children
    simp only [List.getElem?_map, List.getElem?_range hk, Option.map_some, hc,
      Option.map_eq_some_iff, Option.some.injEq] at h
    obtain ⟨d, hd, rfl⟩ := h
    rw [hd, hc]
  · rw [child?, if_neg (Nat.not_lt_of_le hk), List.getElem?_eq_none (n.length_children ▸ hk)]

theorem drop_children {k : Nat} (hc : n.child? k = some c) :
    n.children.drop k = c :: n.children.drop (k + 1) := by
  rw [← getElem?_children] at hc
  obtain ⟨hk, rfl⟩ := List.getElem?_eq_some_iff.mp hc
  exact List.drop_eq_getElem_cons hk

/-! ## Parents are unique -/

theorem index_of_child? {k : Nat} (h : n.child? k = some c) :
    c.index.val = 1 + Subtree.firstChildIndex t.breadthFirst n.index + k := by
  obtain ⟨hk, hindex⟩ := child?_eq_some.mp h
  rw [childCount_eq] at hk
  rw [hindex, n.data_shows.firstChild (List.ne_nil_of_length_pos (Nat.zero_lt_of_lt hk))]

theorem index_lt_of_mem_children (h : c ∈ n.children) : n.index.val < c.index.val := by
  obtain ⟨k, hk⟩ := mem_children.mp h
  have hlt : n.index.val < (Subtree.levelOrder t.size [t]).length :=
    size_nodes l t text ▸ n.index.isLt
  have hfirst := Subtree.lt_firstChildIndex hlt
  rw [index_of_child? hk]
  exact Nat.lt_of_lt_of_le hfirst (Nat.le_add_right _ _)

-- The children of a node stand before those of the nodes that come later.
theorem child_index_lt {i j : Nat} (hc : n.child? i = some c) (hd : m.child? j = some d)
    (h : n.index.val < m.index.val) : c.index.val < d.index.val := by
  have hi := (child?_eq_some.mp hc).1
  rw [childCount_eq] at hi
  have hmono := Subtree.firstChildIndex_mono t.breadthFirst (Nat.succ_le_of_lt h)
  rw [Subtree.firstChildIndex_succ n.getElem?_breadthFirst] at hmono
  rw [index_of_child? hc, index_of_child? hd]
  omega

/-- A node is the child of one node only, and stands at one position among its children. -/
theorem child?_inj {i j : Nat} (hn : n.child? i = some c) (hm : m.child? j = some c) :
    n = m ∧ i = j := by
  rcases Nat.lt_trichotomy n.index.val m.index.val with h | h | h
  · exact absurd (child_index_lt hn hm h) (Nat.lt_irrefl _)
  · have hnm : n = m := by
      cases n; cases m
      exact congrArg _ (Fin.ext h)
    subst hnm
    have hi := index_of_child? hn
    have hj := index_of_child? hm
    exact ⟨rfl, by omega⟩
  · exact absurd (child_index_lt hm hn h) (Nat.lt_irrefl _)

theorem parent_unique (hn : c ∈ n.children) (hm : c ∈ m.children) : n = m := by
  obtain ⟨i, hi⟩ := mem_children.mp hn
  obtain ⟨j, hj⟩ := mem_children.mp hm
  exact (child?_inj hi hj).1

/-! ## The order is strict -/

theorem Below.index_le (h : n.Below d) : n.index.val ≤ d.index.val := by
  induction h with
  | refl => exact Nat.le_refl _
  | child _ hc ih => exact Nat.le_of_lt (Nat.lt_of_le_of_lt ih (index_lt_of_mem_children hc))

-- What two nodes have below them in common makes one of them stand below the other.
theorem Below.connected (hn : n.Below d) (hm : m.Below d) : n.Below m ∨ m.Below n := by
  induction hn with
  | refl => exact .inr hm
  | @child p c hp hc ih =>
    cases hm with
    | refl => exact .inl (hp.child hc)
    | child hp' hc' =>
      rw [parent_unique hc' hc] at hp'
      exact ih hp'

-- No child of a node stands below another.
theorem not_below_sibling {p : Node (Tree.ofSubtree l t text)} {i j : Nat}
    (hc : p.child? i = some c) (hd : p.child? j = some d) (hij : i ≠ j) : ¬ c.Below d := by
  intro h
  cases h with
  | refl => exact hij (child?_inj hc hd).2
  | child hq hdq =>
    rw [parent_unique hdq (mem_children.mpr ⟨j, hd⟩)] at hq
    -- a node would stand below one of its children
    have hlt := index_lt_of_mem_children (mem_children.mpr ⟨i, hc⟩)
    exact absurd hq.index_le (Nat.not_le_of_lt hlt)

theorem Before.irrefl : ¬ n.Before n := by
  intro h
  cases h with
  | inner hc h =>
    exact absurd h.index_le (Nat.not_le_of_lt (index_lt_of_mem_children hc))
  | aside hc hd hij hcn hdn =>
    rcases hcn.connected hdn with h | h
    · exact not_below_sibling hc hd (Nat.ne_of_lt hij) h
    · exact not_below_sibling hd hc (Nat.ne_of_gt hij) h

/-! ## Reading a tree -/

-- Lists of nodes of which each one, with all that is below it, stands before the next.
theorem pairwise_children (n : Node (Tree.ofSubtree l t text)) :
    n.children.Pairwise fun c d => ∀ a b, c.Below a → d.Below b → a.Before b := by
  rw [children_eq]
  refine List.Pairwise.filterMap _ ?_ (List.pairwise_lt_range)
  intro i j hij c hc d hd a b ha hb
  exact .aside hc hd hij ha hb

theorem mem_preorder {count : Nat} {ns : List (Node (Tree.ofSubtree l t text))}
    (h : Subtree.totalSize (ns.map subtree) ≤ count) :
    d ∈ preorder count ns ↔ ∃ n ∈ ns, n.Below d := by
  induction count generalizing ns with
  | zero =>
    rw [List.map_eq_nil_iff.mp (Subtree.eq_nil_of_totalSize h)]
    simp [preorder]
  | succ count ih =>
    cases ns with
    | nil => simp [preorder]
    | cons n ns =>
      rw [preorder, List.mem_cons, ih (n.totalSize_below_le h)]
      constructor
      · rintro (rfl | ⟨c, hc, hd⟩)
        · exact ⟨d, List.mem_cons_self, .refl⟩
        · rcases List.mem_append.mp hc with hc | hc
          · exact ⟨n, List.mem_cons_self, below_of_mem_children hc hd⟩
          · exact ⟨c, List.mem_cons_of_mem _ hc, hd⟩
      · rintro ⟨m, hm, hd⟩
        rcases List.mem_cons.mp hm with rfl | hm
        · rcases hd.eq_or_below_child with rfl | ⟨c, hc, hd⟩
          · exact .inl rfl
          · exact .inr ⟨c, List.mem_append_left _ hc, hd⟩
        · exact .inr ⟨m, List.mem_append_right _ hm, hd⟩

-- The nodes are read in order when each of them, with all that is below it, stands before the next.
theorem pairwise_preorder {count : Nat} {ns : List (Node (Tree.ofSubtree l t text))}
    (h : Subtree.totalSize (ns.map subtree) ≤ count)
    (hns : ns.Pairwise fun n m => ∀ a b, n.Below a → m.Below b → a.Before b) :
    (preorder count ns).Pairwise Before := by
  induction count generalizing ns with
  | zero => exact .nil
  | succ count ih =>
    cases ns with
    | nil => exact .nil
    | cons n ns =>
      obtain ⟨hn, hns⟩ := List.pairwise_cons.mp hns
      refine .cons (fun d hd => ?_) (ih (n.totalSize_below_le h) ?_)
      · obtain ⟨m, hm, hd⟩ := (mem_preorder (n.totalSize_below_le h)).mp hd
        rcases List.mem_append.mp hm with hm | hm
        · exact .inner hm hd
        · exact hn m hm n d .refl hd
      · refine List.pairwise_append.mpr ⟨n.pairwise_children, hns, fun c hc m hm a b ha hb => ?_⟩
        exact hn m hm a b (below_of_mem_children hc ha) hb

/-- The descendants of a node are the node and what is below it. -/
theorem mem_descendants : d ∈ n.descendants ↔ n.Below d := by
  rw [descendants, mem_preorder n.totalSize_singleton_le]
  simp

/-- The descendants of a node stand in the order of reading. -/
theorem pairwise_descendants (n : Node (Tree.ofSubtree l t text)) :
    n.descendants.Pairwise Before :=
  pairwise_preorder n.totalSize_singleton_le (List.pairwise_singleton _ _)

end

end Node

end GrammarKit
