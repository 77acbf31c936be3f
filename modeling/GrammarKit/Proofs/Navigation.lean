import GrammarKit.Proofs.Unfolding

/-!
# Finding one's way in a tree

The links between the nodes of a finished tree agree: the parent of a node is the node that has it
as a child, its siblings are the children next to it, and the named children are counted among the
children from left to right.
-/

namespace GrammarKit

namespace Node

variable {tree : Tree} {l : Language} {t : Subtree} {text : List Char}

/-! ## Parents -/

section

variable {n p c d : Node (Tree.ofSubtree l t text)} {i j : Nat}

/-- The node above a node is the one that has it as a child. -/
theorem parent?_eq_some : n.parent? = some p ↔ ∃ i, p.child? i = some n := by
  have hdata : (Tree.ofSubtree l t text).nodes[n.index.val]?.bind (·.parent) = n.data.parent := by
    rw [Array.getElem?_eq_getElem n.index.isLt]
    rfl
  have hlink : n.parent? = some p ↔ n.data.parent = some p.index.val := by
    unfold parent?
    rw [Option.bind_eq_some_iff]
    simp only [Tree.node?_eq_some, exists_eq_right']
  rw [hlink, ← hdata]
  refine Subtree.parent_nodes.trans ⟨?_, ?_⟩
  · rintro ⟨s, k, hs, hk, hindex⟩
    obtain rfl : p.subtree = s := Option.some.inj (p.getElem?_breadthFirst.symm.trans hs)
    have hfirst := p.data_shows.firstChild (List.ne_nil_of_length_pos (Nat.zero_lt_of_lt hk))
    refine ⟨k, child?_eq_some.mpr ⟨?_, ?_⟩⟩
    · rwa [childCount_eq]
    · rw [hindex, hfirst]
  · rintro ⟨k, hk⟩
    have hlt := (child?_eq_some.mp hk).1
    rw [childCount_eq] at hlt
    exact ⟨p.subtree, k, p.getElem?_breadthFirst, hlt, index_of_child? hk⟩

theorem parent?_of_child? (h : p.child? i = some n) : n.parent? = some p :=
  parent?_eq_some.mpr ⟨i, h⟩

/-- The root is the only node without one above it. -/
theorem parent?_eq_none : n.parent? = none ↔ n = (Tree.ofSubtree l t text).root := by
  constructor
  · intro hnone
    obtain ⟨⟨index, h⟩⟩ := n
    cases index with
    | zero => rfl
    | succ j =>
      obtain ⟨p, -, hmem⟩ := exists_parent h
      rw [parent?_eq_some.mpr (mem_children.mp hmem)] at hnone
      cases hnone
  · rintro rfl
    cases hp : (Tree.ofSubtree l t text).root.parent? with
    | none => rfl
    | some p =>
      -- a node stands behind the one above it, and the root is the first
      have hlt := index_lt_of_mem_children (mem_children.mpr (parent?_eq_some.mp hp))
      exact absurd hlt (Nat.not_lt_zero _)

/-! ## Siblings -/

theorem child?_eq_none : n.child? i = none ↔ n.childCount ≤ i := by
  by_cases h : i < n.childCount
  · obtain ⟨c, hc⟩ := exists_child? h
    rw [hc]
    exact iff_of_false (Option.some_ne_none c) (Nat.not_le_of_lt h)
  · rw [child?, if_neg h]
    exact iff_of_true rfl (Nat.le_of_not_lt h)

/-- The next sibling of a node is the child behind it. -/
theorem nextSibling?_eq (h : p.child? i = some n) : n.nextSibling? = p.child? (i + 1) := by
  have hindex := (child?_eq_some.mp h).2
  show n.parent?.bind _ = _
  rw [parent?_of_child? h, Option.bind_some, child?, hindex, Nat.add_assoc]
  exact if_congr Nat.add_lt_add_iff_left rfl rfl

theorem prevSibling?_first (h : p.child? 0 = some n) : n.prevSibling? = none := by
  have hindex := (child?_eq_some.mp h).2
  show n.parent?.bind _ = _
  rw [parent?_of_child? h, Option.bind_some, if_neg (by omega)]

/-- The sibling before a node other than the first is the child in front of it. -/
theorem prevSibling?_succ (h : p.child? (i + 1) = some n) : n.prevSibling? = p.child? i := by
  obtain ⟨hlt, hindex⟩ := child?_eq_some.mp h
  show n.parent?.bind _ = _
  rw [parent?_of_child? h, Option.bind_some, child?, if_pos (Nat.lt_of_succ_lt hlt),
    if_pos (by omega), hindex]
  rfl

/-- One step to the next sibling and one step back. -/
theorem nextSibling?_eq_some : c.nextSibling? = some d ↔ d.prevSibling? = some c := by
  constructor
  · intro h
    obtain ⟨p, hp, -⟩ := Option.bind_eq_some_iff.mp (show c.parent?.bind _ = some d from h)
    obtain ⟨i, hi⟩ := parent?_eq_some.mp hp
    rw [nextSibling?_eq hi] at h
    rw [prevSibling?_succ h, hi]
  · intro h
    obtain ⟨p, hp, -⟩ := Option.bind_eq_some_iff.mp (show d.parent?.bind _ = some c from h)
    obtain ⟨j, hj⟩ := parent?_eq_some.mp hp
    cases j with
    | zero =>
      rw [prevSibling?_first hj] at h
      cases h
    | succ i =>
      rw [prevSibling?_succ hj] at h
      rw [nextSibling?_eq h, hj]

end

/-! ## Named children -/

/-- How many of the first `i` children are named. -/
def namedBefore (n : Node tree) (i : Nat) : Nat :=
  (List.range i).countP fun j => (n.child? j).any (·.isNamed)

section

variable {α : Type} {P : α → Bool} {x : α} {xs : List α}

theorem countP_range_cons (i : Nat) :
    (List.range (i + 1)).countP (fun j => (x :: xs)[j]?.any P) =
      (List.range i).countP (fun j => xs[j]?.any P) + if P x then 1 else 0 := by
  rw [List.range_succ_eq_map, List.countP_cons, List.countP_map]
  rfl

theorem countP_eq_range : xs.countP P = (List.range xs.length).countP fun j => xs[j]?.any P := by
  induction xs with
  | nil => rfl
  | cons x xs ih => rw [List.length_cons, countP_range_cons, List.countP_cons, ih]

-- What a filter keeps has as many before it as are kept of those that stood before it.
theorem getElem?_filter_eq_some {k : Nat} :
    (xs.filter P)[k]? = some x ↔ ∃ i, xs[i]? = some x ∧ P x = true ∧
      (List.range i).countP (fun j => xs[j]?.any P) = k := by
  induction xs generalizing k with
  | nil => simp
  | cons y ys ih =>
    rw [← Nat.or_exists_add_one]
    simp only [countP_range_cons, List.getElem?_cons_succ, List.getElem?_cons_zero,
      List.range_zero, List.countP_nil]
    by_cases hy : P y = true
    · rw [List.filter_cons_of_pos hy]
      cases k with
      | zero =>
        rw [List.getElem?_cons_zero, if_pos hy]
        constructor
        · intro h
          cases h
          exact .inl ⟨rfl, hy, rfl⟩
        · rintro (⟨h, -⟩ | ⟨i, -, -, h⟩)
          · exact h
          · omega
      | succ k =>
        rw [List.getElem?_cons_succ, ih, if_pos hy]
        simp
    · rw [List.filter_cons_of_neg hy, ih, if_neg hy]
      constructor
      · exact .inr
      · rintro (⟨h, hx, -⟩ | h)
        · cases h
          exact absurd hx hy
        · exact h

end

section

variable {n c : Node (Tree.ofSubtree l t text)} {k : Nat}

theorem namedBefore_eq (n : Node (Tree.ofSubtree l t text)) (i : Nat) :
    n.namedBefore i = (List.range i).countP fun j => n.children[j]?.any (·.isNamed) := by
  simp only [namedBefore, getElem?_children]

/-- A named child comes behind as many named children as its number says. -/
theorem namedChild?_eq_some : n.namedChild? k = some c ↔
    ∃ i, n.child? i = some c ∧ c.isNamed = true ∧ n.namedBefore i = k := by
  unfold namedChild? namedChildren
  rw [getElem?_filter_eq_some]
  simp only [getElem?_children, namedBefore]

theorem namedChildCount_eq (n : Node (Tree.ofSubtree l t text)) :
    n.namedChildCount = n.namedBefore n.childCount := by
  rw [namedChildCount, namedChildren, ← List.countP_eq_length_filter, countP_eq_range,
    length_children, ← namedBefore_eq]

theorem namedChild?_eq_none : n.namedChild? k = none ↔ n.namedChildCount ≤ k :=
  List.getElem?_eq_none_iff

end

end Node

/-! ## All links together -/

/-- The links between the nodes of a tree agree with the positions of children. -/
structure Tree.Coherent (tree : Tree) : Prop where
  child_none : ∀ (p : Node tree) (i : Nat), p.child? i = none ↔ p.childCount ≤ i
  parent : ∀ n p : Node tree, n.parent? = some p ↔ ∃ i, p.child? i = some n
  position : ∀ {n p q : Node tree} {i j : Nat}, p.child? i = some n → q.child? j = some n →
    p = q ∧ i = j
  parent_none : ∀ n : Node tree, n.parent? = none ↔ n = tree.root
  next : ∀ {n p : Node tree} {i : Nat}, p.child? i = some n → n.nextSibling? = p.child? (i + 1)
  /-- There is no sibling before the first child. -/
  prev_first : ∀ {n p : Node tree}, p.child? 0 = some n → n.prevSibling? = none
  prev : ∀ {n p : Node tree} {i : Nat}, p.child? (i + 1) = some n → n.prevSibling? = p.child? i
  next_iff_prev : ∀ n m : Node tree, n.nextSibling? = some m ↔ m.prevSibling? = some n
  named : ∀ (n c : Node tree) (k : Nat), n.namedChild? k = some c ↔
    ∃ i, n.child? i = some c ∧ c.isNamed = true ∧ n.namedBefore i = k
  named_none : ∀ (n : Node tree) (k : Nat), n.namedChild? k = none ↔ n.namedChildCount ≤ k
  namedChildCount : ∀ n : Node tree, n.namedChildCount = n.namedBefore n.childCount

/-- **Navigation is coherent**, whatever tree was laid out in an array. -/
theorem Tree.coherent_ofSubtree (l : Language) (t : Subtree) (text : List Char) :
    (ofSubtree l t text).Coherent where
  child_none _ _ := Node.child?_eq_none
  parent _ _ := Node.parent?_eq_some
  position := Node.child?_inj
  parent_none _ := Node.parent?_eq_none
  next := Node.nextSibling?_eq
  prev_first := Node.prevSibling?_first
  prev := Node.prevSibling?_succ
  next_iff_prev _ _ := Node.nextSibling?_eq_some
  named _ _ _ := Node.namedChild?_eq_some
  named_none _ _ := Node.namedChild?_eq_none
  namedChildCount := Node.namedChildCount_eq

end GrammarKit
