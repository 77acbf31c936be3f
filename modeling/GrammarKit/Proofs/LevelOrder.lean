import GrammarKit.Proofs.Walk
import Mathlib.Data.List.Infix

/-!
# Level order

The trees within a tree, level by level from the root on: a tree, then the children of everything
that is listed.  There is one such list only, and in it the children of a tree stand side by side.
-/

namespace GrammarKit.Subtree

/-- The trees, then the trees one level below them, and so on for `levels` levels. -/
def levelOrder : (levels : Nat) → List Subtree → List Subtree
  | 0, _ => []
  | _ + 1, [] => []
  | levels + 1, t :: ts => (t :: ts) ++ levelOrder levels ((t :: ts).flatMap (·.children))

/-- Every tree within a tree, itself first, level by level. -/
def breadthFirst (t : Subtree) : List Subtree :=
  levelOrder t.size [t]

theorem size_pos (t : Subtree) : 0 < t.size := by
  cases t
  simp only [size]
  omega

theorem size_eq (t : Subtree) : t.size = 1 + totalSize t.children := by
  cases t
  rfl

theorem totalSize_append (ts us : List Subtree) :
    totalSize (ts ++ us) = totalSize ts + totalSize us := by
  induction ts with
  | nil => simp [totalSize]
  | cons t ts ih => simp only [List.cons_append, totalSize, ih, Nat.add_assoc]

-- One level down, the trees at the top are missing.
theorem totalSize_flatMap_children (ts : List Subtree) :
    ts.length + totalSize (ts.flatMap (·.children)) = totalSize ts := by
  induction ts with
  | nil => rfl
  | cons t ts ih =>
    rw [List.flatMap_cons, totalSize_append, List.length_cons, totalSize, size_eq]
    omega

theorem totalSize_children_le {levels : Nat} {t : Subtree} {ts : List Subtree}
    (h : totalSize (t :: ts) ≤ levels + 1) :
    totalSize ((t :: ts).flatMap (·.children)) ≤ levels := by
  have hsize := totalSize_flatMap_children (t :: ts)
  rw [List.length_cons] at hsize
  omega

theorem eq_nil_of_totalSize {ts : List Subtree} (h : totalSize ts ≤ 0) : ts = [] := by
  cases ts with
  | nil => rfl
  | cons t ts =>
    have := t.size_pos
    rw [totalSize] at h
    omega

-- With levels enough, the trees are followed by the children of everything listed.
theorem levelOrder_eq {levels : Nat} {ts : List Subtree} (h : totalSize ts ≤ levels) :
    levelOrder levels ts = ts ++ (levelOrder levels ts).flatMap (·.children) := by
  induction levels generalizing ts with
  | zero =>
    rw [eq_nil_of_totalSize h]
    rfl
  | succ levels ih =>
    cases ts with
    | nil => rfl
    | cons t ts =>
      have hbelow := ih (totalSize_children_le h)
      unfold levelOrder
      rw [List.flatMap_append, ← hbelow]

-- A list in which the trees are followed by the children of everything listed is in level order.
theorem eq_levelOrder {levels : Nat} {ts us : List Subtree} (h : totalSize us ≤ levels)
    (hts : ts = us ++ ts.flatMap (·.children)) : ts = levelOrder levels us := by
  induction levels generalizing ts us with
  | zero =>
    rw [eq_nil_of_totalSize h, List.nil_append] at hts
    -- without trees to start from, every tree would be a child of one in the list
    have hsize := totalSize_flatMap_children ts
    rw [← hts] at hsize
    exact List.length_eq_zero_iff.mp (by omega)
  | succ levels ih =>
    cases us with
    | nil =>
      have hsize := totalSize_flatMap_children ts
      rw [List.nil_append] at hts
      rw [← hts] at hsize
      exact List.length_eq_zero_iff.mp (by omega)
    | cons u us =>
      have hbelow : ts.flatMap (·.children) = (u :: us).flatMap (·.children) ++
          (ts.flatMap (·.children)).flatMap (·.children) := by
        rw [← List.flatMap_append, ← hts]
      rw [levelOrder, ← ih (totalSize_children_le h) hbelow, ← hts]

theorem length_levelOrder {levels : Nat} {ts : List Subtree} (h : totalSize ts ≤ levels) :
    (levelOrder levels ts).length = totalSize ts := by
  induction levels generalizing ts with
  | zero =>
    rw [eq_nil_of_totalSize h]
    rfl
  | succ levels ih =>
    cases ts with
    | nil => rfl
    | cons t ts =>
      have hbelow := ih (totalSize_children_le h)
      rw [levelOrder, List.length_append, hbelow, totalSize_flatMap_children]

theorem size_lt_of_mem_children {t c : Subtree} (h : c ∈ t.children) : c.size < t.size := by
  obtain ⟨before, after, heq⟩ := List.append_of_mem h
  rw [t.size_eq, heq, totalSize_append, totalSize]
  omega

theorem Within.size_le {s t : Subtree} (h : s.Within t) : s.size ≤ t.size := by
  induction h with
  | refl => exact Nat.le_refl _
  | child hc _ ih => exact Nat.le_of_lt (Nat.lt_of_le_of_lt ih (size_lt_of_mem_children hc))

theorem within_of_mem_levelOrder {s : Subtree} {levels : Nat} {ts : List Subtree}
    (h : s ∈ levelOrder levels ts) : ∃ t ∈ ts, s.Within t := by
  induction levels generalizing ts with
  | zero => cases h
  | succ levels ih =>
    cases ts with
    | nil => cases h
    | cons t ts =>
      rcases List.mem_append.mp h with h | h
      · exact ⟨s, h, .refl⟩
      · obtain ⟨c, hc, hs⟩ := ih h
        obtain ⟨u, hu, hc⟩ := List.mem_flatMap.mp hc
        exact ⟨u, hu, .child hc hs⟩

variable {t : Subtree}

theorem breadthFirst_eq (t : Subtree) :
    t.breadthFirst = t :: t.breadthFirst.flatMap (·.children) :=
  levelOrder_eq (Nat.le_refl _)

theorem length_breadthFirst (t : Subtree) : t.breadthFirst.length = t.size :=
  length_levelOrder (Nat.le_refl _)

theorem within_of_mem_breadthFirst {s : Subtree} (h : s ∈ t.breadthFirst) : s.Within t := by
  obtain ⟨u, hu, hs⟩ := within_of_mem_levelOrder h
  rwa [← List.mem_singleton.mp hu]

/-- The list of all trees within a tree is the one that has the tree first and then the children of
everything listed. -/
theorem eq_breadthFirst {ts : List Subtree} (h : ts = t :: ts.flatMap (·.children)) :
    ts = t.breadthFirst :=
  eq_levelOrder (Nat.le_refl _) h

/-! ## Where children stand -/

/-- The index of the first child of the tree at an index, when trees are listed level by level from
one tree on. -/
def firstChildIndex (ts : List Subtree) (index : Nat) : Nat :=
  ((ts.take index).flatMap (·.children)).length

-- The children of a tree stand side by side in the list of all children.
theorem getElem?_flatMap_children {ts : List Subtree} {i k : Nat} {t : Subtree}
    (h : ts[i]? = some t) (hk : k < t.children.length) :
    (ts.flatMap (·.children))[firstChildIndex ts i + k]? = t.children[k]? := by
  obtain ⟨hi, rfl⟩ := List.getElem?_eq_some_iff.mp h
  -- the children of the trees before it come first
  have hsplit : ts = ts.take i ++ ts[i] :: ts.drop (i + 1) := by
    rw [← List.drop_eq_getElem_cons hi, List.take_append_drop]
  have hflat : ts.flatMap (·.children) =
      (ts.take i).flatMap (·.children) ++
        (ts[i].children ++ (ts.drop (i + 1)).flatMap (·.children)) := by
    conv => lhs; rw [hsplit]
    rw [List.flatMap_append, List.flatMap_cons]
  rw [hflat, firstChildIndex, List.getElem?_append_right (Nat.le_add_right _ _),
    Nat.add_sub_cancel_left, List.getElem?_append_left hk]

theorem firstChildIndex_append (ts us : List Subtree) (i : Nat) :
    firstChildIndex (ts ++ us) (ts.length + i) =
      (ts.flatMap (·.children)).length + firstChildIndex us i := by
  rw [firstChildIndex, List.take_length_add_append, List.flatMap_append, List.length_append,
    firstChildIndex]

theorem firstChildIndex_succ {ts : List Subtree} {i : Nat} {t : Subtree} (h : ts[i]? = some t) :
    firstChildIndex ts (i + 1) = firstChildIndex ts i + t.children.length := by
  simp [firstChildIndex, List.take_add_one, h]

theorem firstChildIndex_mono (ts : List Subtree) {i j : Nat} (h : i ≤ j) :
    firstChildIndex ts i ≤ firstChildIndex ts j :=
  ((List.take_prefix_take_left h).flatMap _).length_le

-- Level by level, the children of a tree come after it.
theorem lt_firstChildIndex {levels : Nat} {ts : List Subtree} {i : Nat}
    (h : i < (levelOrder levels ts).length) :
    i < ts.length + firstChildIndex (levelOrder levels ts) i := by
  induction levels generalizing ts i with
  | zero => cases h
  | succ levels ih =>
    cases ts with
    | nil => cases h
    | cons t ts =>
      rcases Nat.lt_or_ge i (t :: ts).length with hi | hi
      · omega
      · obtain ⟨j, rfl⟩ := Nat.exists_eq_add_of_le hi
        rw [levelOrder, List.length_append] at h
        have hj := @ih ((t :: ts).flatMap (·.children)) j (by omega)
        rw [levelOrder, firstChildIndex_append]
        omega

-- Every place in the list of all children is that of one child.
theorem exists_firstChildIndex {ts : List Subtree} {j : Nat}
    (h : j < (ts.flatMap (·.children)).length) :
    ∃ i t k, ts[i]? = some t ∧ k < t.children.length ∧ j = firstChildIndex ts i + k := by
  induction ts generalizing j with
  | nil => cases h
  | cons t ts ih =>
    rcases Nat.lt_or_ge j t.children.length with hj | hj
    · exact ⟨0, t, j, rfl, hj, by simp [firstChildIndex]⟩
    · obtain ⟨j, rfl⟩ := Nat.exists_eq_add_of_le hj
      rw [List.flatMap_cons, List.length_append] at h
      obtain ⟨i, u, k, hu, hk, rfl⟩ := ih (j := j) (by omega)
      refine ⟨i + 1, u, k, hu, hk, ?_⟩
      simp [firstChildIndex, Nat.add_assoc]

end GrammarKit.Subtree
