import GrammarKit.Proofs.LevelOrder
import GrammarKit.Tree.Basic

/-!
# The array of a tree

The array of a tree is filled from a queue: children wait until those that came before them have
their places, and those without children never wait.  In the end the array holds the trees level by
level, each with the place of its children, and the nodes above errors are marked.
-/

namespace GrammarKit

/-- The node without the mark of errors. -/
def NodeData.unmarked (d : NodeData) : NodeData :=
  { d with hasError := false }

namespace Subtree

variable {root t : Subtree} {placed : List Subtree} {settled : Nat} {nodes : Array NodeData}

/-! ## The queue -/

theorem waiting_append (index : Nat) (ts us : List Subtree) :
    waiting index (ts ++ us) = waiting index ts ++ waiting (index + ts.length) us := by
  induction ts generalizing index with
  | nil => rfl
  | cons t ts ih =>
    rw [List.cons_append, waiting, waiting, ih, List.length_cons, Nat.add_right_comm,
      Nat.add_assoc]
    split <;> rfl

theorem children_eq_nil_of_waiting {index : Nat} {ts : List Subtree} (h : waiting index ts = []) :
    ∀ t ∈ ts, t.children = [] := by
  induction ts generalizing index with
  | nil => simp
  | cons t ts ih =>
    unfold waiting at h
    split at h
    · rename_i hempty
      exact List.forall_mem_cons.mpr ⟨List.isEmpty_iff.mp hempty, ih h⟩
    · cases h

-- Those who wait first belong to the first tree that has children.
theorem exists_of_waiting {index parent : Nat} {ts children : List Subtree}
    {queue : List (Nat × List Subtree)} (h : waiting index ts = (parent, children) :: queue) :
    ∃ before t after, ts = before ++ t :: after ∧ (∀ u ∈ before, u.children = []) ∧
      t.children = children ∧ parent = index + before.length ∧
      queue = waiting (parent + 1) after := by
  induction ts generalizing index with
  | nil => cases h
  | cons t ts ih =>
    unfold waiting at h
    split at h
    · rename_i hempty
      obtain ⟨before, u, after, rfl, hbefore, hu, hparent, hqueue⟩ := ih h
      refine ⟨t :: before, u, after, rfl, ?_, hu, ?_, hqueue⟩
      · exact List.forall_mem_cons.mpr ⟨List.isEmpty_iff.mp hempty, hbefore⟩
      · rw [hparent, List.length_cons, Nat.add_right_comm, Nat.add_assoc]
    · cases h
      exact ⟨[], t, ts, rfl, by simp, rfl, rfl, rfl⟩

/-! ## One turn -/

theorem getElem?_place_of_lt {parent j : Nat} {children : List Subtree} (hj : j < nodes.size) :
    (place nodes parent children)[j]? =
      if parent = j then nodes[j]?.map fun d =>
        { d with firstChild := nodes.size, childCount := children.length }
      else nodes[j]? := by
  rw [place, Array.getElem?_append_left (by simpa using hj), Array.getElem?_modify]

theorem getElem?_place_add (nodes : Array NodeData) (parent k : Nat) (children : List Subtree) :
    (place nodes parent children)[nodes.size + k]? =
      children[k]?.map (seed (some parent)) := by
  rw [place, Array.getElem?_append_right (by simp)]
  simp

theorem parent_place_of_lt {parent j : Nat} {children : List Subtree} (hj : j < nodes.size) :
    (place nodes parent children)[j]?.bind (·.parent) = nodes[j]?.bind (·.parent) := by
  rw [getElem?_place_of_lt hj]
  split
  · cases nodes[j]? <;> rfl
  · rfl

-- What comes behind the nodes are the children, and their parent is the one at the index.
theorem parent_place_add {parent i k : Nat} {children : List Subtree} :
    (place nodes parent children)[nodes.size + k]?.bind (·.parent) = some i ↔
      k < children.length ∧ i = parent := by
  rw [getElem?_place_add]
  rcases Nat.lt_or_ge k children.length with hk | hk
  · simp [seed, hk, eq_comm]
  · simp [Nat.not_lt_of_le hk]

/-! ## Filling -/

/-- The array has a node for each of the trees `placed`; the first `settled` of these have places
for their children, and nothing else is placed but the root. -/
structure Filled (root : Subtree) (placed : List Subtree) (settled : Nat)
    (nodes : Array NodeData) : Prop where
  trees : placed = root :: (placed.take settled).flatMap (·.children)
  settled_le : settled ≤ placed.length
  size : nodes.size = placed.length
  fields : ∀ {i : Nat} {t : Subtree} {d : NodeData}, placed[i]? = some t →
    nodes[i]? = some d →
    d = { t.seed d.parent with firstChild := d.firstChild, childCount := d.childCount }
  childCount : ∀ {i : Nat} {t : Subtree} {d : NodeData}, placed[i]? = some t →
    nodes[i]? = some d →
    d.childCount = if i < settled then t.children.length else 0
  firstChild : ∀ {i : Nat} {t : Subtree} {d : NodeData}, placed[i]? = some t →
    nodes[i]? = some d → i < settled →
    t.children ≠ [] → d.firstChild = 1 + firstChildIndex placed i
  parent : ∀ {i j : Nat}, nodes[j]?.bind (·.parent) = some i ↔ i < settled ∧
    ∃ t k, placed[i]? = some t ∧ k < t.children.length ∧ j = 1 + firstChildIndex placed i + k

namespace Filled

theorem seed (root : Subtree) : Filled root [root] 0 #[root.seed none] where
  trees := rfl
  settled_le := Nat.zero_le _
  size := rfl
  fields := by
    intro i t d ht hd
    cases i with
    | zero =>
      cases ht
      cases hd
      rfl
    | succ i => simp at ht
  childCount := by
    intro i t d ht hd
    cases i with
    | zero =>
      cases hd
      rfl
    | succ i => simp at ht
  firstChild := by
    intro i t d _ _ hi
    cases hi
  parent := by
    intro i j
    cases j <;> simp [Subtree.seed]

theorem length_eq (h : Filled root placed settled nodes) :
    placed.length = 1 + firstChildIndex placed settled := by
  conv => lhs; rw [h.trees]
  rw [List.length_cons, firstChildIndex, Nat.add_comm]

-- A tree without children needs no places for them.
theorem skip (h : Filled root placed settled nodes) (ht : placed[settled]? = some t)
    (hchildren : t.children = []) : Filled root placed (settled + 1) nodes := by
  obtain ⟨hlt, rfl⟩ := List.getElem?_eq_some_iff.mp ht
  refine ⟨?_, hlt, h.size, h.fields, ?_, ?_, ?_⟩
  · rw [List.take_add_one, ht, Option.toList_some, List.flatMap_append, List.flatMap_singleton,
      hchildren, List.append_nil]
    exact h.trees
  · intro i u d hu hd
    rw [h.childCount hu hd]
    rcases Nat.lt_trichotomy i settled with hi | rfl | hi
    · rw [if_pos hi, if_pos (Nat.lt_succ_of_lt hi)]
    · rw [ht] at hu
      cases hu
      simp [hchildren]
    · rw [if_neg (by omega), if_neg (by omega)]
  · intro i u d hu hd hi hne
    refine h.firstChild hu hd (Nat.lt_of_le_of_ne (Nat.le_of_lt_succ hi) ?_) hne
    rintro rfl
    rw [ht] at hu
    cases hu
    exact hne hchildren
  · intro i j
    rw [h.parent]
    constructor
    · rintro ⟨hi, hplace⟩
      exact ⟨Nat.lt_succ_of_lt hi, hplace⟩
    · rintro ⟨hi, u, k, hu, hk, hj⟩
      refine ⟨Nat.lt_of_le_of_ne (Nat.le_of_lt_succ hi) ?_, u, k, hu, hk, hj⟩
      rintro rfl
      rw [ht] at hu
      cases hu
      rw [hchildren] at hk
      cases hk

theorem skipAll (h : Filled root placed settled nodes) {before after : List Subtree}
    (hrest : placed.drop settled = before ++ after) (hbefore : ∀ t ∈ before, t.children = []) :
    Filled root placed (settled + before.length) nodes := by
  induction before generalizing settled with
  | nil => exact h
  | cons t before ih =>
    have ht : placed[settled]? = some t := by
      have := congrArg (·[0]?) hrest
      simpa using this
    have hskip := h.skip ht (hbefore t List.mem_cons_self)
    have hdrop : placed.drop (settled + 1) = before ++ after := by
      rw [← List.drop_drop, hrest]
      rfl
    have := ih hskip hdrop fun u hu => hbefore u (List.mem_cons_of_mem t hu)
    rwa [List.length_cons, Nat.add_comm before.length, ← Nat.add_assoc]

theorem firstChildIndex_append_of_le (h : Filled root placed settled nodes) {i : Nat}
    (hi : i ≤ settled) (us : List Subtree) :
    firstChildIndex (placed ++ us) i = firstChildIndex placed i := by
  rw [firstChildIndex, List.take_append_of_le_length (Nat.le_trans hi h.settled_le),
    firstChildIndex]

theorem parent_step (h : Filled root placed settled nodes) (ht : placed[settled]? = some t)
    {i j : Nat} :
    (place nodes settled t.children)[j]?.bind (·.parent) = some i ↔ i < settled + 1 ∧
      ∃ u k, (placed ++ t.children)[i]? = some u ∧ k < u.children.length ∧
        j = 1 + firstChildIndex (placed ++ t.children) i + k := by
  obtain ⟨hlt, -⟩ := List.getElem?_eq_some_iff.mp ht
  rcases Nat.lt_or_ge j nodes.size with hj | hj
  -- a node that was there before
  · rw [parent_place_of_lt hj, h.parent]
    rw [h.size, h.length_eq] at hj
    constructor
    · rintro ⟨hi, u, k, hu, hk, rfl⟩
      refine ⟨Nat.lt_succ_of_lt hi, u, k, ?_, hk, ?_⟩
      · rwa [List.getElem?_append_left (by omega)]
      · rw [h.firstChildIndex_append_of_le (Nat.le_of_lt hi)]
    · rintro ⟨hi, u, k, hu, hk, rfl⟩
      have hi : i ≤ settled := Nat.le_of_lt_succ hi
      rw [List.getElem?_append_left (by omega)] at hu
      rw [h.firstChildIndex_append_of_le hi] at hj ⊢
      refine ⟨Nat.lt_of_le_of_ne hi ?_, u, k, hu, hk, rfl⟩
      rintro rfl
      omega
  -- one of the new nodes
  · obtain ⟨k, rfl⟩ := Nat.exists_eq_add_of_le hj
    rw [parent_place_add, h.size, h.length_eq]
    constructor
    · rintro ⟨hk, rfl⟩
      refine ⟨Nat.lt_succ_self _, t, k, ?_, hk, ?_⟩
      · rwa [List.getElem?_append_left hlt]
      · rw [h.firstChildIndex_append_of_le (Nat.le_refl _)]
    · rintro ⟨hi, u, k', hu, hk', hplace⟩
      have hi : i ≤ settled := Nat.le_of_lt_succ hi
      rw [List.getElem?_append_left (by omega)] at hu
      rw [h.firstChildIndex_append_of_le hi] at hplace
      rcases Nat.lt_or_ge i settled with hlt | hge
      -- the children of the trees before this one have their places before it
      · have hmono := firstChildIndex_mono placed (Nat.succ_le_of_lt hlt)
        rw [firstChildIndex_succ hu] at hmono
        omega
      · obtain rfl : i = settled := Nat.le_antisymm hi hge
        rw [ht] at hu
        cases hu
        exact ⟨by omega, rfl⟩

-- What a turn leaves at an index: the node that has its children placed, another node as it was, or
-- one of the children.
theorem place_cases (h : Filled root placed settled nodes) (ht : placed[settled]? = some t)
    {i : Nat} {u : Subtree} {d : NodeData} (hu : (placed ++ t.children)[i]? = some u)
    (hd : (place nodes settled t.children)[i]? = some d) :
    (i = settled ∧ u = t ∧ ∃ e, nodes[i]? = some e ∧
      d = { e with firstChild := nodes.size, childCount := t.children.length }) ∨
    (i ≠ settled ∧ placed[i]? = some u ∧ nodes[i]? = some d) ∨
    (settled < i ∧ d = u.seed (some settled)) := by
  obtain ⟨hlt, -⟩ := List.getElem?_eq_some_iff.mp ht
  rcases Nat.lt_or_ge i placed.length with hi | hi
  · rw [List.getElem?_append_left hi] at hu
    rw [getElem?_place_of_lt (h.size ▸ hi)] at hd
    split at hd
    · rename_i hindex
      subst hindex
      obtain ⟨e, he, rfl⟩ := Option.map_eq_some_iff.mp hd
      exact .inl ⟨rfl, Option.some.inj (hu.symm.trans ht), e, he, rfl⟩
    · rename_i hindex
      exact .inr (.inl ⟨Ne.symm hindex, hu, hd⟩)
  · obtain ⟨k, rfl⟩ := Nat.exists_eq_add_of_le hi
    rw [List.getElem?_append_right hi, Nat.add_sub_cancel_left] at hu
    rw [← h.size, getElem?_place_add, hu] at hd
    cases hd
    exact .inr (.inr ⟨by omega, rfl⟩)

-- The children of the first tree that has none placed yet get places behind the nodes.
theorem step (h : Filled root placed settled nodes) (ht : placed[settled]? = some t) :
    Filled root (placed ++ t.children) (settled + 1) (place nodes settled t.children) := by
  obtain ⟨hlt, -⟩ := List.getElem?_eq_some_iff.mp ht
  refine ⟨?_, ?_, ?_, ?_, ?_, ?_, h.parent_step ht⟩
  · rw [List.take_append_of_le_length hlt, List.take_add_one, ht, Option.toList_some,
      List.flatMap_append, List.flatMap_singleton, ← List.cons_append, ← h.trees]
  · rw [List.length_append]
    omega
  · simp [h.size]
  · intro i u d hu hd
    rcases h.place_cases ht hu hd with ⟨rfl, rfl, e, he, rfl⟩ | ⟨-, hu, hd⟩ | ⟨-, rfl⟩
    · exact congrArg (fun e => { e with firstChild := nodes.size, childCount := u.children.length })
        (h.fields ht he)
    · exact h.fields hu hd
    · rfl
  · intro i u d hu hd
    rcases h.place_cases ht hu hd with ⟨rfl, rfl, e, -, rfl⟩ | ⟨hother, hu, hd⟩ | ⟨hnew, rfl⟩
    · rw [if_pos (Nat.lt_succ_self _)]
    · rw [h.childCount hu hd]
      exact if_congr (by omega) rfl rfl
    · rw [if_neg (by omega)]
      rfl
  · intro i u d hu hd hi hne
    rw [h.firstChildIndex_append_of_le (Nat.le_of_lt_succ hi)]
    rcases h.place_cases ht hu hd with ⟨rfl, rfl, e, -, rfl⟩ | ⟨hother, hu, hd⟩ | ⟨hnew, -⟩
    · exact h.size.trans h.length_eq
    · exact h.firstChild hu hd (by omega) hne
    · omega

-- When only trees without children are left, all are settled.
theorem settleRest (h : Filled root placed settled nodes)
    (hrest : ∀ t ∈ placed.drop settled, t.children = []) :
    Filled root placed placed.length nodes := by
  have hall := h.skipAll (List.append_nil (placed.drop settled)).symm hrest
  rwa [List.length_drop, Nat.add_sub_cancel' h.settled_le] at hall

-- The queue holds the children of the trees that are not settled, until there are none.
theorem run {turns : Nat} {queue : List (Nat × List Subtree)}
    (h : Filled root placed settled nodes)
    (hqueue : queue = waiting settled (placed.drop settled))
    (hturns : totalSize (placed.drop settled) ≤ turns) :
    ∃ placed', Filled root placed' placed'.length (settle turns nodes queue) := by
  induction turns generalizing placed settled nodes queue with
  | zero => exact ⟨placed, h.settleRest (by simp [eq_nil_of_totalSize hturns])⟩
  | succ turns ih =>
    match queue with
    | [] => exact ⟨placed, h.settleRest (children_eq_nil_of_waiting hqueue.symm)⟩
    | (parent, children) :: queue =>
      obtain ⟨before, t, after, hrest, hbefore, rfl, hparent, rfl⟩ :=
        exists_of_waiting hqueue.symm
      have hskip := h.skipAll hrest hbefore
      rw [← hparent] at hskip
      have hdrop : placed.drop parent = t :: after := by
        rw [hparent, ← List.drop_drop, hrest, List.drop_left]
      have ht : placed[parent]? = some t := by
        have := congrArg (·[0]?) hdrop
        simpa using this
      have hlt := (List.getElem?_eq_some_iff.mp ht).1
      have hafter : placed.drop (parent + 1) = after := by
        rw [← List.drop_drop, hdrop, List.drop_one, List.tail_cons]
      have hlength : nodes.size = parent + 1 + after.length := by
        rw [h.size, ← hafter, List.length_drop]
        omega
      refine ih (hskip.step ht) ?_ ?_
      · rw [List.drop_append_of_le_length hlt, hafter, waiting_append, hlength]
      · rw [List.drop_append_of_le_length hlt, hafter, totalSize_append]
        rw [hrest, totalSize_append, totalSize, size_eq] at hturns
        omega

end Filled

/-- In the end the array holds all trees level by level, and each has places for its children. -/
theorem filled_settle (t : Subtree) :
    Filled t t.breadthFirst t.breadthFirst.length
      (settle (t.size + 1) #[seed none t] [(0, t.children)]) := by
  have hfirst := (Filled.seed t).step rfl
  have hsize : totalSize t.children ≤ t.size := by
    rw [size_eq]
    omega
  -- the root has its turn whether it has children or not
  obtain ⟨placed, h⟩ := hfirst.run rfl hsize
  have hall := h.trees
  rw [List.take_length] at hall
  rw [← eq_breadthFirst hall]
  exact h

/-! ## Marks -/

-- Apart from marks nothing changes.
theorem unmarked_markAbove (nodes : Array NodeData) (index i : Nat) :
    (markAbove nodes index)[i]?.map NodeData.unmarked = nodes[i]?.map NodeData.unmarked := by
  unfold markAbove
  split
  · rfl
  · split
    · rfl
    · split
      · rw [Array.getElem?_modify]
        split
        · cases nodes[i]? <;> rfl
        · rfl
      · rfl

-- A node is marked if it was before, or because it is above the marked one.
theorem hasError_markAbove {index i : Nat} {d d' : NodeData} (hd : nodes[i]? = some d)
    (hd' : (markAbove nodes index)[i]? = some d') :
    d'.hasError = true ↔ d.hasError = true ∨
      ∃ e, nodes[index]? = some e ∧ e.parent = some i ∧ e.hasError = true := by
  unfold markAbove at hd'
  split at hd'
  case h_1 hnone =>
    cases hd.symm.trans hd'
    simp [hnone]
  case h_2 e he =>
    split at hd'
    case h_1 hparent =>
      cases hd.symm.trans hd'
      simp [he, hparent]
    case h_2 p hparent =>
      cases hmark : e.hasError
      · rw [hmark, if_neg (by simp)] at hd'
        cases hd.symm.trans hd'
        simp [he, hmark]
      · rw [hmark, if_pos rfl, Array.getElem?_modify, hd] at hd'
        split at hd'
        · rename_i hindex
          cases hd'
          simp [he, hparent, hmark, hindex]
        · rename_i hindex
          cases hd'
          simp [he, hparent, hindex]

-- The children of a tree have nodes behind it, and theirs are the nodes that have it as a parent.
theorem Filled.hasError_iff (h : Filled root root.breadthFirst root.breadthFirst.length nodes)
    {i last : Nat} (ht : root.breadthFirst[i]? = some t) (hlast : last ≤ i) :
    t.hasError = true ↔ t.isError = true ∨ ∃ j c, last < j ∧ root.breadthFirst[j]? = some c ∧
      nodes[j]?.bind (·.parent) = some i ∧ c.hasError = true := by
  have hi := (List.getElem?_eq_some_iff.mp ht).1
  have hbehind : i < 1 + firstChildIndex root.breadthFirst i := lt_firstChildIndex hi
  have hchild {k : Nat} (hk : k < t.children.length) :
      root.breadthFirst[1 + firstChildIndex root.breadthFirst i + k]? = t.children[k]? := by
    rw [← getElem?_flatMap_children ht hk, Nat.add_assoc, Nat.add_comm 1]
    exact (congrArg (·[_ + 1]?) root.breadthFirst_eq).trans List.getElem?_cons_succ
  rw [Subtree.hasError_iff]
  refine or_congr_right ⟨?_, ?_⟩
  · rintro ⟨c, hc, herror⟩
    obtain ⟨k, hk, rfl⟩ := List.getElem_of_mem hc
    refine ⟨_, t.children[k], ?_, (hchild hk).trans (List.getElem?_eq_getElem hk), ?_, herror⟩
    · omega
    · exact h.parent.mpr ⟨hi, t, k, ht, hk, rfl⟩
  · rintro ⟨j, c, -, hc, hparent, herror⟩
    obtain ⟨-, u, k, hu, hk, rfl⟩ := h.parent.mp hparent
    rw [ht] at hu
    cases hu
    rw [hchild hk] at hc
    exact ⟨c, List.mem_of_getElem? hc, herror⟩

/-- Of the settled nodes those above errors behind the index `last` are marked. -/
structure Marked (trees : List Subtree) (settled : Array NodeData) (last : Nat)
    (nodes : Array NodeData) : Prop where
  unmarked : ∀ i : Nat, nodes[i]?.map NodeData.unmarked = settled[i]?.map NodeData.unmarked
  marks : ∀ {i : Nat} {t : Subtree} {d : NodeData}, trees[i]? = some t → nodes[i]? = some d →
    (d.hasError = true ↔ t.isError = true ∨ ∃ j c, last < j ∧ trees[j]? = some c ∧
      settled[j]?.bind (·.parent) = some i ∧ c.hasError = true)

theorem Filled.marked (h : Filled root placed settled nodes) :
    Marked placed nodes (nodes.size - 1) nodes := by
  refine ⟨fun _ => rfl, fun {i t d} ht hd => ?_⟩
  have hself : d.hasError = t.isError := by rw [h.fields ht hd]; rfl
  rw [hself]
  refine ⟨.inl, fun herror => herror.resolve_right ?_⟩
  rintro ⟨j, c, hj, hc, -⟩
  have := (List.getElem?_eq_some_iff.mp hc).1
  rw [h.size] at hj
  omega

theorem parent_eq_of_unmarked {nodes' : Array NodeData} {i : Nat}
    (h : nodes'[i]?.map NodeData.unmarked = nodes[i]?.map NodeData.unmarked) :
    nodes'[i]?.bind (·.parent) = nodes[i]?.bind (·.parent) := by
  have hbind (o : Option NodeData) :
      o.bind (·.parent) = (o.map NodeData.unmarked).bind (·.parent) := by
    cases o <;> rfl
  rw [hbind, h, ← hbind]

-- One step to the front: the next node is marked as it is to be, and so is the one above it.
theorem Marked.step (h : Filled root root.breadthFirst root.breadthFirst.length nodes) {last : Nat}
    {nodes' : Array NodeData} (hm : Marked root.breadthFirst nodes (last + 1) nodes') :
    Marked root.breadthFirst nodes last (markAbove nodes' (last + 1)) := by
  refine ⟨fun i => (unmarked_markAbove nodes' (last + 1) i).trans (hm.unmarked i), ?_⟩
  intro i t d ht hd
  obtain ⟨d', hd', -⟩ : ∃ d', nodes'[i]? = some d' ∧ d'.unmarked = d.unmarked := by
    have hsame := unmarked_markAbove nodes' (last + 1) i
    rw [hd] at hsame
    exact Option.map_eq_some_iff.mp hsame.symm
  rw [hasError_markAbove hd' hd, hm.marks ht hd', or_assoc]
  refine or_congr_right ⟨?_, ?_⟩
  · rintro (⟨j, c, hj, hrest⟩ | ⟨e, he, hparent, hmark⟩)
    · exact ⟨j, c, by omega, hrest⟩
    · have hlast : last + 1 < root.breadthFirst.length := by
        have hsome := hm.unmarked (last + 1)
        rw [he] at hsome
        obtain ⟨e', he', -⟩ := Option.map_eq_some_iff.mp hsome.symm
        rw [← h.size]
        exact (Array.getElem?_eq_some_iff.mp he').1
      have hc := List.getElem?_eq_getElem hlast
      refine ⟨last + 1, _, Nat.lt_succ_self _, hc, ?_, ?_⟩
      · rw [← parent_eq_of_unmarked (hm.unmarked (last + 1)), he]
        exact hparent
      · rw [h.hasError_iff hc (Nat.le_refl _)]
        exact (hm.marks hc he).mp hmark
  · rintro ⟨j, c, hj, hc, hparent, herror⟩
    rcases Nat.lt_or_ge (last + 1) j with hlt | hge
    · exact .inl ⟨j, c, hlt, hc, hparent, herror⟩
    · obtain rfl : j = last + 1 := by omega
      rw [← parent_eq_of_unmarked (hm.unmarked (last + 1))] at hparent
      obtain ⟨e, he, hparent⟩ := Option.bind_eq_some_iff.mp hparent
      refine .inr ⟨e, he, hparent, (hm.marks hc he).mpr ?_⟩
      rwa [← h.hasError_iff hc (Nat.le_refl _)]

theorem Marked.run (h : Filled root root.breadthFirst root.breadthFirst.length nodes) {last : Nat}
    {nodes' : Array NodeData} (hm : Marked root.breadthFirst nodes last nodes') :
    Marked root.breadthFirst nodes 0 (markErrors last nodes') := by
  induction last generalizing nodes' with
  | zero => exact hm
  | succ last ih => exact ih (hm.step h)

/-! ## The finished array -/

/-- The node keeps what the tree says, and its children start at the index `firstChild`. -/
structure Shows (t : Subtree) (firstChild : Nat) (d : NodeData) : Prop where
  symbol : d.symbol = t.symbol
  start : d.start = t.start
  stop : d.stop = t.stop
  extra : d.extra = t.extra
  hasError : d.hasError = t.hasError
  firstChild : t.children ≠ [] → d.firstChild = firstChild
  childCount : d.childCount = t.children.length

theorem size_nodes (t : Subtree) : t.nodes.size = t.breadthFirst.length := by
  rw [nodes, size_markErrors]
  exact (filled_settle t).size

theorem marked_nodes (t : Subtree) :
    Marked t.breadthFirst (settle (t.size + 1) #[seed none t] [(0, t.children)]) 0 t.nodes :=
  (filled_settle t).marked.run (filled_settle t)

-- Marks change no parents.
theorem parent_nodes {i j : Nat} :
    root.nodes[j]?.bind (·.parent) = some i ↔ ∃ t k, root.breadthFirst[i]? = some t ∧
      k < t.children.length ∧ j = 1 + firstChildIndex root.breadthFirst i + k := by
  rw [parent_eq_of_unmarked ((marked_nodes root).unmarked j), (filled_settle root).parent]
  refine and_iff_right_of_imp ?_
  rintro ⟨t, k, ht, -⟩
  exact (List.getElem?_eq_some_iff.mp ht).1

theorem nodes_shows {i : Nat} {d : NodeData} (ht : root.breadthFirst[i]? = some t)
    (hd : root.nodes[i]? = some d) :
    t.Shows (1 + firstChildIndex root.breadthFirst i) d := by
  have hfilled := filled_settle root
  have hmarked := marked_nodes root
  obtain ⟨e, he, hsame⟩ := Option.map_eq_some_iff.mp
    ((hmarked.unmarked i).symm.trans (congrArg (Option.map NodeData.unmarked) hd))
  have hi := (List.getElem?_eq_some_iff.mp ht).1
  have hfields := hfilled.fields ht he
  have hcount := hfilled.childCount ht he
  rw [if_pos hi] at hcount
  -- but for its mark, a node shows what it showed before the marks
  have hfirst (hne : t.children ≠ []) := hfilled.firstChild ht he hi hne
  rw [hfields] at hsame hcount
  simp only [NodeData.unmarked, seed, NodeData.mk.injEq] at hsame
  obtain ⟨hsymbol, hstart, hstop, -, hfirstChild, hchildCount, hextra, -⟩ := hsame
  refine ⟨hsymbol.symm, hstart.symm, hstop.symm, hextra.symm, ?_, ?_, ?_⟩
  · rw [Bool.eq_iff_iff, hmarked.marks ht hd, hfilled.hasError_iff ht (Nat.zero_le i)]
  · intro hne
    rw [← hfirstChild, hfirst hne]
  · rw [← hchildCount]
    exact hcount

end Subtree

end GrammarKit
