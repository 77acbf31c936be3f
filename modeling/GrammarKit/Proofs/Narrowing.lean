import GrammarKit.Proofs.ParsedTree
import GrammarKit.Proofs.Unfolding
import Mathlib.Data.List.Pairwise

/-!
# The smallest node over some bytes

Children stand side by side, so that no two of them span the same bytes unless there are none.
Going down to the first child that spans the bytes is therefore going down to the only one, and the
way down passes every node that spans them.
-/

namespace GrammarKit

namespace Node

variable {tree : Tree}

/-! ## Levels -/

/-- `d` stands `k` levels below the node `n`. -/
inductive AtLevel (n : Node tree) : Nat → Node tree → Prop
  | zero : AtLevel n 0 n
  | succ {k p c} : AtLevel n k p → c ∈ p.children → AtLevel n (k + 1) c

section

variable {a b c d n : Node tree} {j k : Nat}

theorem below_of_atLevel (h : n.AtLevel k d) : n.Below d := by
  induction h with
  | zero => exact .refl
  | succ _ hc ih => exact .child ih hc

theorem Below.exists_atLevel (h : n.Below d) : ∃ k, n.AtLevel k d := by
  induction h with
  | refl => exact ⟨0, .zero⟩
  | child _ hc ih =>
    obtain ⟨k, hk⟩ := ih
    exact ⟨k + 1, .succ hk hc⟩

theorem AtLevel.trans (hab : a.AtLevel j b) (hbc : b.AtLevel k c) : a.AtLevel (j + k) c := by
  induction hbc with
  | zero => exact hab
  | succ _ hc ih => exact .succ ih hc

end

section

variable {l : Language} {t : Subtree} {text : List Char} {d n : Node (Tree.ofSubtree l t text)}
  {j k : Nat}

-- There is one way only from a node down to another.
theorem AtLevel.unique (hj : n.AtLevel j d) (hk : n.AtLevel k d) : j = k := by
  induction hj generalizing k with
  | zero =>
    cases hk with
    | zero => rfl
    | succ hp hc =>
      -- a node would stand below one of its children
      have hlt := index_lt_of_mem_children hc
      exact absurd (below_of_atLevel hp).index_le (Nat.not_le_of_lt hlt)
  | succ hp hc ih =>
    cases hk with
    | zero =>
      have hlt := index_lt_of_mem_children hc
      exact absurd (below_of_atLevel hp).index_le (Nat.not_le_of_lt hlt)
    | succ hq hd =>
      rw [parent_unique hd hc] at hq
      rw [ih hq]

end

/-! ## Nodes that span bytes -/

theorem spans_iff {n : Node tree} {start stop : Nat} :
    n.spans start stop = true ↔ n.start ≤ start ∧ stop ≤ n.stop := by
  simp [spans]

end Node

namespace Tree.Nested

variable {tree : Tree} {text : String} {d n : Node tree} {start stop : Nat}

theorem below_within (h : tree.Nested text) (hd : n.Below d) :
    n.start ≤ d.start ∧ d.stop ≤ n.stop := by
  induction hd with
  | refl => exact ⟨Nat.le_refl _, Nat.le_refl _⟩
  | @child p c _ hc ih =>
    have hwithin := h.within p c hc
    omega

-- What spans the bytes is spanned by what they are spanned by above it.
theorem spans_of_below (h : tree.Nested text) (hd : n.Below d)
    (hspans : d.spans start stop = true) : n.spans start stop = true := by
  have hwithin := h.below_within hd
  rw [Node.spans_iff] at hspans ⊢
  omega

-- Two children that span the same bytes are one.
theorem spans_unique (h : tree.Nested text) (hlt : start < stop) :
    ∀ c ∈ n.children, ∀ d ∈ n.children, c.spans start stop = true → d.spans start stop = true →
      c = d := by
  have hapart {c d : Node tree} (hle : c.stop ≤ d.start) (hc : c.spans start stop = true)
      (hd : d.spans start stop = true) : False := by
    rw [Node.spans_iff] at hc hd
    omega
  refine List.Pairwise.forall_of_forall_of_flip (fun c _ _ _ => rfl) ?_ ?_
  · exact (h.inOrder n).imp fun hle hc hd => absurd hd (hapart hle hc)
  · exact (h.inOrder n).imp fun hle hd hc => absurd hd (hapart hle hc)

end Tree.Nested

/-! ## The way down -/

namespace Node

variable {tree : Tree} {start stop : Nat}

theorem below_narrow (levels : Nat) (n : Node tree) : n.Below (narrow start stop levels n) := by
  induction levels generalizing n with
  | zero => exact .refl
  | succ levels ih =>
    rw [narrow]
    cases hc : n.children.find? (·.spans start stop) with
    | none => exact .refl
    | some c => exact below_of_mem_children (List.mem_of_find?_eq_some hc) (ih c)

theorem spans_narrow (levels : Nat) {n : Node tree} (h : n.spans start stop = true) :
    (narrow start stop levels n).spans start stop = true := by
  induction levels generalizing n with
  | zero => exact h
  | succ levels ih =>
    rw [narrow]
    cases hc : n.children.find? (·.spans start stop) with
    | none => exact h
    | some c =>
      have hspans := List.find?_some hc
      exact ih hspans

section

variable {l : Language} {t : Subtree} {text : List Char} {d n : Node (Tree.ofSubtree l t text)}

-- With levels enough, the way ends where no child spans the bytes.
theorem child_narrow {levels : Nat} (hlevels : n.subtree.size ≤ levels) :
    ∀ c ∈ (narrow start stop levels n).children, c.spans start stop = false := by
  induction levels generalizing n with
  | zero => exact absurd hlevels (Nat.not_le_of_lt n.subtree.size_pos)
  | succ levels ih =>
    rw [narrow]
    cases hc : n.children.find? (·.spans start stop) with
    | none => simpa using List.find?_eq_none.mp hc
    | some c =>
      have hmem := n.subtree_mem_children (List.mem_of_find?_eq_some hc)
      have hsize := Subtree.size_lt_of_mem_children hmem
      exact ih (by omega)

-- The way passes every node that spans the bytes.
theorem narrow_below {source : String} (hnested : (Tree.ofSubtree l t text).Nested source)
    (hlt : start < stop) {levels : Nat} (hlevels : n.subtree.size ≤ levels) (hd : n.Below d)
    (hspans : d.spans start stop = true) : d.Below (narrow start stop levels n) := by
  induction levels generalizing n with
  | zero => exact absurd hlevels (Nat.not_le_of_lt n.subtree.size_pos)
  | succ levels ih =>
    rcases hd.eq_or_below_child with rfl | ⟨c, hc, hd⟩
    · exact below_narrow (levels + 1) d
    · have hcspans := hnested.spans_of_below hd hspans
      rw [narrow]
      cases hfirst : n.children.find? (·.spans start stop) with
      | none => exact absurd hcspans (List.find?_eq_none.mp hfirst c hc)
      | some c' =>
        have hmem := List.mem_of_find?_eq_some hfirst
        have hfirst := List.find?_some hfirst
        obtain rfl := hnested.spans_unique hlt c' hmem c hc hfirst hcspans
        have hsize := Subtree.size_lt_of_mem_children (n.subtree_mem_children hc)
        exact ih (by omega) hd

/-- Of two nodes that span the same bytes, one stands below the other. -/
theorem connected_of_spans {source : String} (hnested : (Tree.ofSubtree l t text).Nested source)
    (hlt : start < stop) (hn : n.spans start stop = true) (hd : d.spans start stop = true) :
    n.Below d ∨ d.Below n := by
  have hroot := (Tree.ofSubtree l t text).root.size_subtree_le
  exact (narrow_below hnested hlt hroot n.root_below hn).connected
    (narrow_below hnested hlt hroot d.root_below hd)

end

/-- What is found below a node for the bytes from `start` up to `stop` is the smallest node there
that spans them, if the node itself does. -/
structure FindsSmallest (n : Node tree) (start stop : Nat) : Prop where
  none_iff : n.descendantFor? start stop = none ↔ start < n.start ∨ n.stop < stop
  innermost : ∀ r, n.descendantFor? start stop = some r →
    n.Below r ∧ r.spans start stop = true ∧ ∀ c ∈ r.children, c.spans start stop = false
  /-- A node spans the bytes exactly if it is the one that is found or stands above that one. -/
  chain : ∀ r, n.descendantFor? start stop = some r → start < stop →
    ∀ d, n.Below d → (d.spans start stop = true ↔ d.Below r)
  smallest : ∀ r, n.descendantFor? start stop = some r → start < stop →
    ∀ d, n.Below d → d.spans start stop = true →
      d.start ≤ r.start ∧ r.stop ≤ d.stop ∧ ∀ j k, n.AtLevel j d → n.AtLevel k r → j ≤ k

section

variable {l : Language} {t : Subtree} {text : List Char}

theorem findsSmallest {source : String} (hnested : (Tree.ofSubtree l t text).Nested source)
    (n : Node (Tree.ofSubtree l t text)) (start stop : Nat) : n.FindsSmallest start stop := by
  have hfound : ∀ r, n.descendantFor? start stop = some r → n.spans start stop = true ∧
      narrow start stop (Tree.ofSubtree l t text).nodes.size n = r := by
    intro r hr
    obtain ⟨hspans, hr⟩ := Option.ite_none_right_eq_some.mp hr
    exact ⟨hspans, Option.some.inj hr⟩
  have hchain : ∀ r, n.descendantFor? start stop = some r → start < stop →
      ∀ d, n.Below d → (d.spans start stop = true ↔ d.Below r) := by
    intro r hr hlt d hd
    obtain ⟨hspans, rfl⟩ := hfound r hr
    exact ⟨narrow_below hnested hlt n.size_subtree_le hd,
      fun hdr => hnested.spans_of_below hdr (spans_narrow _ hspans)⟩
  refine ⟨?_, fun r hr => ?_, hchain, fun r hr hlt d hd hspans => ?_⟩
  · rw [descendantFor?, ite_eq_right_iff]
    have hspans : ¬ n.spans start stop = true ↔ start < n.start ∨ n.stop < stop := by
      rw [spans_iff]
      omega
    simpa using hspans
  · obtain ⟨hspans, rfl⟩ := hfound r hr
    exact ⟨below_narrow _ n, spans_narrow _ hspans, child_narrow n.size_subtree_le⟩
  · have hdr := (hchain r hr hlt d hd).mp hspans
    obtain ⟨hstart, hstop⟩ := hnested.below_within hdr
    refine ⟨hstart, hstop, fun j k hj hk => ?_⟩
    obtain ⟨m, hm⟩ := hdr.exists_atLevel
    have hlevel := (hj.trans hm).unique hk
    omega

end

end Node

/-- The nodes of a parsed tree nest. -/
theorem Language.Loadable.tree_nested {l : Language} (hl : l.Loadable) (depth : Nat)
    (text : String) : (Tree.ofSubtree l (l.textTree depth text) text.toList).Nested text := by
  have hgrown := hl.textTree_grown depth text
  exact Tree.nested_ofSubtree hgrown.wellNested (fun b hb => hb.1)
    (congrArg Token.start hgrown.asToken) (congrArg Token.stop hgrown.asToken)

/-- **The smallest node is found.** -/
theorem Parser.parse_findsSmallest {l : Language} (hl : l.Loadable) (parser : Parser)
    (hparser : parser.language = some l) (text : String) :
    ∃ result, parser.parse text = some result ∧
      ∀ (n : Node result.tree) (start stop : Nat), n.FindsSmallest start stop := by
  refine ⟨l.parse parser.maxDepth text, by rw [Parser.parse, hparser]; rfl, ?_⟩
  rw [l.parse_tree]
  exact Node.findsSmallest (hl.tree_nested parser.maxDepth text)

theorem Parser.parse_findsSmallest_sums :
    ∃ result,
      ({ language := some .sums, maxDepth := 8 } : Parser).parse "1+#a 2;@+3" = some result ∧
      ∀ (n : Node result.tree) (start stop : Nat), n.FindsSmallest start stop :=
  parse_findsSmallest Language.sums_loadable { language := some .sums, maxDepth := 8 } rfl
    "1+#a 2;@+3"

end GrammarKit
