import GrammarKit.Proofs.Descent

/-!
# Marks of errors

In a finished tree the marks were handed up in one pass over the array.  They tell at every node
what a walk below it would find: whether it is an error node or stands above one.
-/

namespace GrammarKit

namespace Subtree

-- The mark on a tree tells of an error anywhere within.
theorem hasError_iff_within {t : Subtree} :
    t.hasError = true ↔ ∃ s : Subtree, s.Within t ∧ s.isError = true := by
  induction t using induction with
  | node t ih =>
    rw [hasError_iff]
    constructor
    · rintro (herror | ⟨c, hc, herror⟩)
      · exact ⟨t, .refl, herror⟩
      · obtain ⟨s, hs, herror⟩ := (ih c hc).mp herror
        exact ⟨s, .child hc hs, herror⟩
    · rintro ⟨s, hs, herror⟩
      cases hs with
      | refl => exact .inl herror
      | child hc hs => exact .inr ⟨_, hc, (ih _ hc).mpr ⟨s, hs, herror⟩⟩

end Subtree

namespace Node

variable {l : Language} {t : Subtree} {text : List Char} {n d : Node (Tree.ofSubtree l t text)}

-- What stands below a node was made of the trees within its tree.
theorem Below.subtree_within (h : n.Below d) : d.subtree.Within n.subtree := by
  have hmem : d.subtree ∈ n.descendants.map subtree := List.mem_map_of_mem (mem_descendants.mpr h)
  rw [descendants_map_subtree] at hmem
  exact Subtree.mem_preorder.mp hmem

theorem exists_below {s : Subtree} (h : s.Within n.subtree) : ∃ d, n.Below d ∧ d.subtree = s := by
  have hmem : s ∈ n.descendants.map subtree := by
    rw [descendants_map_subtree]
    exact Subtree.mem_preorder.mpr h
  obtain ⟨d, hd, hs⟩ := List.mem_map.mp hmem
  exact ⟨d, mem_descendants.mp hd, hs⟩

/-- A node is marked if it is an error or an error stands below it. -/
theorem hasError_iff_below : n.hasError = true ↔ ∃ d, n.Below d ∧ d.isError = true := by
  rw [hasError_eq, Subtree.hasError_iff_within]
  constructor
  · rintro ⟨s, hs, herror⟩
    obtain ⟨d, hd, rfl⟩ := exists_below hs
    exact ⟨d, hd, by rwa [isError_eq]⟩
  · rintro ⟨d, hd, herror⟩
    rw [isError_eq] at herror
    exact ⟨d.subtree, hd.subtree_within, herror⟩

end Node

/-- The nodes of a tree are marked if they are errors or stand above errors, and no others are. -/
structure Tree.MarksErrors (tree : Tree) : Prop where
  below : ∀ n : Node tree, n.hasError = true ↔ ∃ d, n.Below d ∧ d.isError = true
  descendants : ∀ n : Node tree, n.hasError = n.descendants.any (·.isError)

/-- **The marks are exact**, whatever tree was laid out in an array. -/
theorem Tree.marksErrors_ofSubtree (l : Language) (t : Subtree) (text : List Char) :
    (ofSubtree l t text).MarksErrors where
  below _ := Node.hasError_iff_below
  descendants n := by
    rw [Bool.eq_iff_iff, Node.hasError_iff_below, List.any_eq_true]
    exact exists_congr fun d => and_congr_left' Node.mem_descendants.symm

end GrammarKit
