import GrammarKit.Proofs.CaptureNames
import GrammarKit.Proofs.Outranking
import GrammarKit.Proofs.ParsedTree

/-!
# Highlights of a text

The spans of a highlighter tell for each byte of a text what the smallest captured node over it was
captured for.
-/

namespace GrammarKit

/-! ## Nodes nest -/

namespace Subtree

/-- The bytes of one of the trees lie within those of the other, or before or behind them. -/
def Nests (s u : Subtree) : Prop :=
  s.stop ≤ u.start ∨ u.stop ≤ s.start ∨ s.start ≤ u.start ∧ u.stop ≤ s.stop ∨
    u.start ≤ s.start ∧ s.stop ≤ u.stop

theorem WellNested.nests {bound : Nat → Prop} {t : Subtree} (hw : t.WellNested bound) :
    ∀ {s u : Subtree}, s.Within t → u.Within t → s.Nests u := by
  induction t using Subtree.induction with
  | node t ih =>
    intro s u hs hu
    obtain ⟨hin, hchildren⟩ : InOrder t.start t.children t.stop ∧
        ∀ c ∈ t.children, WellNested bound c := by
      cases hw with
      | intro _ _ hin hchildren => exact ⟨hin, hchildren⟩
    -- what lies within two children of the tree nests
    have hpairs : ∀ c ∈ t.children, ∀ d ∈ t.children, ∀ s u : Subtree, s.Within c → u.Within d →
        s.Nests u := by
      refine List.Pairwise.forall_of_forall_of_flip ?_ ?_ ?_
      · exact fun c hc s u hs hu => ih c hc (hchildren c hc) hs hu
      · refine hin.pairwise.imp_of_mem fun {c d} hc hd hle s u hs hu => .inl ?_
        exact Nat.le_trans ((hchildren c hc).within hs).2.2
          (Nat.le_trans hle ((hchildren d hd).within hu).1)
      · refine hin.pairwise.imp_of_mem fun {c d} hc hd hle s u hs hu => .inr (.inl ?_)
        exact Nat.le_trans ((hchildren c hc).within hu).2.2
          (Nat.le_trans hle ((hchildren d hd).within hs).1)
    cases hs with
    | refl => exact .inr (.inr (.inl ⟨(hw.within hu).1, (hw.within hu).2.2⟩))
    | child hc hs =>
      cases hu with
      | refl =>
        have hs := hw.within (.child hc hs)
        exact .inr (.inr (.inr ⟨hs.1, hs.2.2⟩))
      | child hd hu => exact hpairs _ hc _ hd s u hs hu

end Subtree

/-! ## What a highlighter captures -/

namespace Highlighter

/-- The bytes of what the query captures in a tree, in the order of the matches and of the captures
of each. -/
def captured (h : Highlighter) (tree : Tree) : List CapturedRange :=
  (h.query.run tree.root).flatMap fun m =>
    m.captures.map fun c => ⟨c.node.start, c.node.stop, m.patternIndex, c.index⟩

/-- The highlight of a byte: that of the smallest captured range that takes it. -/
def highlightAt (h : Highlighter) (tree : Tree) (byte : Nat) : Option Nat :=
  (CapturedRange.decisive? (h.captured tree) byte).map (·.highlight)

variable {l m : Language} {t : Subtree} {text : List Char} {source : String} {h : Highlighter}

theorem of_ofText (hh : ofText l source = .ok h) :
    h.language = l ∧ Query.ofText l source = .ok h.query := by
  obtain ⟨q, hq, hh⟩ := Except.of_bind_eq_ok hh
  cases hh
  exact ⟨rfl, hq⟩

theorem exists_node_of_mem_captured {tree : Tree} {r : CapturedRange} (hr : r ∈ h.captured tree) :
    ∃ n : Node tree, n.start = r.start ∧ n.stop = r.stop := by
  obtain ⟨found, -, hr⟩ := List.mem_flatMap.mp hr
  obtain ⟨c, -, rfl⟩ := List.mem_map.mp hr
  exact ⟨c.node, rfl, rfl⟩

theorem highlight_lt_of_mem_captured (hh : ofText l source = .ok h) {r : CapturedRange}
    (hr : r ∈ h.captured (Tree.ofSubtree m t text)) : r.highlight < h.names.length := by
  obtain ⟨found, hfound, hr⟩ := List.mem_flatMap.mp hr
  obtain ⟨c, hc, rfl⟩ := List.mem_map.mp hr
  exact Query.index_lt_of_mem_run (of_ofText hh).2 hfound c hc

-- In a text that is short enough, spans count bytes as nodes do.
theorem ranges_eq {tree : Tree}
    (hsize : ∀ n : Node tree, n.start < UInt32.size ∧ n.stop < UInt32.size) :
    h.ranges tree = (h.captured tree).filter fun r => r.start < r.stop := by
  have hoffset (n : Node tree) : spanOffset n.start = n.start ∧ spanOffset n.stop = n.stop :=
    ⟨UInt32.toNat_ofNat_of_lt' (hsize n).1, UInt32.toNat_ofNat_of_lt' (hsize n).2⟩
  simp only [ranges, captured, hoffset]

section

variable {bound : Nat → Prop}

theorem nests_of_mem_captured (hw : t.WellNested bound) {a b : CapturedRange}
    (ha : a ∈ h.captured (Tree.ofSubtree m t text))
    (hb : b ∈ h.captured (Tree.ofSubtree m t text)) : a.Nests b := by
  obtain ⟨n, hnstart, hnstop⟩ := exists_node_of_mem_captured ha
  obtain ⟨k, hkstart, hkstop⟩ := exists_node_of_mem_captured hb
  have hnests := hw.nests n.subtree_within k.subtree_within
  rw [Subtree.Nests, ← n.start_eq, ← n.stop_eq, ← k.start_eq, ← k.stop_eq, hnstart, hnstop,
    hkstart, hkstop] at hnests
  exact hnests

-- The spans of a tree with well-nested nodes.
theorem spans_encodes (hw : t.WellNested bound) (hzero : bound 0) (hsize : t.stop < UInt32.size)
    (hsame : m.sameAs h.language = true) :
    Span.Encodes (h.spans (Tree.ofSubtree m t text)) (h.highlightAt (Tree.ofSubtree m t text)) ∧
      ∀ s ∈ h.spans (Tree.ofSubtree m t text), bound s.start ∧ bound s.stop := by
  let tree := Tree.ofSubtree m t text
  have hends (n : Node tree) : bound n.start ∧ bound n.stop ∧ n.start ≤ n.stop ∧
      n.stop ≤ t.stop := by
    rw [n.start_eq, n.stop_eq]
    have hbounds := (hw.of_within n.subtree_within).bounds
    exact ⟨hbounds.1, hbounds.2.1, hbounds.2.2, (hw.within n.subtree_within).2.2⟩
  have hranges : h.ranges tree = (h.captured tree).filter fun r => r.start < r.stop := by
    refine ranges_eq fun n => ?_
    obtain ⟨-, -, hle, hstop⟩ := hends n
    omega
  have hmem {r : CapturedRange} (hr : r ∈ h.ranges tree) : r ∈ h.captured tree ∧
      r.start < r.stop := by
    rw [hranges, List.mem_filter, decide_eq_true_eq] at hr
    exact hr
  have hnests : ∀ a ∈ h.ranges tree, ∀ b ∈ h.ranges tree, a.Nests b := fun a ha b hb =>
    nests_of_mem_captured hw (hmem ha).1 (hmem hb).1
  have hspans : h.spans tree = Layout.ofRanges (CapturedRange.chosen (h.ranges tree)) :=
    if_pos hsame
  obtain ⟨hencodes, hbounds⟩ := Layout.ofRanges_encodes hzero
    (fun r hr => (hmem (CapturedRange.mem_of_mem_chosen hr)).2)
    (fun r hr => by
      obtain ⟨n, hstart, hstop⟩ :=
        exists_node_of_mem_captured (hmem (CapturedRange.mem_of_mem_chosen hr)).1
      rw [← hstart, ← hstop]
      exact ⟨(hends n).1, (hends n).2.1⟩)
    (CapturedRange.pairwise_fits_chosen hnests fun r hr => (hmem hr).2)
  have hmap : h.highlightAt tree = fun byte =>
      (CapturedRange.lastCovering? (CapturedRange.chosen (h.ranges tree)) byte).map
        (·.highlight) := by
    funext byte
    rw [CapturedRange.lastCovering?_chosen hnests, hranges, CapturedRange.decisive?_filter]
    rfl
  rw [hspans, hmap]
  exact ⟨hencodes, hbounds⟩

end

/-- **Highlighting is pointwise.**  The spans of a text encode the map that sends each byte to the
highlight of the smallest captured node over it, if there is one, and nothing else does. -/
theorem spans_encode (hl : l.Loadable) (hh : ofText l source = .ok h) (parser : Parser)
    (hparser : parser.language = some l) (text : String) (hsize : text.utf8ByteSize < UInt32.size) :
    ∃ result, parser.parse text = some result ∧
      (∀ spans, Span.Encodes spans (h.highlightAt result.tree) ↔ spans = h.spans result.tree) ∧
      (∀ byte, h.highlightAt result.tree byte = none ↔
        ∀ r ∈ h.captured result.tree, r.covers byte = false) ∧
      ∀ s ∈ h.spans result.tree, Text.IsBoundary text.toList s.start ∧
        Text.IsBoundary text.toList s.stop ∧ s.highlight < h.names.length := by
  refine ⟨l.parse parser.maxDepth text, by rw [Parser.parse, hparser]; rfl, ?_⟩
  have hgrown := hl.textTree_grown parser.maxDepth text
  have hstart : (l.textTree parser.maxDepth text).start = 0 := congrArg Token.start hgrown.asToken
  have hstop : (l.textTree parser.maxDepth text).stop = text.utf8ByteSize :=
    congrArg Token.stop hgrown.asToken
  have hsame : l.sameAs h.language = true := by
    rw [(of_ofText hh).1]
    exact beq_self_eq_true _
  rw [l.parse_tree]
  obtain ⟨hencodes, hbounds⟩ := @spans_encodes l _ text.toList h _ hgrown.wellNested
    (hstart ▸ hgrown.wellNested.bounds.1) (hstop ▸ hsize) hsame
  refine ⟨fun spans => ⟨fun hspans => hspans.unique hencodes, fun heq => heq ▸ hencodes⟩,
    fun byte => ?_, fun s hs => ⟨(hbounds s hs).1.1, (hbounds s hs).2.1, ?_⟩⟩
  · rw [highlightAt, Option.map_eq_none_iff]
    exact CapturedRange.decisive?_eq_none fun a ha b hb =>
      nests_of_mem_captured hgrown.wellNested ha hb
  · -- the first byte of a span has its highlight from a capture
    have hat := (hencodes.shown s.start s.highlight).mp
      ⟨s, hs, Nat.le_refl _, hencodes.ordered.nonempty s hs, rfl⟩
    obtain ⟨r, hr, hhighlight⟩ := Option.map_eq_some_iff.mp hat
    rw [← hhighlight]
    exact highlight_lt_of_mem_captured hh (List.mem_of_find?_eq_some hr)

/-- A highlighter for sums, their numbers and comments. -/
def sums : Highlighter :=
  { language := .sums
    query :=
      { patterns := [.node (.kind 8) [] [0], .node (.kind 3) [] [1], .node (.kind 4) [] [2]]
        captureNames := ["sum", "number", "comment"] } }

theorem ofText_sums :
    ofText .sums "(sum) @sum (number) @number (comment) @comment" = .ok sums := by
  with_unfolding_all rfl

theorem spans_encode_sums :
    ∃ result,
      ({ language := some .sums, maxDepth := 8 } : Parser).parse "1+#a 2;@+3" = some result ∧
      (∀ spans, Span.Encodes spans (sums.highlightAt result.tree) ↔
        spans = sums.spans result.tree) ∧
      (∀ byte, sums.highlightAt result.tree byte = none ↔
        ∀ r ∈ sums.captured result.tree, r.covers byte = false) ∧
      ∀ s ∈ sums.spans result.tree, Text.IsBoundary "1+#a 2;@+3".toList s.start ∧
        Text.IsBoundary "1+#a 2;@+3".toList s.stop ∧ s.highlight < sums.names.length :=
  spans_encode Language.sums_loadable ofText_sums { language := some .sums, maxDepth := 8 } rfl
    "1+#a 2;@+3" (by decide +kernel)

end Highlighter

end GrammarKit
