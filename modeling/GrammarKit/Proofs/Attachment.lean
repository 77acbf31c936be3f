import GrammarKit.Proofs.Narrowing

/-!
# Where extras are attached

In a parsed tree an extra is a leaf below the deepest node over its bytes, between the children
before it and those behind it.  Without the extras, the tree is the one that the rules made.
-/

namespace GrammarKit

namespace Subtree

/-! ## Taking extras out again -/

mutual

/-- The tree without the extras in it. -/
def withoutExtras : Subtree → Subtree
  | ⟨symbol, start, stop, children, extra⟩ => ⟨symbol, start, stop, dropExtras children, extra⟩

/-- Those of the trees that are no extras, without the extras in them. -/
def dropExtras : List Subtree → List Subtree
  | [] => []
  | t :: ts => if t.extra then dropExtras ts else t.withoutExtras :: dropExtras ts

end

variable {l : Language} {bound : Nat → Prop} {e : Token} {es : List Token} {s t t' : Subtree}

@[simp] theorem extra_withoutExtras (t : Subtree) : t.withoutExtras.extra = t.extra := by
  cases t
  rfl

theorem dropExtras_append (ts us : List Subtree) :
    dropExtras (ts ++ us) = dropExtras ts ++ dropExtras us := by
  induction ts with
  | nil => rfl
  | cons t ts ih =>
    rw [List.cons_append, dropExtras, dropExtras, ih]
    split <;> rfl

theorem dropExtras_cons_congr {us : List Subtree} (hextra : t'.extra = t.extra)
    (h : t'.withoutExtras = t.withoutExtras) : dropExtras (t' :: us) = dropExtras (t :: us) := by
  rw [dropExtras, dropExtras, hextra, h]

theorem withoutExtras_eq_self (h : ∀ s : Subtree, s.Within t → s.extra = false) :
    t.withoutExtras = t := by
  induction t using induction with
  | node t ih =>
    obtain ⟨symbol, start, stop, children, extra⟩ := t
    have hall (ts : List Subtree) (hts : ∀ c ∈ ts, c ∈ children) : dropExtras ts = ts := by
      induction ts with
      | nil => rfl
      | cons c ts ihts =>
        obtain ⟨hc, hts⟩ := List.forall_mem_cons.mp hts
        have hclean : ∀ s : Subtree, s.Within c → s.extra = false := fun s hs => h s (.child hc hs)
        rw [dropExtras, if_neg (by simp [hclean c .refl]), ih c hc hclean, ihts hts]
    rw [withoutExtras, hall children fun c hc => hc]

theorem Inserted.withoutExtras_eq (h : Inserted e t t') :
    t'.withoutExtras = t.withoutExtras := by
  induction h with
  | @among s start stop before after =>
    have hleaf : dropExtras (extraLeaf e :: after) = dropExtras after := by
      rw [dropExtras, if_pos (show (extraLeaf e).extra = true from rfl)]
    rw [withoutExtras, withoutExtras, dropExtras_append, dropExtras_append, hleaf]
  | within _ _ _ hin ih =>
    rw [withoutExtras, withoutExtras, dropExtras_append, dropExtras_append,
      dropExtras_cons_congr hin.extra_eq ih]

/-! ## Extras are leaves -/

/-- No extra within the tree has children. -/
def ExtrasBare (t : Subtree) : Prop :=
  ∀ s : Subtree, s.Within t → s.extra = true → s.children = []

theorem extrasBare_iff : t.ExtrasBare ↔
    (t.extra = true → t.children = []) ∧ ∀ c ∈ t.children, c.ExtrasBare := by
  constructor
  · intro h
    exact ⟨h t .refl, fun c hc s hs => h s (.child hc hs)⟩
  · rintro ⟨hself, hchildren⟩ s hs
    cases hs with
    | refl => exact hself
    | child hc hs => exact hchildren _ hc s hs

-- An extra stops before the next one starts, and does not enclose it.
theorem extra_eq_false_of_encloses (hlt : e.start < e.stop) (henc : t.encloses e = true)
    (hlast : ∀ u ∈ extrasIn [t], u.stop ≤ e.start) : t.extra = false := by
  refine Bool.eq_false_iff.mpr fun hextra => ?_
  have hstop : t.stop ≤ e.start := hlast t.asToken (mem_extrasIn .refl hextra)
  have hencloses := (encloses_iff.mp henc).2
  omega

theorem Inserted.extrasBare (h : Inserted e t t') (hlt : e.start < e.stop)
    (henc : t.encloses e = true) (hlast : ∀ u ∈ extrasIn [t], u.stop ≤ e.start)
    (hbare : t.ExtrasBare) : t'.ExtrasBare := by
  induction h with
  | among =>
    have hextra := extra_eq_false_of_encloses hlt henc hlast
    have hchildren := (extrasBare_iff.mp hbare).2
    simp only [List.mem_append] at hextra hchildren
    refine extrasBare_iff.mpr ⟨fun htrue => absurd htrue (by simp [hextra]), fun c hc => ?_⟩
    simp only [List.mem_append, List.mem_cons] at hc
    rcases hc with hc | rfl | hc
    · exact hchildren c (.inl hc)
    · exact extrasBare_iff.mpr ⟨fun _ => rfl, by simp [extraLeaf, leaf]⟩
    · exact hchildren c (.inr hc)
  | @within s start stop before c c' after extra _ _ hc hin ih =>
    have hextra := extra_eq_false_of_encloses hlt henc hlast
    have hchildren := (extrasBare_iff.mp hbare).2
    simp only [List.mem_append, List.mem_cons] at hextra hchildren
    refine extrasBare_iff.mpr ⟨fun htrue => absurd htrue (by simp [hextra]), fun d hd => ?_⟩
    simp only [List.mem_append, List.mem_cons] at hd
    rcases hd with hd | rfl | hd
    · exact hchildren d (.inl hd)
    · refine ih hc (fun u hu => hlast u ?_) (hchildren c (.inr (.inl rfl)))
      rw [extrasIn_around]
      simp [hu]
    · exact hchildren d (.inr (.inr hd))

/-! ## All extras of a text -/

-- What adding one token keeps, adding tokens in the order of the text keeps.
theorem insertExtras_keeps {P : Subtree → Prop}
    (step : ∀ {e t}, Admits l bound t e → P t → P (t.insertExtra e))
    (hes : ∀ e ∈ es, t.Admits l bound e) (horder : es.Pairwise fun e f => e.stop ≤ f.start)
    (ht : P t) : P (t.insertExtras es) := by
  induction es generalizing t with
  | nil => exact ht
  | cons e es ih =>
    obtain ⟨he, hes⟩ := List.forall_mem_cons.mp hes
    obtain ⟨hbehind, horder⟩ := List.pairwise_cons.mp horder
    refine ih (fun f hf => ?_) horder (step he ht)
    exact (hes f hf).grow he.grown (by simpa using hbehind f hf)

end Subtree

namespace Language.Loadable

variable {l : Language}

/-- Without its extras, the tree of a text is the one that the rules made. -/
theorem textTree_withoutExtras (hl : l.Loadable) (depth : Nat) (text : String) :
    (l.textTree depth text).withoutExtras = l.ruleTree depth text := by
  refine Subtree.insertExtras_keeps (P := fun t => t.withoutExtras = l.ruleTree depth text)
    (fun he ht => ?_) (hl.ruleTree_admits depth text) (hl.separated text).extrasInOrder ?_
  · rw [he.inserted.withoutExtras_eq, ht]
  · refine Subtree.withoutExtras_eq_self fun s hs => Bool.eq_false_iff.mpr fun hextra => ?_
    have hmem := Subtree.mem_extrasIn hs hextra
    rw [hl.ruleTree_extras] at hmem
    cases hmem

theorem textTree_extrasBare (hl : l.Loadable) (depth : Nat) (text : String) :
    (l.textTree depth text).ExtrasBare := by
  refine Subtree.insertExtras_keeps (fun he ht => ?_) (hl.ruleTree_admits depth text)
    (hl.separated text).extrasInOrder fun s hs hextra => ?_
  · exact he.inserted.extrasBare he.between.lt he.encloses he.extras ht
  · have hmem := Subtree.mem_extrasIn hs hextra
    rw [hl.ruleTree_extras] at hmem
    cases hmem

end Language.Loadable

/-! ## Extras among the nodes -/

namespace Node

variable {tree : Tree}

/-- `n` is the child number `i` of `p`, which is the deepest node over its bytes that is no extra.
The children before it stop before its bytes, and those behind it start behind them. -/
structure HangsFrom (n p : Node tree) (i : Nat) : Prop where
  child : p.child? i = some n
  proper : p.isExtra = false
  spans : p.spans n.start n.stop = true
  deepest : ∀ q : Node tree, q.isExtra = false → q.spans n.start n.stop = true → q.Below p
  before : ∀ {j c}, j < i → p.child? j = some c → c.stop ≤ n.start
  behind : ∀ {j c}, i < j → p.child? j = some c → n.stop ≤ c.start

theorem Below.eq_of_leaf {n d : Node tree} (h : n.Below d) (hleaf : n.childCount = 0) : d = n := by
  rcases h.eq_or_below_child with rfl | ⟨c, hc, -⟩
  · rfl
  · obtain ⟨k, hk⟩ := mem_children.mp hc
    have hlt := (child?_eq_some.mp hk).1
    omega

@[simp] theorem start_token (n : Node tree) : n.token.start = n.start := rfl

@[simp] theorem stop_token (n : Node tree) : n.token.stop = n.stop := rfl

theorem spans_self (n : Node tree) : n.spans n.start n.stop = true :=
  spans_iff.mpr ⟨Nat.le_refl _, Nat.le_refl _⟩

section

variable {l : Language} {t : Subtree} {text : List Char} {source : String}
  {n m p c d : Node (Tree.ofSubtree l t text)} {i j : Nat}

theorem stop_le_start (hnested : (Tree.ofSubtree l t text).Nested source)
    (hc : p.child? i = some c) (hd : p.child? j = some d) (hij : i < j) : c.stop ≤ d.start := by
  rw [← getElem?_children] at hc hd
  obtain ⟨hi, rfl⟩ := List.getElem?_eq_some_iff.mp hc
  obtain ⟨hj, rfl⟩ := List.getElem?_eq_some_iff.mp hd
  exact List.pairwise_iff_getElem.mp (hnested.inOrder p) i j hi hj hij

-- A leaf over some bytes stands below whatever else spans these bytes.
theorem below_leaf (hnested : (Tree.ofSubtree l t text).Nested source) (hlt : n.start < n.stop)
    (hleaf : n.childCount = 0) (hm : m.spans n.start n.stop = true) : m.Below n := by
  rcases connected_of_spans hnested hlt n.spans_self hm with h | h
  · rw [h.eq_of_leaf hleaf]
    exact .refl
  · exact h

/-- An extra in a tree whose nodes nest hangs where it belongs, if extras are leaves. -/
theorem exists_hangsFrom (hnested : (Tree.ofSubtree l t text).Nested source)
    (hbare : ∀ n : Node (Tree.ofSubtree l t text), n.isExtra = true → n.childCount = 0)
    (hroot : (Tree.ofSubtree l t text).root.isExtra = false) (hextra : n.isExtra = true)
    (hlt : n.start < n.stop) : ∃ p i, n.HangsFrom p i := by
  have hne (m : Node (Tree.ofSubtree l t text)) (hm : m.isExtra = false) : n ≠ m := by
    rintro rfl
    rw [hm] at hextra
    cases hextra
  cases hn : n.root_below with
  | refl => exact absurd rfl (hne _ hroot)
  | @child p _ _ hmem =>
    obtain ⟨i, hi⟩ := mem_children.mp hmem
    have hwithin := hnested.within p n hmem
    refine ⟨p, i, hi, ?_, spans_iff.mpr hwithin, fun q hq hspans => ?_,
      fun hj hc => stop_le_start hnested hc hi hj, fun hj hc => stop_le_start hnested hi hc hj⟩
    · refine Bool.eq_false_iff.mpr fun hp => ?_
      have hcount := (child?_eq_some.mp hi).1
      have hzero := hbare p hp
      omega
    · -- the way down to the extra comes from its parent, which is the only one
      cases below_leaf hnested hlt (hbare n hextra) hspans with
      | refl => exact absurd rfl (hne _ hq)
      | child hqp hmem' => rwa [parent_unique hmem hmem']

end

end Node

/-- The tree has a node for each of the tokens that may stand anywhere, from left to right, and
each of them hangs where it belongs. -/
structure Tree.HoldsExtras (tree : Tree) (extras : List Token) : Prop where
  listed : (tree.root.descendants.filter (·.isExtra)).map (·.token) = extras
  once : ∀ e ∈ extras, ∃! n : Node tree, n.isExtra = true ∧ n.token = e
  leaf : ∀ n : Node tree, n.isExtra = true → n.childCount = 0
  hangs : ∀ n : Node tree, n.isExtra = true → ∃ p i, n.HangsFrom p i

namespace Language.Loadable

variable {l : Language} {depth : Nat} {text : String}
  {n m : Node (Tree.ofSubtree l (l.textTree depth text) text.toList)}

theorem extras_listed (hl : l.Loadable) (depth : Nat) (text : String) :
    ((Tree.ofSubtree l (l.textTree depth text) text.toList).root.descendants.filter
      (·.isExtra)).map (·.token) = (l.lexer.tokenize text).extras := by
  rw [Node.extras_root, (hl.textTree_grown depth text).extras, hl.ruleTree_extras,
    List.nil_append]

theorem start_lt_stop_of_isExtra (hl : l.Loadable) (hextra : n.isExtra = true) :
    n.start < n.stop := by
  have hmem : n.token ∈ (l.lexer.tokenize text).extras := by
    rw [← hl.extras_listed depth text]
    exact List.mem_map_of_mem
      (List.mem_filter.mpr ⟨Node.mem_descendants.mpr n.root_below, hextra⟩)
  have hlt := ((hl.separated text).extras _ hmem).lt
  rwa [Node.start_token, Node.stop_token] at hlt

theorem childCount_of_isExtra (hl : l.Loadable) (hextra : n.isExtra = true) :
    n.childCount = 0 := by
  rw [n.isExtra_eq] at hextra
  rw [n.childCount_eq, hl.textTree_extrasBare depth text _ n.subtree_within hextra]
  rfl

theorem isExtra_root (hl : l.Loadable) (depth : Nat) (text : String) :
    (Tree.ofSubtree l (l.textTree depth text) text.toList).root.isExtra = false := by
  have hkept := congrArg Subtree.extra (hl.textTree_withoutExtras depth text)
  rw [Subtree.extra_withoutExtras] at hkept
  rw [Node.isExtra_eq, Node.subtree_root, hkept]
  rfl

-- Two extras are leaves, and cannot stand over the same bytes.
theorem eq_of_token_eq (hl : l.Loadable) (hn : n.isExtra = true) (hm : m.isExtra = true)
    (htoken : m.token = n.token) : m = n := by
  have hstart : m.start = n.start := by rw [← m.start_token, htoken, n.start_token]
  have hstop : m.stop = n.stop := by rw [← m.stop_token, htoken, n.stop_token]
  have hspans : m.spans n.start n.stop = true :=
    Node.spans_iff.mpr ⟨Nat.le_of_eq hstart, Nat.le_of_eq hstop.symm⟩
  have hbelow := Node.below_leaf (hl.tree_nested depth text) (hl.start_lt_stop_of_isExtra hn)
    (hl.childCount_of_isExtra hn) hspans
  exact (hbelow.eq_of_leaf (hl.childCount_of_isExtra hm)).symm

theorem holdsExtras (hl : l.Loadable) (depth : Nat) (text : String) :
    (Tree.ofSubtree l (l.textTree depth text) text.toList).HoldsExtras
      (l.lexer.tokenize text).extras where
  listed := hl.extras_listed depth text
  once e he := by
    rw [← hl.extras_listed depth text] at he
    obtain ⟨n, hn, rfl⟩ := List.mem_map.mp he
    have hextra := (List.mem_filter.mp hn).2
    exact ⟨n, ⟨hextra, rfl⟩, fun m ⟨hm, htoken⟩ => hl.eq_of_token_eq hextra hm htoken⟩
  leaf _ := hl.childCount_of_isExtra
  hangs _ hextra := Node.exists_hangsFrom (hl.tree_nested depth text)
    (fun _ => hl.childCount_of_isExtra) (hl.isExtra_root depth text) hextra
    (hl.start_lt_stop_of_isExtra hextra)

end Language.Loadable

/-- **Extras are attached where they belong.**  The tree of a text is the tree that the rules make
of its tokens with the extras added, each once: as a leaf below the deepest other node over its
bytes, between the children before it and those behind it.  Without the extras it is the tree that
the rules made. -/
theorem Parser.parse_attaches {l : Language} (hl : l.Loadable) (parser : Parser)
    (hparser : parser.language = some l) (text : String) :
    ∃ result, parser.parse text = some result ∧
      result.tree = Tree.ofSubtree l
        ((l.ruleTree parser.maxDepth text).insertExtras (l.lexer.tokenize text).extras)
        text.toList ∧
      ((l.ruleTree parser.maxDepth text).insertExtras
        (l.lexer.tokenize text).extras).withoutExtras = l.ruleTree parser.maxDepth text ∧
      result.tree.HoldsExtras (l.lexer.tokenize text).extras := by
  refine ⟨l.parse parser.maxDepth text, by rw [Parser.parse, hparser]; rfl, l.parse_tree _ _,
    hl.textTree_withoutExtras parser.maxDepth text, ?_⟩
  rw [l.parse_tree]
  exact hl.holdsExtras parser.maxDepth text

-- The comment stands between the sign and the second number of the sum.
theorem Parser.parse_attaches_sums :
    ∃ result,
      ({ language := some .sums, maxDepth := 8 } : Parser).parse "1+#a 2;@+3" = some result ∧
      result.tree = Tree.ofSubtree .sums
        ((Language.sums.ruleTree 8 "1+#a 2;@+3").insertExtras
          (Language.sums.lexer.tokenize "1+#a 2;@+3").extras) "1+#a 2;@+3".toList ∧
      ((Language.sums.ruleTree 8 "1+#a 2;@+3").insertExtras
        (Language.sums.lexer.tokenize "1+#a 2;@+3").extras).withoutExtras =
          Language.sums.ruleTree 8 "1+#a 2;@+3" ∧
      result.tree.HoldsExtras (Language.sums.lexer.tokenize "1+#a 2;@+3").extras :=
  parse_attaches Language.sums_loadable { language := some .sums, maxDepth := 8 } rfl "1+#a 2;@+3"

end GrammarKit
