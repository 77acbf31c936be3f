import GrammarKit.Parser
import GrammarKit.Proofs.Extras
import GrammarKit.Proofs.Flattening

/-!
# Parsed trees

What holds of the tree of a text, whatever the text, the language and the limit on nesting.
-/

namespace GrammarKit

/-! ## The bytes at which trees start and stop -/

/-- The byte stands between two characters, and not inside one of the tokens. -/
def Text.IsFree (text : List Char) (tokens : List Token) (byte : Nat) : Prop :=
  IsBoundary text byte ∧ ∀ t ∈ tokens, byte ≤ t.start ∨ t.stop ≤ byte

-- What the rules see of tokens that stand side by side is ordered, and nothing of it stands inside
-- an extra.
theorem Lexed.Separated.ordered {x : Lexed} {text : List Char} {last : Nat}
    (h : x.Separated (Text.IsBoundary text) 0 last) (hlast : Text.IsBoundary text last) :
    Input.Ordered (Text.IsFree text x.extras) ⟨x.tokens.toArray, last⟩ where
  bounds := by
    intro t ht
    have ht : t ∈ x.tokens := by simpa using ht
    have hb := h.tokens t ht
    have hlt := hb.lt
    refine ⟨⟨hb.start, fun e he => ?_⟩, ⟨hb.stop, fun e he => ?_⟩, Nat.le_of_lt hlt⟩
    · rcases h.apart t ht e he with hapart | hapart
      · exact .inl (by omega)
      · exact .inr hapart
    · rcases h.apart t ht e he with hapart | hapart
      · exact .inl hapart
      · exact .inr (by omega)
  next := by
    intro p t ht
    have ht : x.tokens[p]? = some t := by simpa using ht
    obtain ⟨hp, rfl⟩ := List.getElem?_eq_some_iff.mp ht
    cases hu : x.tokens[p + 1]? with
    | none => simpa [Input.offset, hu] using (h.tokens _ (List.getElem_mem hp)).le_last
    | some u =>
      obtain ⟨hq, rfl⟩ := List.getElem?_eq_some_iff.mp hu
      have := List.pairwise_iff_getElem.mp h.tokensInOrder p (p + 1) hp hq (Nat.lt_succ_self p)
      simpa [Input.offset, hu] using this
  length := ⟨hlast, fun e he => .inr (h.extras e he).le_last⟩

-- The ends of an extra stand inside no other one.
theorem Lexed.Separated.isFree {x : Lexed} {text : List Char} {last : Nat}
    (h : x.Separated (Text.IsBoundary text) 0 last) {e : Token} (he : e ∈ x.extras) :
    e.Between (Text.IsFree text x.extras) 0 last := by
  have hb := h.extras e he
  have hlt := hb.lt
  have hother (f : Token) (hf : f ∈ x.extras) : e = f ∨ e.stop ≤ f.start ∨ f.stop ≤ e.start := by
    obtain ⟨i, hi, rfl⟩ := List.getElem_of_mem he
    obtain ⟨j, hj, rfl⟩ := List.getElem_of_mem hf
    have horder := List.pairwise_iff_getElem.mp h.extrasInOrder
    -- two extras are at different places of the list, or one and the same
    rcases Nat.lt_trichotomy i j with hij | rfl | hij
    · exact .inr (.inl (horder i j hi hj hij))
    · exact .inl rfl
    · exact .inr (.inr (horder j i hj hi hij))
  refine ⟨hb.first_le, hlt, hb.le_last, ⟨hb.start, fun f hf => ?_⟩, ⟨hb.stop, fun f hf => ?_⟩⟩
  · rcases hother f hf with rfl | hapart | hapart <;> omega
  · rcases hother f hf with rfl | hapart | hapart <;> omega

namespace Language

/-- The tokens of a text that the rules see. -/
def inputOf (l : Language) (text : String) : Input :=
  { tokens := (l.lexer.tokenize text).tokens.toArray, length := text.utf8ByteSize }

/-- The tree of a text before the tokens that may stand anywhere are added. -/
def ruleTree (l : Language) (depth : Nat) (text : String) : Subtree :=
  (l.parseRoot (l.inputOf text) depth).1

/-- The tree of a text. -/
def textTree (l : Language) (depth : Nat) (text : String) : Subtree :=
  (l.ruleTree depth text).insertExtras (l.lexer.tokenize text).extras

theorem ruleTree_assembled (l : Language) (depth : Nat) (text : String) :
    Assembled l (l.inputOf text) (l.inputOf text).size (l.ruleTree depth text).children :=
  l.parseRoot_assembled (l.inputOf text) depth

theorem parse_tree (l : Language) (depth : Nat) (text : String) :
    (l.parse depth text).tree = Tree.ofSubtree l (l.textTree depth text) text.toList := rfl

end Language

namespace Language.Loadable

variable {l : Language}

theorem separated (hl : l.Loadable) (text : String) :
    (l.lexer.tokenize text).Separated (Text.IsBoundary text.toList) 0 text.utf8ByteSize :=
  hl.tokensOf.tokenize_separated text

theorem ordered (hl : l.Loadable) (text : String) :
    (l.inputOf text).Ordered (Text.IsFree text.toList (l.lexer.tokenize text).extras) :=
  (hl.separated text).ordered (Text.isBoundary_utf8ByteSize text)

theorem isToken_of_mem_tokens (hl : l.Loadable) (text : String) :
    ∀ t ∈ (l.inputOf text).tokens, t.isError = false → l.artifact.isToken t.symbol = true := by
  intro t ht
  exact (hl.tokensOf.tokenize_inGrammar text).tokens t (by simpa [inputOf] using ht)

theorem ruleTree_wellNested (hl : l.Loadable) (depth : Nat) (text : String) :
    (l.ruleTree depth text).WellNested (Text.IsFree text.toList (l.lexer.tokenize text).extras) :=
  l.parseRoot_wellNested (hl.ordered text)
    ⟨Text.isBoundary_zero _, fun _ _ => .inl (Nat.zero_le _)⟩ depth

theorem ruleTree_leaves (hl : l.Loadable) (depth : Nat) (text : String) :
    Subtree.leaves l [l.ruleTree depth text] =
      (l.lexer.tokenize text).tokens.filter (!·.isError) := by
  have hroot : Subtree.isTokenLeaf l (l.ruleTree depth text) = false := by
    have := hl.isToken_root
    simp [Subtree.isTokenLeaf, ruleTree, parseRoot, this]
  rw [Subtree.leaves_of_not_leaf hroot,
    (l.ruleTree_assembled depth text).leaves_eq hl (hl.isToken_of_mem_tokens text),
    Input.between_size]
  rfl

theorem ruleTree_extras (hl : l.Loadable) (depth : Nat) (text : String) :
    Subtree.extrasIn [l.ruleTree depth text] = [] := by
  rw [Subtree.extrasIn_singleton, (l.ruleTree_assembled depth text).extrasIn_eq_nil hl]
  rfl

theorem ruleTree_errorsOnTop (hl : l.Loadable) (depth : Nat) (text : String) :
    (l.ruleTree depth text).ErrorsOnTop := by
  intro c hc
  rcases (l.ruleTree_assembled depth text).skips_or_clean hl c hc with ⟨p, q, hskips⟩ | hclean
  · exact hskips.anyError_eq_false
  · exact (Subtree.hasError_eq_false_iff.mp hclean).2

-- The extras of a text can be added to the tree that the rules make of it.
theorem ruleTree_admits (hl : l.Loadable) (depth : Nat) (text : String) :
    ∀ e ∈ (l.lexer.tokenize text).extras, (l.ruleTree depth text).Admits l
      (Text.IsFree text.toList (l.lexer.tokenize text).extras) e := by
  intro e he
  have hsep := hl.separated text
  have hgrammar := hl.tokensOf.tokenize_inGrammar text
  refine ⟨hl.ruleTree_wellNested depth text, hsep.isFree he, fun b hb => hb.2 e he,
    hl.ne_errorSymbol_of_isToken (hgrammar.extras e he), ?_, ?_⟩
  · intro t ht
    rw [hl.ruleTree_leaves] at ht
    exact hsep.apart t (List.mem_filter.mp ht).1 e he
  · rw [hl.ruleTree_extras]
    simp

-- Adding its extras to the tree of a text changes nothing else.
theorem textTree_grown (hl : l.Loadable) (depth : Nat) (text : String) :
    Subtree.Grown l (Text.IsFree text.toList (l.lexer.tokenize text).extras)
      (l.ruleTree depth text) (l.lexer.tokenize text).extras (l.textTree depth text) :=
  Subtree.insertExtras_grown (hl.ruleTree_wellNested depth text) (hl.ruleTree_admits depth text)
    (hl.separated text).extrasInOrder

end Language.Loadable

/-! ## Derivations -/

/-- The tree is what the grammar allows for the input: derivations from the rule of the root and
error nodes over skipped tokens stand below it, and no errors stand within those. -/
structure Subtree.Derived (l : Language) (input : Input) (root : Subtree) : Prop where
  symbol : root.symbol = l.artifact.root
  rule : l.artifact.definition? root.symbol = some (.rule l.rootRule)
  assembled : Assembled l input input.size root.children
  errors : ∀ c ∈ root.children, c.isError = true → ∃ p q, c.Skips input p q ∧
    ∀ d ∈ c.children, l.artifact.isToken d.symbol = true
  errorsOnTop : root.ErrorsOnTop

/-- **Every tree is derived.**  The tree of a text is the tree that the rules make of its tokens,
with the extras added, and the grammar allows that tree, whether or not symbols were given up
because they were nested too deeply. -/
theorem Parser.parse_derived {l : Language} (hl : l.Loadable) (parser : Parser)
    (hparser : parser.language = some l) (text : String) :
    ∃ result, parser.parse text = some result ∧
      result.tree = Tree.ofSubtree l
        ((l.ruleTree parser.maxDepth text).insertExtras (l.lexer.tokenize text).extras)
        text.toList ∧
      (l.ruleTree parser.maxDepth text).Derived l (l.inputOf text) := by
  refine ⟨l.parse parser.maxDepth text, by rw [Parser.parse, hparser]; rfl, l.parse_tree _ _, ?_⟩
  have hassembled := l.ruleTree_assembled parser.maxDepth text
  refine ⟨rfl, hl.definition?_root, hassembled, ?_, hl.ruleTree_errorsOnTop parser.maxDepth text⟩
  intro c hc herror
  rcases hassembled.skips_or_clean hl c hc with ⟨p, q, hskips⟩ | hclean
  · exact ⟨p, q, hskips, hskips.isToken_of_mem_children (hl.isToken_of_mem_tokens text)⟩
  · rw [(Subtree.hasError_eq_false_iff.mp hclean).1] at herror
    cases herror

theorem Parser.parse_derived_sums :
    ∃ result,
      ({ language := some .sums, maxDepth := 8 } : Parser).parse "1+#a 2;@+3" = some result ∧
      result.tree = Tree.ofSubtree .sums
        ((Language.sums.ruleTree 8 "1+#a 2;@+3").insertExtras
          (Language.sums.lexer.tokenize "1+#a 2;@+3").extras) "1+#a 2;@+3".toList ∧
      (Language.sums.ruleTree 8 "1+#a 2;@+3").Derived .sums (Language.sums.inputOf "1+#a 2;@+3") :=
  parse_derived Language.sums_loadable { language := some .sums, maxDepth := 8 } rfl "1+#a 2;@+3"

/-! ## Nesting -/

/-- The nodes of a tree over a text nest: the root spans the text, every node starts and stops
between characters, and the children of a node stand within it, one after the other. -/
structure Tree.Nested (tree : Tree) (text : String) : Prop where
  root : tree.root.start = 0 ∧ tree.root.stop = text.utf8ByteSize
  ends : ∀ n : Node tree, n.start ≤ n.stop ∧ Text.IsBoundary text.toList n.start ∧
    Text.IsBoundary text.toList n.stop
  children : ∀ n : Node tree, n.children.length = n.childCount
  within : ∀ n : Node tree, ∀ c ∈ n.children, n.start ≤ c.start ∧ c.stop ≤ n.stop
  inOrder : ∀ n : Node tree, n.children.Pairwise fun c d => c.stop ≤ d.start

-- The nodes made of a well-nested tree nest.
theorem Tree.nested_ofSubtree {l : Language} {t : Subtree} {text : String} {bound : Nat → Prop}
    (hw : t.WellNested bound) (hbound : ∀ b, bound b → Text.IsBoundary text.toList b)
    (hstart : t.start = 0) (hstop : t.stop = text.utf8ByteSize) :
    (Tree.ofSubtree l t text.toList).Nested text := by
  have hnode (n : Node (Tree.ofSubtree l t text.toList)) := hw.of_within n.subtree_within
  constructor
  · simp [Node.subtree_root, hstart, hstop]
  · intro n
    obtain ⟨hbstart, hbstop, hle⟩ := (hnode n).bounds
    rw [n.start_eq, n.stop_eq]
    exact ⟨hle, hbound _ hbstart, hbound _ hbstop⟩
  · intro n
    rw [n.childCount_eq, ← n.children_map_subtree, List.length_map]
  · intro n c hc
    cases hnode n with
    | intro _ _ hin _ =>
      obtain ⟨hstart, -, hstop⟩ := hin.mem (n.subtree_mem_children hc)
      rw [n.start_eq, n.stop_eq, c.start_eq, c.stop_eq]
      exact ⟨hstart, hstop⟩
  · intro n
    cases hnode n with
    | intro _ _ hin _ =>
      have hpairs := hin.pairwise
      rw [← n.children_map_subtree, List.pairwise_map] at hpairs
      simpa using hpairs

/-- **Every tree is well nested.** -/
theorem Parser.parse_nested {l : Language} (hl : l.Loadable) (parser : Parser)
    (hparser : parser.language = some l) (text : String) :
    ∃ result, parser.parse text = some result ∧ result.tree.Nested text := by
  refine ⟨l.parse parser.maxDepth text, by rw [Parser.parse, hparser]; rfl, ?_⟩
  have hgrown := hl.textTree_grown parser.maxDepth text
  rw [l.parse_tree]
  refine Tree.nested_ofSubtree hgrown.wellNested (fun b hb => hb.1) ?_ ?_
  · exact congrArg Token.start hgrown.asToken
  · exact congrArg Token.stop hgrown.asToken

theorem Parser.parse_nested_sums :
    ∃ result,
      ({ language := some .sums, maxDepth := 8 } : Parser).parse "1+#a 2;@+3" = some result ∧
      result.tree.Nested "1+#a 2;@+3" :=
  parse_nested Language.sums_loadable { language := some .sums, maxDepth := 8 } rfl "1+#a 2;@+3"

/-! ## Tokens -/

namespace Node

variable {tree : Tree}

/-- The bytes of a node with its symbol, as a token. -/
def token (n : Node tree) : Token :=
  ⟨n.symbol, n.start, n.stop⟩

/-- Whether the node stands for a token that the rules were given. -/
def isTokenLeaf (n : Node tree) : Bool :=
  n.childCount == 0 && !n.isExtra && tree.language.artifact.isToken n.symbol

variable {l : Language} {t : Subtree} {text : List Char}

theorem token_eq (n : Node (Tree.ofSubtree l t text)) : n.token = n.subtree.asToken := by
  simp [token, Subtree.asToken]

theorem isTokenLeaf_eq (n : Node (Tree.ofSubtree l t text)) :
    n.isTokenLeaf = n.subtree.isTokenLeaf l := by
  have hempty : (n.childCount == 0) = n.subtree.children.isEmpty := by
    rw [childCount_eq]
    cases n.subtree.children <;> rfl
  rw [isTokenLeaf, hempty, isExtra_eq, symbol_eq]
  rfl

theorem filter_map_token {P : Node (Tree.ofSubtree l t text) → Bool} {Q : Subtree → Bool}
    (hPQ : ∀ n, P n = Q n.subtree) (ns : List (Node (Tree.ofSubtree l t text))) :
    (ns.filter P).map token = ((ns.map subtree).filter Q).map Subtree.asToken := by
  induction ns with
  | nil => rfl
  | cons n ns ih => cases hQ : Q n.subtree <;> simp [hPQ, hQ, token_eq, ih]

theorem leaves_root :
    ((Tree.ofSubtree l t text).root.descendants.filter (·.isTokenLeaf)).map token =
      Subtree.leaves l [t] := by
  rw [filter_map_token isTokenLeaf_eq, descendants_map_subtree, subtree_root]
  simp [Subtree.leaves, Subtree.preorderAll]

theorem extras_root :
    ((Tree.ofSubtree l t text).root.descendants.filter (·.isExtra)).map token =
      Subtree.extrasIn [t] := by
  rw [filter_map_token isExtra_eq, descendants_map_subtree, subtree_root]
  simp [Subtree.extrasIn, Subtree.preorderAll]

theorem proper_children (n : Node (Tree.ofSubtree l t text)) :
    (n.children.filter (!·.isExtra)).map token = n.subtree.proper.map Subtree.asToken := by
  rw [filter_map_token (Q := (!·.extra)) (by simp), children_map_subtree]
  rfl

theorem exists_child_root (l : Language) (text : List Char) {c : Subtree} (hc : c ∈ t.children) :
    ∃ n ∈ (Tree.ofSubtree l t text).root.children, n.subtree = c := by
  have hroot := children_map_subtree (Tree.ofSubtree l t text).root
  rw [subtree_root] at hroot
  exact List.mem_map.mp (hroot ▸ hc)

end Node

/-- The nodes of a tree account for the tokens of a text, each exactly once: those that the rules
were given are its leaves, those that may stand anywhere are its extras, and those that no symbol
accounts for lie within error nodes and have no node. -/
structure Tree.Accounts (tree : Tree) (x : Lexed) : Prop where
  leaves : (tree.root.descendants.filter (·.isTokenLeaf)).map (·.token) =
    x.tokens.filter (!·.isError)
  extras : (tree.root.descendants.filter (·.isExtra)).map (·.token) = x.extras
  unknown : ∀ t ∈ x.tokens, t.isError = true →
    ∃ n ∈ tree.root.children, n.isError = true ∧ n.start ≤ t.start ∧ t.stop ≤ n.stop
  /-- An error node stands right below the root.  It takes tokens that follow each other, and those
  with a symbol are its children. -/
  errors : ∀ p : Node tree, ∀ c ∈ p.children, c.isError = true →
    p = tree.root ∧ ∃ skipped, skipped <:+: x.tokens ∧
      skipped.head?.map (·.start) = some c.start ∧ skipped.getLast?.map (·.stop) = some c.stop ∧
      (c.children.filter (!·.isExtra)).map (·.token) = skipped.filter (!·.isError)
  root : tree.root.isError = false

namespace Subtree

-- Within a tree that has no errors below it nothing has.
theorem Within.anyError_eq_false {s t : Subtree} (hs : s.Within t)
    (ht : anyError t.children = false) : anyError s.children = false := by
  induction hs with
  | refl => exact ht
  | child hc _ ih => exact ih (hasError_eq_false_iff.mp (hasError_eq_false_of_mem ht hc)).2

-- An error node takes tokens that follow each other, and those with a symbol are its children.
theorem Skips.exists_run {input : Input} {p q : Nat} {e : Subtree} (h : e.Skips input p q) :
    ∃ skipped, skipped <:+: input.tokens.toList ∧
      skipped.head?.map (·.start) = some e.start ∧ skipped.getLast?.map (·.stop) = some e.stop ∧
      e.proper.map asToken = skipped.filter (!·.isError) := by
  have hleaves (tokens : List Token) :
      ((tokens.map leaf).filter (!·.extra)).map asToken = tokens := by
    induction tokens with
    | nil => rfl
    | cons t tokens ih => simp [leaf, asToken, ih]
  obtain ⟨first, hfirst⟩ := input.exists_getElem? (Nat.lt_of_lt_of_le h.lt h.le)
  obtain ⟨last, hlast, hstop⟩ := Option.map_eq_some_iff.mp h.stop
  refine ⟨input.between p q, input.between_infix p q, ?_, ?_, ?_⟩
  · rw [Input.head?_between hfirst h.lt, h.start, Input.offset_eq hfirst]
    rfl
  · rw [Input.getLast?_between hlast h.lt, ← hstop]
    rfl
  · rw [proper, h.children, hleaves]

end Subtree

namespace Language.Loadable

variable {l : Language}

-- A token that no symbol accounts for lies within an error node below the root.
theorem unknown_enclosed (hl : l.Loadable) (depth : Nat) (text : String) {t : Token}
    (ht : t ∈ (l.lexer.tokenize text).tokens) (herror : t.isError = true) :
    ∃ c ∈ (l.textTree depth text).children,
      c.isError = true ∧ c.start ≤ t.start ∧ t.stop ≤ c.stop := by
  have hassembled := l.ruleTree_assembled depth text
  obtain ⟨k, hk⟩ := List.getElem?_of_mem ht
  have hget : (l.inputOf text).tokens[k]? = some t := by simpa [inputOf] using hk
  obtain ⟨e, he, p, q, hskips, hp, hq⟩ :=
    hassembled.exists_skips hl (Input.lt_size_of_getElem? hget) hget herror
  -- the error node is still there when the extras were added
  have hmem : e ∈ (l.ruleTree depth text).proper :=
    List.mem_filter.mpr ⟨he, by simp [hskips.extra]⟩
  have houtline := List.mem_map_of_mem (f := Subtree.outline) hmem
  rw [← (hl.textTree_grown depth text).outlines] at houtline
  obtain ⟨c, hc, hce⟩ := List.mem_map.mp houtline
  have htoken : c.asToken = e.asToken := congrArg (·.1) hce
  have hin := hskips.encloses (hl.ordered text) hp hq hget
  refine ⟨c, (List.mem_filter.mp hc).1, ?_, ?_, ?_⟩
  · have hsymbol : c.symbol = e.symbol := congrArg Token.symbol htoken
    rw [Subtree.isError, hsymbol]
    exact hskips.isError
  · exact Nat.le_trans (Nat.le_of_eq (congrArg Token.start htoken)) hin.1
  · exact Nat.le_trans hin.2 (Nat.le_of_eq (congrArg Token.stop htoken).symm)

-- An error node below the root looks like one over tokens that were skipped.
theorem error_skips (hl : l.Loadable) (depth : Nat) (text : String) {c : Subtree}
    (hc : c ∈ (l.textTree depth text).children) (herror : c.isError = true) :
    ∃ (e : Subtree) (p q : Nat), e.Skips (l.inputOf text) p q ∧ e.outline = c.outline := by
  have hgrown := hl.textTree_grown depth text
  -- extras are tokens of the grammar, so that the error is none of them
  have hextra : c.extra = false := by
    cases hextra : c.extra
    · rfl
    · have hmem := Subtree.mem_extrasIn (.child hc .refl) hextra
      rw [hgrown.extras, hl.ruleTree_extras, List.nil_append] at hmem
      have htoken := (hl.tokensOf.tokenize_inGrammar text).extras _ hmem
      exact absurd (beq_iff_eq.mp herror) (hl.ne_errorSymbol_of_isToken htoken)
  have hproper : c ∈ (l.textTree depth text).proper := List.mem_filter.mpr ⟨hc, by simp [hextra]⟩
  have houtline := List.mem_map_of_mem (f := Subtree.outline) hproper
  rw [hgrown.outlines] at houtline
  obtain ⟨e, he, hec⟩ := List.mem_map.mp houtline
  have hsymbol : e.symbol = c.symbol := congrArg (·.1.symbol) hec
  have herror : e.isError = true := by rwa [Subtree.isError, hsymbol]
  rcases (l.ruleTree_assembled depth text).skips_or_clean hl e (List.mem_filter.mp he).1 with
    ⟨p, q, hskips⟩ | hclean
  · exact ⟨e, p, q, hskips, hec⟩
  · rw [(Subtree.hasError_eq_false_iff.mp hclean).1] at herror
    cases herror

end Language.Loadable

/-- **No token is lost or doubled.** -/
theorem Parser.parse_accounts {l : Language} (hl : l.Loadable) (parser : Parser)
    (hparser : parser.language = some l) (text : String) :
    ∃ result, parser.parse text = some result ∧ result.tree.Accounts (l.lexer.tokenize text) := by
  refine ⟨l.parse parser.maxDepth text, by rw [Parser.parse, hparser]; rfl, ?_⟩
  have hgrown := hl.textTree_grown parser.maxDepth text
  have htop := hgrown.errors (hl.ruleTree_errorsOnTop parser.maxDepth text)
  rw [l.parse_tree]
  constructor
  · rw [Node.leaves_root, hgrown.leaves, hl.ruleTree_leaves]
  · rw [Node.extras_root, hgrown.extras, hl.ruleTree_extras, List.nil_append]
  · intro t ht herror
    obtain ⟨c, hc, hin⟩ := hl.unknown_enclosed parser.maxDepth text ht herror
    obtain ⟨n, hn, rfl⟩ := Node.exists_child_root l text.toList hc
    exact ⟨n, hn, by simpa using hin⟩
  · intro p c hc herror
    have hchild := p.subtree_mem_children hc
    rw [c.isError_eq] at herror
    -- below the children of the root there are no errors
    have hp : p = (Tree.ofSubtree l (l.textTree parser.maxDepth text) text.toList).root := by
      refine p.eq_root_or_within_child.resolve_right fun ⟨d, hd, hwithin⟩ => ?_
      have hclean := Subtree.hasError_eq_false_of_mem (hwithin.anyError_eq_false (htop d hd)) hchild
      rw [(Subtree.hasError_eq_false_iff.mp hclean).1] at herror
      cases herror
    refine ⟨hp, ?_⟩
    rw [hp, Node.subtree_root] at hchild
    obtain ⟨e, first, next, hskips, hec⟩ := hl.error_skips parser.maxDepth text hchild herror
    obtain ⟨skipped, hrun, hhead, hlast, hproper⟩ := hskips.exists_run
    have hstart : e.start = c.start := by rw [c.start_eq]; exact congrArg (·.1.start) hec
    have hstop : e.stop = c.stop := by rw [c.stop_eq]; exact congrArg (·.1.stop) hec
    refine ⟨skipped, hrun, hstart ▸ hhead, hstop ▸ hlast, ?_⟩
    rw [c.proper_children, ← hproper]
    exact congrArg (·.2) hec.symm
  · rw [Node.isError_eq, Node.subtree_root]
    have hsymbol : (l.textTree parser.maxDepth text).symbol = l.artifact.root :=
      congrArg Token.symbol hgrown.asToken
    simpa [Subtree.isError, hsymbol] using hl.root_ne_errorSymbol

theorem Parser.parse_accounts_sums :
    ∃ result,
      ({ language := some .sums, maxDepth := 8 } : Parser).parse "1+#a 2;@+3" = some result ∧
      result.tree.Accounts (Language.sums.lexer.tokenize "1+#a 2;@+3") :=
  parse_accounts Language.sums_loadable { language := some .sums, maxDepth := 8 } rfl "1+#a 2;@+3"

end GrammarKit
