import GrammarKit.Proofs.ParsedTree

/-!
# The kinds of nodes

Below the root there are errors, tokens of the text, and nodes for what the grammar has rules and
operators for.  Of the last ones all can be seen: a hidden symbol leaves its children in its place.
Tokens and the root are not asked whether they are hidden.
-/

namespace GrammarKit

/-! ## Every tree within a tree -/

namespace Subtree

variable {P : Symbol → Prop} {t : Subtree}

/-- Every tree within the tree has a symbol with the property. -/
def Every (P : Symbol → Prop) (t : Subtree) : Prop :=
  ∀ s : Subtree, s.Within t → P s.symbol

theorem every_iff : t.Every P ↔ P t.symbol ∧ ∀ c ∈ t.children, c.Every P := by
  constructor
  · exact fun h => ⟨h t .refl, fun c hc s hs => h s (.child hc hs)⟩
  · rintro ⟨ht, hc⟩ s (_ | ⟨hmem, hs⟩)
    · exact ht
    · exact hc _ hmem s hs

@[simp] theorem every_leaf {t : Token} : (leaf t).Every P ↔ P t.symbol := by
  rw [every_iff]
  exact and_iff_left (by simp [leaf])

-- Wherever a token is added, it is added among trees that stay as they are.
theorem every_insertExtra {e : Token} (he : P e.symbol) (h : ∀ c ∈ t.children, c.Every P) :
    ∀ c ∈ (t.insertExtra e).children, c.Every P := by
  induction t using induction with
  | node t ih =>
    obtain ⟨symbol, start, stop, children, extra⟩ := t
    simp only at h ih
    intro c hc
    rw [insertExtra] at hc
    cases hplace : insertEnclosed e children with
    | some children' =>
      obtain ⟨before, d, after, rfl, -, rfl⟩ := insertEnclosed_eq_some hplace
      simp only [hplace, Option.getD_some, List.mem_append, List.mem_cons] at hc
      obtain hc | rfl | hc := hc
      · exact h c (by simp [hc])
      · obtain ⟨hsymbol, hchildren⟩ := every_iff.mp (h d (by simp))
        refine every_iff.mpr ⟨?_, ih d (by simp) hchildren⟩
        cases d
        exact hsymbol
      · exact h c (by simp [hc])
    | none =>
      simp only [hplace, Option.getD_none, placeAmong, List.mem_append, List.mem_cons] at hc
      obtain hc | rfl | hc := hc
      · exact h c ((List.takeWhile_sublist _).mem hc)
      · exact every_iff.mpr ⟨he, by simp [extraLeaf, leaf]⟩
      · exact h c ((List.dropWhile_sublist _).mem hc)

theorem every_insertExtras {es : List Token} (hes : ∀ e ∈ es, P e.symbol)
    (h : ∀ c ∈ t.children, c.Every P) : ∀ c ∈ (t.insertExtras es).children, c.Every P := by
  induction es generalizing t with
  | nil => exact h
  | cons e es ih =>
    obtain ⟨he, hes⟩ := List.forall_mem_cons.mp hes
    exact ih hes (every_insertExtra he h)

end Subtree

/-! ## What stands below a root -/

/-- The property holds of all that nodes below the root of a tree are made for: errors, tokens, and
symbols that can be seen. -/
structure Language.Allows (l : Language) (P : Symbol → Prop) : Prop where
  error : P errorSymbol
  token : ∀ s, l.artifact.isToken s = true → P s
  visible : ∀ s, s < l.kindCount → l.isVisible s = true → P s

variable {l : Language} {input : Input} {p q : Nat} {ts : List Subtree} {P : Symbol → Prop}

theorem Derives.every (hl : l.Loadable) (hP : l.Allows P) {c : Constituent}
    (h : Derives l input c p q ts) (hc : c.InGrammar l) : ∀ t ∈ ts, t.Every P := by
  refine Derives.forest hl (Q := fun ts => ∀ t ∈ ts, t.Every P) (by simp) ?_ ?_ ?_ h hc
  · intro ts us hts hus t ht
    obtain ht | ht := List.mem_append.mp ht
    · exact hts t ht
    · exact hus t ht
  · intro t ht d hd
    obtain rfl := List.mem_singleton.mp hd
    exact Subtree.every_leaf.mpr (hP.token _ ht)
  · intro s ts place hs hvisible hts d hd
    obtain rfl := List.mem_singleton.mp hd
    exact Subtree.every_iff.mpr ⟨hP.visible s hs hvisible, hts⟩

theorem Assembled.every (hl : l.Loadable) (hP : l.Allows P)
    (htokens : ∀ t ∈ input.tokens, t.isError = false → l.artifact.isToken t.symbol = true)
    (h : Assembled l input p ts) : ∀ t ∈ ts, t.Every P := by
  induction h with
  | nil => simp
  | matched _ hd ih =>
    intro t ht
    obtain ht | ht := List.mem_append.mp ht
    · exact ih t ht
    · exact hd.every hl hP trivial t ht
  | skipped _ he ih =>
    intro t ht
    obtain ht | ht := List.mem_append.mp ht
    · exact ih t ht
    · obtain rfl := List.mem_singleton.mp ht
      refine Subtree.every_iff.mpr ⟨he.symbol ▸ hP.error, fun d hd => ?_⟩
      have htoken := he.isToken_of_mem_children htokens d hd
      rw [he.children] at hd
      obtain ⟨t, -, rfl⟩ := List.mem_map.mp hd
      exact Subtree.every_leaf.mpr (hP.token _ htoken)

theorem Language.Loadable.symbol_textTree (hl : l.Loadable) (depth : Nat) (text : String) :
    (l.textTree depth text).symbol = l.artifact.root :=
  congrArg Token.symbol (hl.textTree_grown depth text).asToken

theorem Language.Loadable.textTree_every (hl : l.Loadable) (hP : l.Allows P) (depth : Nat)
    (text : String) : ∀ c ∈ (l.textTree depth text).children, c.Every P := by
  apply Subtree.every_insertExtras
  · intro e he
    exact hP.token _ ((hl.tokensOf.tokenize_inGrammar text).extras e he)
  · exact (l.ruleTree_assembled depth text).every hl hP (hl.isToken_of_mem_tokens text)

/-! ## What can be seen -/

theorem Language.allows_visible (l : Language) :
    l.Allows fun s => l.isVisible s = true ∨ l.artifact.isToken s = true where
  error := .inl rfl
  token _ hs := .inr hs
  visible _ _ hs := .inl hs

theorem Language.Loadable.symbol_root (hl : l.Loadable) (depth : Nat) (text : String) :
    (l.parse depth text).tree.root.symbol = l.artifact.root := by
  rw [parse_tree, Node.symbol_eq, Node.subtree_root, hl.symbol_textTree]

theorem Language.Loadable.isVisible_or_isToken (hl : l.Loadable) (depth : Nat) (text : String)
    (n : Node (l.parse depth text).tree) :
    n = (l.parse depth text).tree.root ∨ l.isVisible n.symbol = true ∨
      l.artifact.isToken n.symbol = true := by
  revert n
  rw [parse_tree]
  intro n
  refine n.eq_root_or_within_child.imp_right fun ⟨c, hc, hwithin⟩ => ?_
  rw [n.symbol_eq]
  exact hl.textTree_every l.allows_visible depth text c hc _ hwithin

/-- **What is hidden becomes a node only as the root or as a token.**  Every other node of a tree is
an error or has a kind that can be seen.  So all of the nodes can be seen if the root and the tokens
of the language can. -/
theorem Parser.parse_visible (hl : l.Loadable) (parser : Parser)
    (hparser : parser.language = some l) (text : String) :
    ∃ result, parser.parse text = some result ∧ result.tree.root.symbol = l.artifact.root ∧
      (∀ n : Node result.tree, n ≠ result.tree.root → l.artifact.isToken n.symbol = false →
        l.isVisible n.symbol = true) ∧
      (l.isVisible l.artifact.root = true →
        (∀ s, l.artifact.isToken s = true → l.isVisible s = true) →
        ∀ n : Node result.tree, l.isVisible n.symbol = true) := by
  have hroot := hl.symbol_root parser.maxDepth text
  refine ⟨l.parse parser.maxDepth text, by simp [parse, hparser], hroot, ?_, ?_⟩
  · intro n hn htoken
    rcases hl.isVisible_or_isToken parser.maxDepth text n with h | h | h
    · exact absurd h hn
    · exact h
    · rw [htoken] at h
      cases h
  · intro hvisible htokens n
    rcases hl.isVisible_or_isToken parser.maxDepth text n with h | h | h
    · rw [h]
      exact hroot ▸ hvisible
    · exact h
    · exact htokens _ h

-- The one hidden symbol of the sums is neither the root nor a token.
theorem Parser.parse_visible_sums :
    ∃ result, ({ language := some .sums, maxDepth := 8 } : Parser).parse "1+#a 2;@+3" =
        some result ∧
      result.tree.root.symbol = 5 ∧
      ∀ n : Node result.tree, Language.sums.isVisible n.symbol = true := by
  have htokens (s : Symbol) (hs : Language.sums.artifact.isToken s = true) :
      Language.sums.isVisible s = true := by
    have hall : ∀ s : Fin 9, Language.sums.artifact.isToken s = true →
        Language.sums.isVisible s = true := by decide
    exact hall ⟨s, Language.lt_kindCount_of_isToken hs⟩ hs
  obtain ⟨result, hresult, hroot, -, hvisible⟩ := parse_visible Language.sums_loadable
    { language := some .sums, maxDepth := 8 } rfl "1+#a 2;@+3"
  exact ⟨result, hresult, hroot, hvisible (by decide) htokens⟩

/-- A token that is hidden, and a rule for it. -/
def Artifact.veil : Artifact :=
  { version := 1
    name := "veil"
    symbols :=
      #[.endOfInput, { SymbolInfo.pattern "_a" "a" with hidden := true }, .rule "r" (.symbol 1)]
    root := 2
    extras := []
    recovery := [] }

/-- The language of the hidden token. -/
def Language.veil : Language :=
  (ofArtifact Pattern.compile .veil 0).toOption.get rfl

-- The token has a node below the root although it is hidden.
theorem Parser.exists_hidden_node :
    Language.veil.Loadable ∧ ∃ result,
      ({ language := some .veil } : Parser).parse "a" = some result ∧
      ∃ n ∈ result.tree.root.children, Language.veil.isVisible n.symbol = false ∧
        result.tree.root.toSexp = "(r (_a))" :=
  ⟨⟨Pattern.compile, .veil, 0, rfl⟩, _, rfl, ⟨⟨1, by decide⟩⟩, by decide, by decide, by decide⟩

end GrammarKit
