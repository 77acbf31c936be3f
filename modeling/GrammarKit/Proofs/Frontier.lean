import GrammarKit.Proofs.Nesting
import GrammarKit.Proofs.Walk

/-!
# The frontier of a tree

The leaves that stand for tokens, read from left to right, are the tokens that were parsed.
-/

namespace GrammarKit

namespace Subtree

/-- Whether a tree stands for a token that the rules were given. -/
def isTokenLeaf (l : Language) (t : Subtree) : Bool :=
  t.children.isEmpty && !t.extra && l.artifact.isToken t.symbol

/-- The tokens that the leaves within trees stand for, from left to right. -/
def leaves (l : Language) (ts : List Subtree) : List Token :=
  ((preorderAll ts).filter (isTokenLeaf l)).map asToken

variable {l : Language} {t : Token} {s : Symbol} {ts us : List Subtree}

@[simp] theorem leaves_nil : leaves l [] = [] := rfl

@[simp] theorem leaves_append : leaves l (ts ++ us) = leaves l ts ++ leaves l us := by
  simp [leaves]

theorem leaves_cons (t : Subtree) (ts : List Subtree) :
    leaves l (t :: ts) = leaves l [t] ++ leaves l ts := by
  rw [← leaves_append, List.singleton_append]

theorem leaves_leaf (ht : l.artifact.isToken t.symbol = true) : leaves l [leaf t] = [t] := by
  have hleaf : isTokenLeaf l (leaf t) = true := by simpa [isTokenLeaf, leaf] using ht
  simp [leaves, preorderAll, preorder_eq, hleaf, show (leaf t).children = [] from rfl]

-- What is above other trees, or no token, is no leaf for a token.
theorem leaves_of_not_leaf {t : Subtree} (h : isTokenLeaf l t = false) :
    leaves l [t] = leaves l t.children := by
  simp [leaves, preorderAll, preorder_eq, h]

theorem leaves_node {place : Nat} (h : ts ≠ [] ∨ l.artifact.isToken s = false) :
    leaves l [node s ts place] = leaves l ts := by
  refine leaves_of_not_leaf ?_
  rcases h with h | h
  · cases ts with
    | nil => exact absurd rfl h
    | cons t ts => rfl
  · simp [isTokenLeaf, node, h]

-- Every token that a leaf stands for is a token of the grammar.
theorem isToken_of_mem_leaves (h : t ∈ leaves l ts) : l.artifact.isToken t.symbol = true := by
  obtain ⟨u, hu, rfl⟩ := List.mem_map.mp h
  have := (List.mem_filter.mp hu).2
  simp only [isTokenLeaf, Bool.and_eq_true] at this
  exact this.2

end Subtree

theorem SymbolInfo.Encloses.leaves_eq {l : Language} {info : SymbolInfo} {s : Symbol}
    {place : Nat} {ts us : List Subtree} (h : info.Encloses s place ts us)
    (hs : l.artifact.isToken s = false) : Subtree.leaves l us = Subtree.leaves l ts := by
  cases h with
  | hidden => rfl
  | visible _ hnode => rw [hnode.eq_node, Subtree.leaves_node (.inr hs)]

section

open Subtree

variable {l : Language} {input : Input}

/-- The leaves of a derivation are the tokens that it takes. -/
theorem Derives.leaves_eq (hl : l.Loadable) {c : Constituent} {p q : Nat} {ts : List Subtree}
    (h : Derives l input c p q ts) (hc : c.InGrammar l) :
    leaves l ts = input.between p q := by
  induction h with
  | @token s p t ht hp hs =>
    rw [leaves_leaf (hs ▸ ht), Input.between_eq_cons hp (Nat.lt_succ_self p), Input.between_self]
  | ruleSymbol hs hd _ hencloses ih =>
    rw [hencloses.leaves_eq, ih trivial]
    rw [Artifact.isToken_eq (Language.definition?_of_symbol? hs), hd]
    rfl
  | expressionSymbol hs hd _ hencloses ih =>
    rw [hencloses.leaves_eq, ih ⟨_, hs, hd⟩]
    rw [Artifact.isToken_eq (Language.definition?_of_symbol? hs), hd]
    rfl
  | seqNil => simp
  | seqCons h₁ h₂ ih₁ ih₂ =>
    rw [leaves_append, ih₁ trivial, ih₂ trivial, Input.between_append h₁.bounds.1 h₂.bounds.1]
  | choice _ _ ih => exact ih trivial
  | optionalNone => simp
  | optionalSome _ ih => exact ih trivial
  | repeatNil => simp
  | repeatCons h₁ h₂ ih₁ ih₂ =>
    rw [leaves_append, ih₁ trivial, ih₂ trivial, Input.between_append h₁.bounds.1 h₂.bounds.1]
  | oneOrMore h₁ h₂ ih₁ ih₂ =>
    rw [leaves_append, ih₁ trivial, ih₂ trivial, Input.between_append h₁.bounds.1 h₂.bounds.1]
  | operand _ ih => exact ih trivial
  | prefixed hop ht hsym hd hnode ih =>
    have htoken := ((hc.admits hl).prefixOps _ hop).1
    rw [hnode.eq_node, leaves_node (.inl (by simp)), leaves_cons, leaves_leaf (hsym ▸ htoken),
      ih trivial, Input.between_eq_cons ht hd.bounds.1]
    rfl
  | joined hop h₁ ht hsym h₂ hnode ih₁ ih₂ =>
    have htoken := ((hc.admits hl).infixOps _ hop).1
    rw [hnode.eq_node, leaves_node (.inl (by simp)), leaves_append, leaves_cons,
      leaves_leaf (hsym ▸ htoken), ih₁ hc, ih₂ trivial, List.singleton_append,
      ← Input.between_eq_cons ht h₂.bounds.1,
      Input.between_append h₁.bounds.1 (Nat.le_of_lt h₂.bounds.1)]
  | @applied s table p q n op left ts node hop h₁ h₂ hq hnode ih₁ ih₂ =>
    -- the rule took a token, so that the node is no leaf even if its kind is a token
    have hne : left ++ ts ≠ [] := by
      have hlt : q < input.size := by have := h₂.bounds; omega
      obtain ⟨t, ht⟩ := input.exists_getElem? hlt
      have hts := ih₂ trivial
      rw [Input.between_eq_cons ht hq] at hts
      rintro hnil
      simp [(List.append_eq_nil_iff.mp hnil).2] at hts
    rw [hnode.eq_node, leaves_node (.inl hne), leaves_append, ih₁ hc, ih₂ trivial,
      Input.between_append h₁.bounds.1 (Nat.le_of_lt hq)]

-- An error node holds leaves for tokens of the grammar and nothing else.
theorem Subtree.Skips.isToken_of_mem_children
    (htokens : ∀ t ∈ input.tokens, t.isError = false → l.artifact.isToken t.symbol = true)
    {p q : Nat} {e : Subtree} (h : e.Skips input p q) :
    ∀ d ∈ e.children, l.artifact.isToken d.symbol = true := by
  intro d hd
  rw [h.children] at hd
  obtain ⟨t, ht, rfl⟩ := List.mem_map.mp hd
  obtain ⟨hmem, hne⟩ := List.mem_filter.mp ht
  exact htokens t (Array.mem_toList_iff.mp (List.mem_of_mem_drop (List.mem_of_mem_take hmem)))
    (by simpa using hne)

/-- The leaves of an error node are the tokens that it takes, without those that no symbol accounts
for. -/
theorem Subtree.Skips.leaves_eq (hl : l.Loadable)
    (htokens : ∀ t ∈ input.tokens, t.isError = false → l.artifact.isToken t.symbol = true)
    {p q : Nat} {e : Subtree} (h : e.Skips input p q) :
    leaves l [e] = (input.between p q).filter (!·.isError) := by
  have herror : isTokenLeaf l e = false := by
    simp [isTokenLeaf, h.symbol, hl.isToken_errorSymbol]
  have hmap (tokens : List Token) (hall : ∀ t ∈ tokens, l.artifact.isToken t.symbol = true) :
      leaves l (tokens.map .leaf) = tokens := by
    induction tokens with
    | nil => rfl
    | cons t tokens ih =>
      rw [List.map_cons, leaves_cons, leaves_leaf (hall t List.mem_cons_self),
        ih fun u hu => hall u (List.mem_cons_of_mem t hu)]
      rfl
  rw [leaves_of_not_leaf herror, h.children]
  refine hmap _ fun t ht => ?_
  refine h.isToken_of_mem_children htokens (leaf t) ?_
  rw [h.children]
  exact List.mem_map_of_mem ht

theorem Assembled.leaves_eq (hl : l.Loadable)
    (htokens : ∀ t ∈ input.tokens, t.isError = false → l.artifact.isToken t.symbol = true)
    {n : Nat} {ts : List Subtree} (h : Assembled l input n ts) :
    leaves l ts = (input.between 0 n).filter (!·.isError) := by
  induction h with
  | nil => simp
  | @matched p q ts us _ hd ih =>
    have hus := hd.leaves_eq hl trivial
    -- no token among those of a derivation is one that no symbol accounts for
    have hclean : (input.between p q).filter (!·.isError) = input.between p q := by
      rw [List.filter_eq_self]
      intro t ht
      have := hl.ne_errorSymbol_of_isToken (isToken_of_mem_leaves (hus ▸ ht))
      simpa [Token.isError] using this
    rw [leaves_append, ih, hus, ← hclean, ← List.filter_append,
      Input.between_append (Nat.zero_le p) hd.bounds.1]
  | @skipped p q ts e _ he ih =>
    rw [leaves_append, ih, he.leaves_eq hl htokens, ← List.filter_append,
      Input.between_append (Nat.zero_le p) (Nat.le_of_lt he.lt)]

/-! ## No extras yet -/

-- Rules place no tokens that may stand anywhere.
theorem Derives.extrasIn_eq_nil (hl : l.Loadable) {c : Constituent} {p q : Nat}
    {ts : List Subtree} (h : Derives l input c p q ts) (hc : c.InGrammar l) : extrasIn ts = [] := by
  refine Derives.forest hl (Q := fun ts => extrasIn ts = []) rfl ?_ ?_ ?_ h hc
  · intro ts us hts hus
    rw [extrasIn_append, hts, hus, List.append_nil]
  · intro t _
    rfl
  · intro s ts place _ _ hts
    rw [extrasIn_singleton]
    exact hts

theorem Assembled.extrasIn_eq_nil (hl : l.Loadable) {n : Nat} {ts : List Subtree}
    (h : Assembled l input n ts) : extrasIn ts = [] := by
  induction h with
  | nil => rfl
  | matched _ hd ih => rw [extrasIn_append, ih, hd.extrasIn_eq_nil hl trivial, List.append_nil]
  | skipped _ he ih =>
    have hleaves (tokens : List Token) : extrasIn (tokens.map .leaf) = [] := by
      induction tokens with
      | nil => rfl
      | cons t tokens ih =>
        rw [List.map_cons, extrasIn_cons, ih]
        rfl
    rw [extrasIn_append, ih, extrasIn_singleton, he.extra, he.children, hleaves]
    rfl

/-! ## Where errors stand -/

theorem Subtree.Skips.isError {e : Subtree} {p q : Nat} (h : e.Skips input p q) :
    e.isError = true := by
  simp [Subtree.isError, h.symbol]

theorem Subtree.Skips.anyError_eq_false {e : Subtree} {p q : Nat} (h : e.Skips input p q) :
    anyError e.children = false := by
  have hleaves (tokens : List Token) :
      anyError ((tokens.filter (!·.isError)).map .leaf) = false := by
    induction tokens with
    | nil => rfl
    | cons t tokens ih => cases ht : t.isError <;> simp [anyError, ht, ih]
  rw [h.children]
  exact hleaves _

/-- Errors stand right below the tree if at all. -/
def Subtree.ErrorsOnTop (t : Subtree) : Prop :=
  ∀ c ∈ t.children, anyError c.children = false

-- A tree below the root is an error node over tokens or has no errors at all.
theorem Assembled.skips_or_clean (hl : l.Loadable) {n : Nat} {ts : List Subtree}
    (h : Assembled l input n ts) :
    ∀ t ∈ ts, (∃ p q, t.Skips input p q) ∨ t.hasError = false := by
  induction h with
  | nil => simp
  | matched _ hd ih =>
    have hclean := hd.anyError_eq_false hl trivial
    intro t ht
    rcases List.mem_append.mp ht with ht | ht
    · exact ih t ht
    · exact .inr (hasError_eq_false_of_mem hclean ht)
  | skipped _ he ih =>
    intro t ht
    rcases List.mem_append.mp ht with ht | ht
    · exact ih t ht
    · rw [List.mem_singleton.mp ht]
      exact .inl ⟨_, _, he⟩

-- What no symbol accounts for is skipped.
theorem Assembled.exists_skips (hl : l.Loadable) {n : Nat} {ts : List Subtree}
    (h : Assembled l input n ts) {k : Nat} {t : Token} (hk : k < n)
    (ht : input.tokens[k]? = some t) (herror : t.isError = true) :
    ∃ e ∈ ts, ∃ p q, e.Skips input p q ∧ p ≤ k ∧ k < q := by
  induction h with
  | nil => omega
  | @matched p q ts us _ hd ih =>
    by_cases hp : k < p
    · obtain ⟨e, he, hskips⟩ := ih hp
      exact ⟨e, List.mem_append_left _ he, hskips⟩
    · -- a derivation takes tokens of the grammar only
      have hmem : t ∈ input.between p q := by
        rw [← Input.between_append (show p ≤ k by omega) (show k ≤ q by omega),
          Input.between_eq_cons ht hk]
        simp
      rw [← hd.leaves_eq hl trivial] at hmem
      have := hl.ne_errorSymbol_of_isToken (isToken_of_mem_leaves hmem)
      simp [Token.isError, this] at herror
  | @skipped p q ts e _ he ih =>
    by_cases hp : k < p
    · obtain ⟨e, he, hskips⟩ := ih hp
      exact ⟨e, List.mem_append_left _ he, hskips⟩
    · exact ⟨e, by simp, p, q, he, by omega, hk⟩

end

end GrammarKit
