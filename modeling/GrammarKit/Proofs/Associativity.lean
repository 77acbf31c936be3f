import GrammarKit.Parser
import GrammarKit.Proofs.Precedence

/-!
# Chains of one operator

Operands that are tokens, with an infix operator between each two of them.  The right operand of an
operator that nests to the left must bind more strongly than the operator, so that it ends where the
next one stands, and the chain nests to the left.  But nothing binds more strongly than the last of
the precedences.  An operator that has this one is taken into the right operand of the one before
it, and the chain nests to the right, as if the operator did.
-/

namespace GrammarKit

open Subtree

/-- Operands with operators between them: the first operand, and the operators, each with the
operand behind it. -/
structure OperatorChain where
  first : Token
  links : List (Token × Token)

namespace OperatorChain

def linkTokens : List (Token × Token) → List Token
  | [] => []
  | (t, operand) :: links => t :: operand :: linkTokens links

def tokens (c : OperatorChain) : List Token :=
  c.first :: linkTokens c.links

theorem length_linkTokens (links : List (Token × Token)) :
    (linkTokens links).length = 2 * links.length := by
  induction links with
  | nil => rfl
  | cons link links ih =>
    rw [linkTokens, List.length_cons, List.length_cons, List.length_cons, ih]
    omega

/-- The tokens are those of the operand `x` and of the operator. -/
structure IsOf (c : OperatorChain) (x : Symbol) (op : InfixOperator) : Prop where
  first : c.first.symbol = x
  links : ∀ link ∈ c.links, link.1.symbol = op.operator ∧ link.2.symbol = x

section

variable (s : Symbol) (info : SymbolInfo) (op : InfixOperator)

/-- The operator between two expressions, of which the second is enclosed as the symbol `s`. -/
def join (left : Subtree) (t operand : Token) (right : Subtree) : Subtree :=
  .node op.node (left :: .leaf t :: info.enclose s operand.start [right]) t.start

/-- The chain with each operator around all that stands before it. -/
def leftNested (c : OperatorChain) : Subtree :=
  nest (.leaf c.first) c.links
where
  nest (left : Subtree) : List (Token × Token) → Subtree
    | [] => left
    | (t, operand) :: links => nest (join s info op left t operand (.leaf operand)) links

/-- The chain with each operator around all that stands behind it. -/
def rightNested (c : OperatorChain) : Subtree :=
  nest c.first c.links
where
  nest (first : Token) : List (Token × Token) → Subtree
    | [] => .leaf first
    | (t, operand) :: links => join s info op (.leaf first) t operand (nest operand links)

end

end OperatorChain

/-- The operands of the table are tokens of the symbol `x`, and the operator is the first of those
that the table has for its token, and binds as strongly as any of them. -/
structure ExpressionTable.Chains (table : ExpressionTable) (x : Symbol) (op : InfixOperator) :
    Prop where
  operand : table.operand = .symbol x
  prefixOps : table.prefixOps = []
  postfixOps : table.postfixOps = []
  first : table.infixOps.find? (·.operator == op.operator) = some op
  strongest : ∀ other ∈ table.infixOps, other.operator = op.operator →
    other.precedence ≤ op.precedence

section

variable {l : Language} {input : Input} {s x : Symbol} {info : SymbolInfo}
  {table : ExpressionTable} {op : InfixOperator} {floor : Precedence} {p : Nat} {t operand : Token}
  {left : List Subtree}

/-! ## The operator of a token -/

namespace ExpressionTable.Chains

theorem infixOperator? (h : table.Chains x op) (ht : t.symbol = op.operator)
    (hfloor : floor ≤ op.precedence) : table.infixOperator? floor t = some op := by
  have hlowest : table.infixOperator? .lowest t = some op := by
    rw [← h.first, ExpressionTable.infixOperator?]
    congr 1
    funext other
    have hall : Precedence.lowest ≤ other.precedence := Fin.zero_le _
    simp [ht, hall]
  exact infixOperator?_of_le hlowest (Fin.zero_le _) hfloor

theorem infixOperator?_eq_none (h : table.Chains x op) (ht : t.symbol = op.operator)
    (hfloor : op.precedence < floor) : table.infixOperator? floor t = none := by
  rw [ExpressionTable.infixOperator?, List.find?_eq_none]
  intro other hother hreach
  simp only [Bool.and_eq_true, beq_iff_eq, decide_eq_true_eq] at hreach
  have hle := h.strongest other hother (hreach.1.trans ht)
  exact absurd (Fin.le_trans hreach.2 hle) (Fin.not_le.mpr hfloor)

end ExpressionTable.Chains

-- Only an operator that nests to the left and can be bound more strongly ends its right operand.
theorem InfixOperator.precedence_lt_rightFloor (hleft : op.associativity = .left)
    (hlt : op.precedence.val < 255) : op.precedence < op.rightFloor := by
  rw [Fin.lt_def, rightFloor, hleft, Precedence.val_next]
  omega

theorem InfixOperator.rightFloor_eq_precedence (hlast : op.precedence.val = 255) :
    op.rightFloor = op.precedence := by
  rw [rightFloor]
  cases op.associativity with
  | left =>
    refine Fin.ext ?_
    rw [Precedence.val_next]
    omega
  | right => rfl

/-! ## The tokens that are left -/

namespace Input

variable {rest : List Token}

theorem getElem?_of_drop (h : input.tokens.toList.drop p = t :: rest) :
    input.tokens[p]? = some t := by
  rw [← Array.getElem?_toList, ← Nat.add_zero p, ← List.getElem?_drop, h]
  rfl

theorem drop_succ_of_drop (h : input.tokens.toList.drop p = t :: rest) :
    input.tokens.toList.drop (p + 1) = rest := by
  rw [← List.drop_drop, h]
  rfl

theorem getElem?_eq_none_of_drop (h : input.tokens.toList.drop p = rest) {q : Nat}
    (hq : p + rest.length ≤ q) : input.tokens[q]? = none := by
  have hlength := congrArg List.length h
  rw [List.length_drop, Array.length_toList] at hlength
  refine Array.getElem?_eq_none ?_
  omega

theorem offset_of_getElem? (h : input.tokens[p]? = some t) : input.offset p = t.start := by
  rw [Input.offset, h]
  rfl

end Input

/-! ## Operands -/

namespace Evaluates

theorem chainOperand (h : table.Chains x op) (hx : l.artifact.isToken x = true)
    (ht : input.tokens[p]? = some t) (hsymbol : t.symbol = x) :
    Evaluates l input False (.operand s table) p (some (p + 1, [.leaf t])) := by
  refine .operand ?_ ?_
  · rw [ht, Option.bind_some, ExpressionTable.prefixOperator?, h.prefixOps]
    rfl
  · rw [h.operand]
    exact .token hx ht hsymbol

theorem chainApplication (h : table.Chains x op) :
    Evaluates l input False (.application floor table.postfixOps left) p none := by
  rw [h.postfixOps]
  exact .applyNone

-- An operand that ends where no operator is strong enough.
theorem chainNonterminal (h : table.Chains x op) (hx : l.artifact.isToken x = true)
    (hs : l.symbol? s = some info) (hd : info.definition = .expression table)
    (ht : input.tokens[p]? = some t) (hsymbol : t.symbol = x) {q : Nat} {tree : Subtree}
    (hextension :
      Evaluates l input False (.extension s table floor [.leaf t]) (p + 1) (some (q, [tree]))) :
    Evaluates l input False (.nonterminal s floor) p
      (some (q, info.enclose s t.start [tree])) := by
  rw [← Input.offset_of_getElem? ht]
  exact .expressionSymbol hs hd (.expression (chainOperand h hx ht hsymbol) hextension)
    SymbolInfo.enclosesMatch_mapTrees

-- The right operands end where the next operator stands.
theorem chainExtension_left (h : table.Chains x op) (hx : l.artifact.isToken x = true)
    (hs : l.symbol? s = some info) (hd : info.definition = .expression table)
    (hleft : op.associativity = .left) (hlt : op.precedence.val < 255)
    {links : List (Token × Token)}
    (htokens : input.tokens.toList.drop p = OperatorChain.linkTokens links)
    (hlinks : ∀ link ∈ links, link.1.symbol = op.operator ∧ link.2.symbol = x) (tree : Subtree) :
    Evaluates l input False (.extension s table .lowest [tree]) p
      (some (p + 2 * links.length, [OperatorChain.leftNested.nest s info op tree links])) := by
  induction links generalizing p tree with
  | nil =>
    refine .noOperator (chainApplication h) ?_
    rw [Input.getElem?_eq_none_of_drop htokens (Nat.le_refl p)]
    rfl
  | cons link links ih =>
    obtain ⟨t, operand⟩ := link
    obtain ⟨⟨ht, hoperand⟩, hlinks⟩ := List.forall_mem_cons.mp hlinks
    have htoken := Input.getElem?_of_drop htokens
    have hbehind := Input.drop_succ_of_drop htokens
    have hrest := Input.drop_succ_of_drop hbehind
    -- no operator that may follow reaches the floor of the operand
    have hend : input.tokens[p + 1 + 1]?.bind (table.infixOperator? op.rightFloor) = none := by
      cases links with
      | nil =>
        have hnone : input.tokens[p + 1 + 1]? = none :=
          Input.getElem?_eq_none_of_drop hrest (Nat.le_refl _)
        rw [hnone]
        rfl
      | cons link links =>
        rw [Input.getElem?_of_drop hrest, Option.bind_some]
        exact h.infixOperator?_eq_none (hlinks link List.mem_cons_self).1
          (InfixOperator.precedence_lt_rightFloor hleft hlt)
    have hright := chainNonterminal h hx hs hd (Input.getElem?_of_drop hbehind) hoperand
      (.noOperator (chainApplication h) hend)
    have hwhole := ih hrest hlinks (OperatorChain.join s info op tree t operand (.leaf operand))
    have hcount : p + 2 * ((t, operand) :: links).length = p + 1 + 1 + 2 * links.length := by
      rw [List.length_cons]
      omega
    rw [hcount]
    refine .joined (chainApplication h) htoken (h.infixOperator? ht (Fin.zero_le _)) hright
      Subtree.isNode_node ?_
    rw [Input.offset_of_getElem? htoken]
    exact hwhole

-- Each right operand takes all that is left.
theorem chainNonterminal_right (h : table.Chains x op) (hx : l.artifact.isToken x = true)
    (hs : l.symbol? s = some info) (hd : info.definition = .expression table)
    (hlast : op.precedence.val = 255) (hfloor : floor ≤ op.precedence)
    {first : Token} {links : List (Token × Token)}
    (htokens : input.tokens.toList.drop p = first :: OperatorChain.linkTokens links)
    (hfirst : first.symbol = x)
    (hlinks : ∀ link ∈ links, link.1.symbol = op.operator ∧ link.2.symbol = x) :
    Evaluates l input False (.nonterminal s floor) p
      (some (p + 1 + 2 * links.length, info.enclose s first.start
        [OperatorChain.rightNested.nest s info op first links])) := by
  induction links generalizing p first floor with
  | nil =>
    have hnone : input.tokens[p + 1]? = none :=
      Input.getElem?_eq_none_of_drop htokens (Nat.le_refl _)
    refine chainNonterminal h hx hs hd (Input.getElem?_of_drop htokens) hfirst
      (.noOperator (chainApplication h) ?_)
    rw [hnone]
    rfl
  | cons link links ih =>
    obtain ⟨t, operand⟩ := link
    obtain ⟨⟨ht, hoperand⟩, hlinks⟩ := List.forall_mem_cons.mp hlinks
    have hbehind := Input.drop_succ_of_drop htokens
    have hrest := Input.drop_succ_of_drop hbehind
    have htoken := Input.getElem?_of_drop hbehind
    have hright := ih (Fin.le_of_eq (op.rightFloor_eq_precedence hlast)) hrest hoperand hlinks
    have hcount : p + 1 + 2 * ((t, operand) :: links).length =
        p + 1 + 1 + 1 + 2 * links.length := by
      rw [List.length_cons]
      omega
    rw [hcount]
    refine chainNonterminal h hx hs hd (Input.getElem?_of_drop htokens) hfirst
      (.joined (chainApplication h) htoken (h.infixOperator? ht hfloor) hright
        Subtree.isNode_node ?_)
    rw [Input.offset_of_getElem? htoken]
    refine .noOperator (chainApplication h) ?_
    rw [Input.getElem?_eq_none_of_drop htokens]
    · rfl
    · rw [List.length_cons, OperatorChain.length_linkTokens, List.length_cons]
      omega

end Evaluates

/-! ## Whole chains -/

namespace Language

variable {c : OperatorChain} {depth : Nat} {run : Run}

-- What the grammar read plainly gives is what a run returns that refuses nothing.
theorem nonterminal_eq_of_evaluates {o : Phrase.Outcome} (hrun : run.Sound l input)
    (ht : (l.nonterminal input depth s floor p [] run).2.truncated = false)
    (he : Evaluates l input False (.nonterminal s floor) p o) :
    (l.nonterminal input depth s floor p [] run).1 = o.toMatch [] := by
  let e : Evaluation := ⟨depth, .nonterminal s floor, p, [], run⟩
  obtain ⟨o', hplain, hresult⟩ : e.IsPlain l input := Evaluation.isPlain_of_sound hrun ht
  obtain rfl := (hplain o).mp he
  exact hresult

theorem toMatch_enclose (next place : Nat) (tree : Subtree) :
    Phrase.Outcome.toMatch (some (next, info.enclose s place [tree])) [] =
      some (next, info.enclose s place [tree]) := by
  rw [Phrase.Outcome.toMatch_some, List.append_nil, SymbolInfo.enclose]
  split <;> rfl

theorem size_chain (htokens : input.tokens.toList = c.tokens) :
    input.size = 0 + 1 + 2 * c.links.length := by
  rw [Input.size, ← Array.length_toList, htokens, OperatorChain.tokens, List.length_cons,
    OperatorChain.length_linkTokens]
  omega

/-- **Operators that nest to the left.**  Unless the operator has the last precedence, a chain of
any length is matched as a whole, where nothing is refused, with each operator around all that
stands before it. -/
theorem nonterminal_chain_left (hs : l.symbol? s = some info)
    (hd : info.definition = .expression table) (h : table.Chains x op)
    (hx : l.artifact.isToken x = true) (hleft : op.associativity = .left)
    (hlt : op.precedence.val < 255) (hc : c.IsOf x op) (htokens : input.tokens.toList = c.tokens)
    (hrun : run.Sound l input)
    (ht : (l.nonterminal input depth s .lowest 0 [] run).2.truncated = false) :
    (l.nonterminal input depth s .lowest 0 [] run).1 =
      some (input.size, info.enclose s c.first.start [c.leftNested s info op]) := by
  have hwhole : input.tokens.toList.drop 0 = c.first :: OperatorChain.linkTokens c.links := htokens
  have hextension := Evaluates.chainExtension_left h hx hs hd hleft hlt
    (Input.drop_succ_of_drop hwhole) hc.links (.leaf c.first)
  have heval := Evaluates.chainNonterminal h hx hs hd (Input.getElem?_of_drop hwhole) hc.first
    hextension
  rw [nonterminal_eq_of_evaluates hrun ht heval, toMatch_enclose, size_chain htokens]
  rfl

/-- An operator of the last precedence nests to the right, also where the table says that it nests
to the left. -/
theorem nonterminal_chain_last (hs : l.symbol? s = some info)
    (hd : info.definition = .expression table) (h : table.Chains x op)
    (hx : l.artifact.isToken x = true) (hlast : op.precedence.val = 255) (hc : c.IsOf x op)
    (htokens : input.tokens.toList = c.tokens) (hrun : run.Sound l input)
    (ht : (l.nonterminal input depth s .lowest 0 [] run).2.truncated = false) :
    (l.nonterminal input depth s .lowest 0 [] run).1 =
      some (input.size, info.enclose s c.first.start [c.rightNested s info op]) := by
  have hwhole : input.tokens.toList.drop 0 = c.first :: OperatorChain.linkTokens c.links := htokens
  have heval := Evaluates.chainNonterminal_right h hx hs hd hlast (Fin.zero_le _) hwhole hc.first
    hc.links
  rw [nonterminal_eq_of_evaluates hrun ht heval, toMatch_enclose, size_chain htokens]
  rfl

end Language

end

/-- The chain of `1+2+3`. -/
def OperatorChain.sums : OperatorChain :=
  { first := ⟨3, 0, 1⟩, links := [(⟨1, 1, 2⟩, ⟨3, 2, 3⟩), (⟨1, 3, 4⟩, ⟨3, 4, 5⟩)] }

theorem OperatorChain.sums_isOf (op : InfixOperator) (h : op.operator = 1) :
    OperatorChain.sums.IsOf 3 op := by
  refine ⟨rfl, ?_⟩
  rw [h]
  decide

theorem Language.nonterminal_chain_left_sums :
    ∃ info op, Language.sums.symbol? 7 = some info ∧
      info.definition = .expression TableCall.sums.table ∧ TableCall.sums.table.Chains 3 op ∧
      (op.associativity, op.precedence.val) = (.left, 1) ∧ OperatorChain.sums.IsOf 3 op ∧
      Input.chain.tokens.toList = OperatorChain.sums.tokens ∧
      (Language.sums.nonterminal .chain 8 7 .lowest 0 [] {}).2.truncated = false ∧
      (Language.sums.nonterminal .chain 8 7 .lowest 0 [] {}).1 =
        some (5, info.enclose 7 0 [OperatorChain.sums.leftNested 7 info op]) := by
  have hchains : TableCall.sums.table.Chains 3 ⟨1, Precedence.lowest.next, .left, 8⟩ :=
    ⟨rfl, rfl, rfl, rfl, by decide⟩
  have hc := OperatorChain.sums_isOf ⟨1, Precedence.lowest.next, .left, 8⟩ rfl
  have ht : (Language.sums.nonterminal .chain 8 7 .lowest 0 [] {}).2.truncated = false := by decide
  exact ⟨_, _, rfl, rfl, hchains, rfl, hc, rfl, ht,
    nonterminal_chain_left rfl rfl hchains (by decide) rfl (by decide) hc rfl Run.sound_empty ht⟩

/-- Sums whose operator has the last precedence. -/
def Artifact.tightSums : Artifact :=
  { version := 1
    name := "tight sums"
    symbols :=
      #[.endOfInput, .literal "+", .derived "sum", .pattern "n" "[0-9]", .rule "file" (.symbol 5),
        .expression "_sum"
          { operand := .symbol 3, prefixOps := [], infixOps := [⟨1, ⟨255, by decide⟩, .left, 2⟩],
            postfixOps := [] }]
    root := 4
    extras := []
    recovery := [] }

/-- The language of those sums. -/
def Language.tightSums : Language :=
  (ofArtifact Pattern.compile .tightSums 0).toOption.get rfl

-- The sum of the last two is an operand of the first.
theorem Language.exists_chain_not_left :
    ∃ info table op, Language.tightSums.Loadable ∧ Language.tightSums.symbol? 5 = some info ∧
      info.definition = .expression table ∧ table.Chains 3 op ∧
      (op.associativity, op.precedence.val) = (.left, 255) ∧ OperatorChain.sums.IsOf 3 op ∧
      Input.chain.tokens.toList = OperatorChain.sums.tokens ∧
      (Language.tightSums.nonterminal .chain 8 5 .lowest 0 [] {}).2.truncated = false ∧
      (Language.tightSums.nonterminal .chain 8 5 .lowest 0 [] {}).1 ≠
        some (5, info.enclose 5 0 [OperatorChain.sums.leftNested 5 info op]) ∧
      (Language.tightSums.parse 8 "1+2+3").tree.root.toSexp =
        "(file (sum (n) (sum (n) (n))))" := by
  refine ⟨_, _, ⟨1, ⟨255, by decide⟩, .left, 2⟩, ⟨Pattern.compile, .tightSums, 0, rfl⟩, rfl, rfl,
    ⟨rfl, rfl, rfl, rfl, by decide⟩, rfl, OperatorChain.sums_isOf _ rfl, rfl, by decide, ?_,
    by decide⟩
  intro h
  have hfirst := congrArg
    (fun m => (m.map fun found => found.2.map fun tree => tree.children.map (·.symbol)).getD []) h
  exact absurd hfirst (by decide)

end GrammarKit
