import GrammarKit.Proofs.Loading
import GrammarKit.Recovery

/-!
# The plain meaning of a grammar

What a rule matches from a position on when the grammar is read as it stands: ordered choice with
backtracking, loops that stop on failure or lack of progress, hidden symbols spliced, and
expressions by climbing precedences with postfix rules before infix operators.  There is no table of
results and no limit on nesting.

A symbol may be refused only if `refusing` holds.  Without refusals a phrase has at most one
outcome, and it has none exactly if following the grammar never comes to an end.
-/

namespace GrammarKit

/-- What is matched from a position on. -/
inductive Phrase where
  | rule (rule : Rule)
  /-- A nonterminal, using no operator below `floor`. -/
  | nonterminal (symbol : Symbol) (floor : Precedence)
  /-- What a table says about the expressions of a symbol. -/
  | expression (symbol : Symbol) (table : ExpressionTable) (floor : Precedence)
  /-- An operand of such an expression, with a prefix operator if there is one. -/
  | operand (symbol : Symbol) (table : ExpressionTable)
  /-- The first of the postfix rules that applies to the expression `left`. -/
  | application (floor : Precedence) (ops : List PostfixRule) (left : List Subtree)
  /-- All operators that extend the expression `left`, one after the other. -/
  | extension (symbol : Symbol) (table : ExpressionTable) (floor : Precedence)
      (left : List Subtree)

/-- The position behind a match and its trees in the order of the text, or a failure. -/
abbrev Phrase.Outcome := Option (Nat × List Subtree)

namespace Phrase.Outcome

/-- The outcome with its trees changed. -/
def mapTrees (f : List Subtree → List Subtree) (o : Outcome) : Outcome :=
  o.map fun (next, trees) => (next, f trees)

/-- The outcome as a matcher returns it when `built` was built before. -/
def toMatch (o : Outcome) (built : List Subtree) : Match :=
  o.mapTrees fun trees => trees.reverse ++ built

@[simp] theorem mapTrees_none (f : List Subtree → List Subtree) : mapTrees f none = none := rfl

@[simp] theorem mapTrees_some (f : List Subtree → List Subtree) (next : Nat)
    (trees : List Subtree) : mapTrees f (some (next, trees)) = some (next, f trees) := rfl

theorem mapTrees_eq_some {f : List Subtree → List Subtree} {o : Outcome} {next : Nat}
    {trees : List Subtree} :
    o.mapTrees f = some (next, trees) ↔ ∃ inner, o = some (next, inner) ∧ f inner = trees := by
  cases o with
  | none => simp
  | some found =>
    obtain ⟨n, inner⟩ := found
    simp only [mapTrees_some, Option.some.injEq, Prod.mk.injEq]
    constructor
    · rintro ⟨rfl, rfl⟩
      exact ⟨inner, ⟨rfl, rfl⟩, rfl⟩
    · rintro ⟨_, ⟨rfl, rfl⟩, rfl⟩
      exact ⟨rfl, rfl⟩

@[simp] theorem toMatch_none (built : List Subtree) : toMatch none built = none := rfl

@[simp] theorem toMatch_some (next : Nat) (trees built : List Subtree) :
    toMatch (some (next, trees)) built = some (next, trees.reverse ++ built) := rfl

theorem toMatch_mapTrees_append (o : Outcome) (trees built : List Subtree) :
    (o.mapTrees (trees ++ ·)).toMatch built = o.toMatch (trees.reverse ++ built) := by
  cases o <;> simp [mapTrees, toMatch]

@[simp] theorem behind_toMatch (o : Outcome) (built : List Subtree) :
    (o.toMatch []).behind built = o.toMatch built := by
  cases o <;> simp [mapTrees, toMatch, Match.behind]

end Phrase.Outcome

namespace ExpressionTable

/-- The prefix operator that a token is. -/
def prefixOperator? (table : ExpressionTable) (t : Token) : Option PrefixOperator :=
  table.prefixOps.find? fun op => op.operator == t.symbol

/-- The infix operator that a token is, if it binds at least as strongly as `floor`. -/
def infixOperator? (table : ExpressionTable) (floor : Precedence) (t : Token) :
    Option InfixOperator :=
  table.infixOps.find? fun op => op.operator == t.symbol && floor ≤ op.precedence

end ExpressionTable

/-! ## Nodes over trees -/

/-- The tree is a node of the symbol over the children.  It reaches from the first of them to the
last, and without children it stands at the place. -/
structure Subtree.IsNode (t : Subtree) (s : Symbol) (ts : List Subtree) (place : Nat) : Prop where
  symbol : t.symbol = s
  children : t.children = ts
  start : ∀ first, ts.head? = some first → t.start = first.start
  stop : ∀ last, ts.getLast? = some last → t.stop = last.stop
  place : ts = [] → t.start = place ∧ t.stop = place
  extra : t.extra = false

/-- What a symbol leaves of the trees of its definition: the trees themselves if it is hidden, and
else a node over them. -/
inductive SymbolInfo.Encloses (info : SymbolInfo) (s : Symbol) (place : Nat)
    (ts : List Subtree) : List Subtree → Prop
  | hidden : info.hidden = true → Encloses info s place ts ts
  | visible {t} : info.hidden = false → t.IsNode s ts place → Encloses info s place ts [t]

/-- What comes of a symbol if that is what comes of its definition. -/
inductive SymbolInfo.EnclosesMatch (info : SymbolInfo) (s : Symbol) (place : Nat) :
    Phrase.Outcome → Phrase.Outcome → Prop
  | failed : EnclosesMatch info s place none none
  | matched {next ts us} : info.Encloses s place ts us →
      EnclosesMatch info s place (some (next, ts)) (some (next, us))

/-- The trees that a nonterminal leaves for those of its definition. -/
def SymbolInfo.enclose (info : SymbolInfo) (s : Symbol) (place : Nat) (trees : List Subtree) :
    List Subtree :=
  if info.hidden then trees else [.node s trees place]

section

variable {info : SymbolInfo} {s : Symbol} {place : Nat} {t : Subtree} {ts us : List Subtree}
  {o o' : Phrase.Outcome}

theorem Subtree.isNode_node : (node s ts place).IsNode s ts place where
  symbol := rfl
  children := rfl
  start first h := by rw [node, h]; rfl
  stop last h := by rw [node, h]; rfl
  place h := by rw [h]; exact ⟨rfl, rfl⟩
  extra := rfl

@[grind →] theorem Subtree.IsNode.eq_node (h : t.IsNode s ts place) : t = node s ts place := by
  have hstart : t.start = (ts.head?.map (·.start)).getD place := by
    cases hhead : ts.head? with
    | none => exact (h.place (List.head?_eq_none_iff.mp hhead)).1
    | some first => exact h.start first hhead
  have hstop : t.stop = (ts.getLast?.map (·.stop)).getD place := by
    cases hlast : ts.getLast? with
    | none => exact (h.place (List.getLast?_eq_none_iff.mp hlast)).2
    | some last => exact h.stop last hlast
  cases t
  rw [node, mk.injEq]
  exact ⟨h.symbol, hstart, hstop, h.children, h.extra⟩

theorem SymbolInfo.encloses_enclose : info.Encloses s place ts (info.enclose s place ts) := by
  unfold enclose
  split
  case isTrue hhidden => exact .hidden hhidden
  case isFalse hvisible => exact .visible (by simpa using hvisible) Subtree.isNode_node

theorem SymbolInfo.Encloses.eq_enclose (h : info.Encloses s place ts us) :
    us = info.enclose s place ts := by
  cases h with
  | hidden hhidden => rw [enclose, if_pos hhidden]
  | visible hvisible hnode => rw [enclose, hvisible, if_neg Bool.false_ne_true, hnode.eq_node]

theorem SymbolInfo.enclosesMatch_mapTrees :
    info.EnclosesMatch s place o (o.mapTrees (info.enclose s place)) := by
  cases o with
  | none => exact .failed
  | some found => exact .matched encloses_enclose

@[grind →] theorem SymbolInfo.EnclosesMatch.eq_mapTrees (h : info.EnclosesMatch s place o o') :
    o' = o.mapTrees (info.enclose s place) := by
  cases h with
  | failed => rfl
  | matched h => rw [Phrase.Outcome.mapTrees_some, h.eq_enclose]

end

/-! ## Evaluation -/

section

variable (l : Language) (input : Input) (refusing : Prop)

/-- What comes of a phrase at a position of the input. -/
inductive Evaluates : Phrase → (position : Nat) → Phrase.Outcome → Prop
  | token {s p t} :
      l.artifact.isToken s = true → input.tokens[p]? = some t → t.symbol = s →
      Evaluates (.rule (.symbol s)) p (some (p + 1, [.leaf t]))
  | otherToken {s p} :
      l.artifact.isToken s = true → (∀ t, input.tokens[p]? = some t → t.symbol ≠ s) →
      Evaluates (.rule (.symbol s)) p none
  | call {s p o} :
      l.artifact.isNonterminal s = true →
      Evaluates (.nonterminal s .lowest) p o →
      Evaluates (.rule (.symbol s)) p o
  | unparseable {s p} :
      l.artifact.isToken s = false → l.artifact.isNonterminal s = false →
      Evaluates (.rule (.symbol s)) p none
  | seqNil {p} : Evaluates (.rule (.seq [])) p (some (p, []))
  | seqCons {r rs p q ts o} :
      Evaluates (.rule r) p (some (q, ts)) →
      Evaluates (.rule (.seq rs)) q o →
      Evaluates (.rule (.seq (r :: rs))) p (o.mapTrees (ts ++ ·))
  | seqFail {r rs p} :
      Evaluates (.rule r) p none →
      Evaluates (.rule (.seq (r :: rs))) p none
  | choiceNil {p} : Evaluates (.rule (.choice [])) p none
  | choiceFirst {r rs p found} :
      Evaluates (.rule r) p (some found) →
      Evaluates (.rule (.choice (r :: rs))) p (some found)
  | choiceLater {r rs p o} :
      Evaluates (.rule r) p none →
      Evaluates (.rule (.choice rs)) p o →
      Evaluates (.rule (.choice (r :: rs))) p o
  | repeatFail {r p} :
      Evaluates (.rule r) p none →
      Evaluates (.rule (.zeroOrMore r)) p (some (p, []))
  | repeatStill {r p q ts} :
      Evaluates (.rule r) p (some (q, ts)) → q ≤ p →
      Evaluates (.rule (.zeroOrMore r)) p (some (p, []))
  | repeatMore {r p q ts o} :
      Evaluates (.rule r) p (some (q, ts)) → p < q →
      Evaluates (.rule (.zeroOrMore r)) q o →
      Evaluates (.rule (.zeroOrMore r)) p (o.mapTrees (ts ++ ·))
  | oneOrMore {r p o} :
      Evaluates (.rule (.seq [r, .zeroOrMore r])) p o →
      Evaluates (.rule (.oneOrMore r)) p o
  | optional {r p o} :
      Evaluates (.rule (.choice [r, .seq []])) p o →
      Evaluates (.rule (.optional r)) p o
  | refusal {s floor p} :
      refusing → Evaluates (.nonterminal s floor) p none
  | ruleSymbol {s floor p info r o o'} :
      l.symbol? s = some info → info.definition = .rule r →
      Evaluates (.rule r) p o → info.EnclosesMatch s (input.offset p) o o' →
      Evaluates (.nonterminal s floor) p o'
  | expressionSymbol {s floor p info table o o'} :
      l.symbol? s = some info → info.definition = .expression table →
      Evaluates (.expression s table floor) p o → info.EnclosesMatch s (input.offset p) o o' →
      Evaluates (.nonterminal s floor) p o'
  | undefined {s floor p} :
      l.artifact.isNonterminal s = false →
      Evaluates (.nonterminal s floor) p none
  | noOperand {s table floor p} :
      Evaluates (.operand s table) p none →
      Evaluates (.expression s table floor) p none
  | expression {s table floor p q left o} :
      Evaluates (.operand s table) p (some (q, left)) →
      Evaluates (.extension s table floor left) q o →
      Evaluates (.expression s table floor) p o
  | prefixed {s table p t op q ts node} :
      input.tokens[p]? = some t → table.prefixOperator? t = some op →
      Evaluates (.nonterminal s op.precedence) (p + 1) (some (q, ts)) →
      Subtree.IsNode node op.node (.leaf t :: ts) (input.offset p) →
      Evaluates (.operand s table) p (some (q, [node]))
  | prefixFail {s table p t op} :
      input.tokens[p]? = some t → table.prefixOperator? t = some op →
      Evaluates (.nonterminal s op.precedence) (p + 1) none →
      Evaluates (.operand s table) p none
  | operand {s table p o} :
      input.tokens[p]?.bind table.prefixOperator? = none →
      Evaluates (.rule table.operand) p o →
      Evaluates (.operand s table) p o
  | applyNone {floor left p} : Evaluates (.application floor [] left) p none
  | applyWeak {floor op ops left p o} :
      op.precedence < floor →
      Evaluates (.application floor ops left) p o →
      Evaluates (.application floor (op :: ops) left) p o
  | applyFail {floor op ops left p o} :
      floor ≤ op.precedence →
      Evaluates (.rule op.rule) p none →
      Evaluates (.application floor ops left) p o →
      Evaluates (.application floor (op :: ops) left) p o
  | applyStill {floor op ops left p q ts o} :
      floor ≤ op.precedence →
      Evaluates (.rule op.rule) p (some (q, ts)) → q ≤ p →
      Evaluates (.application floor ops left) p o →
      Evaluates (.application floor (op :: ops) left) p o
  | apply {floor op ops left p q ts node} :
      floor ≤ op.precedence →
      Evaluates (.rule op.rule) p (some (q, ts)) → p < q →
      Subtree.IsNode node op.node (left ++ ts) (input.offset p) →
      Evaluates (.application floor (op :: ops) left) p (some (q, [node]))
  | applied {s table floor left p q left' o} :
      Evaluates (.application floor table.postfixOps left) p (some (q, left')) →
      Evaluates (.extension s table floor left') q o →
      Evaluates (.extension s table floor left) p o
  | joined {s table floor left p t op q right node o} :
      Evaluates (.application floor table.postfixOps left) p none →
      input.tokens[p]? = some t → table.infixOperator? floor t = some op →
      Evaluates (.nonterminal s op.rightFloor) (p + 1) (some (q, right)) →
      Subtree.IsNode node op.node (left ++ .leaf t :: right) (input.offset p) →
      Evaluates (.extension s table floor [node]) q o →
      Evaluates (.extension s table floor left) p o
  | noRight {s table floor left p t op} :
      Evaluates (.application floor table.postfixOps left) p none →
      input.tokens[p]? = some t → table.infixOperator? floor t = some op →
      Evaluates (.nonterminal s op.rightFloor) (p + 1) none →
      Evaluates (.extension s table floor left) p (some (p, left))
  | noOperator {s table floor left p} :
      Evaluates (.application floor table.postfixOps left) p none →
      input.tokens[p]?.bind (table.infixOperator? floor) = none →
      Evaluates (.extension s table floor left) p (some (p, left))

end

theorem Input.lt_size_of_getElem? {input : Input} {p : Nat} {t : Token}
    (h : input.tokens[p]? = some t) : p < input.size :=
  (Array.getElem?_eq_some_iff.mp h).1

theorem Input.exists_getElem? (input : Input) {p : Nat} (hp : p < input.size) :
    ∃ t, input.tokens[p]? = some t :=
  ⟨_, Array.getElem?_eq_getElem hp⟩

namespace Evaluates

variable {l : Language} {input : Input} {refusing refusing' : Prop} {phrase : Phrase} {p : Nat}
  {o o' : Phrase.Outcome}

-- What comes of a phrase when fewer symbols are refused can also come of it when more are.
theorem mono (h : Evaluates l input refusing phrase p o) (allow : refusing → refusing') :
    Evaluates l input refusing' phrase p o := by
  induction h with
  | refusal hr => exact .refusal (allow hr)
  | token ht hp hs => exact .token ht hp hs
  | otherToken ht hp => exact .otherToken ht hp
  | call hs _ ih => exact .call hs ih
  | unparseable ht hs => exact .unparseable ht hs
  | seqNil => exact .seqNil
  | seqCons _ _ ih₁ ih₂ => exact .seqCons ih₁ ih₂
  | seqFail _ ih => exact .seqFail ih
  | choiceNil => exact .choiceNil
  | choiceFirst _ ih => exact .choiceFirst ih
  | choiceLater _ _ ih₁ ih₂ => exact .choiceLater ih₁ ih₂
  | repeatFail _ ih => exact .repeatFail ih
  | repeatStill _ hq ih => exact .repeatStill ih hq
  | repeatMore _ hq _ ih₁ ih₂ => exact .repeatMore ih₁ hq ih₂
  | oneOrMore _ ih => exact .oneOrMore ih
  | optional _ ih => exact .optional ih
  | ruleSymbol hs hd _ ho ih => exact .ruleSymbol hs hd ih ho
  | expressionSymbol hs hd _ ho ih => exact .expressionSymbol hs hd ih ho
  | undefined hs => exact .undefined hs
  | noOperand _ ih => exact .noOperand ih
  | expression _ _ ih₁ ih₂ => exact .expression ih₁ ih₂
  | prefixed ht hop _ hnode ih => exact .prefixed ht hop ih hnode
  | prefixFail ht hop _ ih => exact .prefixFail ht hop ih
  | operand hop _ ih => exact .operand hop ih
  | applyNone => exact .applyNone
  | applyWeak hop _ ih => exact .applyWeak hop ih
  | applyFail hop _ _ ih₁ ih₂ => exact .applyFail hop ih₁ ih₂
  | applyStill hop _ hq _ ih₁ ih₂ => exact .applyStill hop ih₁ hq ih₂
  | apply hop _ hq hnode ih => exact .apply hop ih hq hnode
  | applied _ _ ih₁ ih₂ => exact .applied ih₁ ih₂
  | joined _ ht hop _ hnode _ ih₁ ih₂ ih₃ => exact .joined ih₁ ht hop ih₂ hnode ih₃
  | noRight _ ht hop _ ih₁ ih₂ => exact .noRight ih₁ ht hop ih₂
  | noOperator _ hop ih => exact .noOperator ih hop

-- A rule alone in a sequence.
theorem seqSingle {r : Rule} (h : Evaluates l input refusing (.rule r) p o) :
    Evaluates l input refusing (.rule (.seq [r])) p o := by
  match o with
  | none => exact .seqFail h
  | some (next, trees) => simpa using Evaluates.seqCons h .seqNil

/-- Without refusals a phrase has one outcome at most. -/
theorem unique (h : Evaluates l input False phrase p o) (h' : Evaluates l input False phrase p o') :
    o = o' := by
  -- only what defines a symbol decides between the ways to match it; elsewhere the premises do
  induction h generalizing o' with
  | refusal hr => exact hr.elim
  | token ht =>
    have := Artifact.isNonterminal_eq_false_of_isToken ht
    cases h' <;> grind
  | otherToken ht =>
    have := Artifact.isNonterminal_eq_false_of_isToken ht
    cases h' <;> grind
  | call hs =>
    cases h' with
    | call _ h' => grind
    | token ht =>
      have := Artifact.isNonterminal_eq_false_of_isToken ht
      grind
    | otherToken ht =>
      have := Artifact.isNonterminal_eq_false_of_isToken ht
      grind
    | unparseable _ hs' => grind
  | ruleSymbol hs hd =>
    have := Artifact.isNonterminal_eq (Language.definition?_of_symbol? hs)
    cases h' <;> grind [Definition.isNonterminal]
  | expressionSymbol hs hd =>
    have := Artifact.isNonterminal_eq (Language.definition?_of_symbol? hs)
    cases h' <;> grind [Definition.isNonterminal]
  | undefined hs =>
    cases h' with
    | ruleSymbol hs' hd =>
      have := Artifact.isNonterminal_eq (Language.definition?_of_symbol? hs')
      grind [Definition.isNonterminal]
    | expressionSymbol hs' hd =>
      have := Artifact.isNonterminal_eq (Language.definition?_of_symbol? hs')
      grind [Definition.isNonterminal]
    | _ => rfl
  | _ => cases h' <;> grind

-- A match does not go back, and not past the end of the input.
theorem bounds {next : Nat} {trees : List Subtree}
    (h : Evaluates l input refusing phrase p (some (next, trees))) :
    p ≤ next ∧ next ≤ max p input.size := by
  generalize ho : some (next, trees) = o at h
  induction h generalizing next trees with
  | _ => grind [Input.size, Phrase.Outcome.mapTrees_eq_some]

-- A postfix rule applies only where it takes a token.
theorem application_lt {floor : Precedence} {ops : List PostfixRule} {left : List Subtree}
    {next : Nat} {trees : List Subtree}
    (h : Evaluates l input refusing (.application floor ops left) p (some (next, trees))) :
    p < next := by
  induction ops with
  | nil => cases h
  | cons op ops ih =>
    cases h with
    | applyWeak _ h => exact ih h
    | applyFail _ _ h => exact ih h
    | applyStill _ _ _ h => exact ih h
    | apply _ _ hq _ => exact hq

end Evaluates

end GrammarKit
