import GrammarKit.Proofs.Memo

/-!
# Executions

How an engine works through a phrase, one part after the other.  It counts the nonterminals that it
is evaluating: up by one before each, down by one behind it.  It refuses a nonterminal when the
count has reached the limit.  Its loops go on for as long as they make progress, and nothing bounds
how often, so an execution exists only if the work comes to an end.
-/

namespace GrammarKit

/-- The state of an engine at work. -/
structure Machine where
  run : Run := {}
  /-- How many nonterminals are being evaluated. -/
  depth : Nat := 0
  /-- The most nonterminals that were being evaluated at any time. -/
  deepest : Nat := 0
  /-- Whether the engine asked for a symbol or a token that is not there, or tried to match a symbol
  that nothing can match. -/
  astray : Bool := false
  /-- Whether an engine at work beside this one gave up a nonterminal. -/
  cutBeside : Bool := false

namespace Machine

/-- Before a nonterminal is evaluated. -/
def enter (m : Machine) : Machine :=
  { m with depth := m.depth + 1, deepest := max m.deepest (m.depth + 1) }

/-- Behind the evaluation of a nonterminal: its result is kept. -/
def leave (m : Machine) (g : Goal) (found : Match) : Machine :=
  { m with run := { m.run with memo := m.run.memo.insert g found }, depth := m.depth - 1 }

/-- A nonterminal is given up because too many are being evaluated. -/
def refuse (m : Machine) : Machine :=
  { m with run := { m.run with truncated := true } }

def stray (m : Machine) : Machine :=
  { m with astray := true }

end Machine

/-- The token at a position as a match of the symbol, if it is one. -/
def Input.leafAt (input : Input) (s : Symbol) (position : Nat) : Phrase.Outcome :=
  (input.tokens[position]?.filter (·.symbol == s)).map fun t => (position + 1, [.leaf t])

/-- Whether the outcome is a match that takes a token. -/
def Phrase.Outcome.advances (o : Outcome) (position : Nat) : Bool :=
  o.any fun found => position < found.1

section

variable (l : Language) (input : Input) (limit : Nat)

/-- What comes of a phrase at a position, from one state of an engine to another. -/
inductive Executes : Phrase → (position : Nat) → Machine → Phrase.Outcome → Machine → Prop
  | token {s p m} :
      l.artifact.isToken s = true →
      Executes (.rule (.symbol s)) p m (input.leafAt s p) m
  | call {s p m o m'} :
      l.artifact.isNonterminal s = true →
      Executes (.nonterminal s .lowest) p m o m' →
      Executes (.rule (.symbol s)) p m o m'
  | unparseable {s p m} :
      l.artifact.isToken s = false → l.artifact.isNonterminal s = false →
      Executes (.rule (.symbol s)) p m none m.stray
  | seqNil {p m} : Executes (.rule (.seq [])) p m (some (p, [])) m
  | seqCons {r rs p m q ts m₁ o m₂} :
      Executes (.rule r) p m (some (q, ts)) m₁ →
      Executes (.rule (.seq rs)) q m₁ o m₂ →
      Executes (.rule (.seq (r :: rs))) p m (o.mapTrees (ts ++ ·)) m₂
  | seqFail {r rs p m m'} :
      Executes (.rule r) p m none m' →
      Executes (.rule (.seq (r :: rs))) p m none m'
  | choiceNil {p m} : Executes (.rule (.choice [])) p m none m
  | choiceFirst {r rs p m found m'} :
      Executes (.rule r) p m (some found) m' →
      Executes (.rule (.choice (r :: rs))) p m (some found) m'
  | choiceLater {r rs p m m₁ o m₂} :
      Executes (.rule r) p m none m₁ →
      Executes (.rule (.choice rs)) p m₁ o m₂ →
      Executes (.rule (.choice (r :: rs))) p m o m₂
  | repeatMore {r p m q ts m₁ o m₂} :
      Executes (.rule r) p m (some (q, ts)) m₁ → p < q →
      Executes (.rule (.zeroOrMore r)) q m₁ o m₂ →
      Executes (.rule (.zeroOrMore r)) p m (o.mapTrees (ts ++ ·)) m₂
  | repeatEnd {r p m o m'} :
      Executes (.rule r) p m o m' → o.advances p = false →
      Executes (.rule (.zeroOrMore r)) p m (some (p, [])) m'
  | oneOrMore {r p m o m'} :
      Executes (.rule (.seq [r, .zeroOrMore r])) p m o m' →
      Executes (.rule (.oneOrMore r)) p m o m'
  | optional {r p m o m'} :
      Executes (.rule (.choice [r, .seq []])) p m o m' →
      Executes (.rule (.optional r)) p m o m'
  | remembered {s floor p m o} :
      m.run.memo[Goal.mk s p floor]? = some (o.toMatch []) →
      Executes (.nonterminal s floor) p m o m
  | refused {s floor p m} :
      m.run.memo[Goal.mk s p floor]? = none → limit ≤ m.depth →
      Executes (.nonterminal s floor) p m none m.refuse
  | unknown {s floor p m} :
      m.run.memo[Goal.mk s p floor]? = none → m.depth < limit → l.symbol? s = none →
      Executes (.nonterminal s floor) p m none m.stray
  | undefined {s floor p m info} :
      m.run.memo[Goal.mk s p floor]? = none → m.depth < limit → l.symbol? s = some info →
      info.definition.isNonterminal = false →
      Executes (.nonterminal s floor) p m none (m.enter.stray.leave ⟨s, p, floor⟩ none)
  | ruleSymbol {s floor p m info r o m'} :
      m.run.memo[Goal.mk s p floor]? = none → m.depth < limit → l.symbol? s = some info →
      info.definition = .rule r →
      Executes (.rule r) p m.enter o m' →
      Executes (.nonterminal s floor) p m (o.mapTrees (info.enclose s (input.offset p)))
        (m'.leave ⟨s, p, floor⟩ ((o.mapTrees (info.enclose s (input.offset p))).toMatch []))
  | expressionSymbol {s floor p m info table o m'} :
      m.run.memo[Goal.mk s p floor]? = none → m.depth < limit → l.symbol? s = some info →
      info.definition = .expression table →
      Executes (.expression s table floor) p m.enter o m' →
      Executes (.nonterminal s floor) p m (o.mapTrees (info.enclose s (input.offset p)))
        (m'.leave ⟨s, p, floor⟩ ((o.mapTrees (info.enclose s (input.offset p))).toMatch []))
  | noOperand {s table floor p m m'} :
      Executes (.operand s table) p m none m' →
      Executes (.expression s table floor) p m none m'
  | expression {s table floor p m q left m₁ o m₂} :
      Executes (.operand s table) p m (some (q, left)) m₁ →
      Executes (.extension s table floor left) q m₁ o m₂ →
      Executes (.expression s table floor) p m o m₂
  | prefixed {s table p m t op o m'} :
      input.tokens[p]? = some t → table.prefixOperator? t = some op →
      Executes (.nonterminal s op.precedence) (p + 1) m o m' →
      Executes (.operand s table) p m
        (o.mapTrees fun ts => [.node op.node (.leaf t :: ts) (input.offset p)]) m'
  | operand {s table p m o m'} :
      input.tokens[p]?.bind table.prefixOperator? = none →
      Executes (.rule table.operand) p m o m' →
      Executes (.operand s table) p m o m'
  | applyNone {floor left p m} : Executes (.application floor [] left) p m none m
  | applyWeak {floor op ops left p m o m'} :
      op.precedence < floor →
      Executes (.application floor ops left) p m o m' →
      Executes (.application floor (op :: ops) left) p m o m'
  | apply {floor op ops left p m q ts m'} :
      floor ≤ op.precedence →
      Executes (.rule op.rule) p m (some (q, ts)) m' → p < q →
      Executes (.application floor (op :: ops) left) p m
        (some (q, [.node op.node (left ++ ts) (input.offset p)])) m'
  | applyLater {floor op ops left p m o m₁ o' m₂} :
      floor ≤ op.precedence →
      Executes (.rule op.rule) p m o m₁ → o.advances p = false →
      Executes (.application floor ops left) p m₁ o' m₂ →
      Executes (.application floor (op :: ops) left) p m o' m₂
  | applied {s table floor left p m q left' m₁ o m₂} :
      Executes (.application floor table.postfixOps left) p m (some (q, left')) m₁ →
      Executes (.extension s table floor left') q m₁ o m₂ →
      Executes (.extension s table floor left) p m o m₂
  | joined {s table floor left p m m₁ t op q right m₂ o m₃} :
      Executes (.application floor table.postfixOps left) p m none m₁ →
      input.tokens[p]? = some t → table.infixOperator? floor t = some op →
      Executes (.nonterminal s op.rightFloor) (p + 1) m₁ (some (q, right)) m₂ →
      Executes
        (.extension s table floor [.node op.node (left ++ .leaf t :: right) (input.offset p)]) q
        m₂ o m₃ →
      Executes (.extension s table floor left) p m o m₃
  | noRight {s table floor left p m m₁ t op m₂} :
      Executes (.application floor table.postfixOps left) p m none m₁ →
      input.tokens[p]? = some t → table.infixOperator? floor t = some op →
      Executes (.nonterminal s op.rightFloor) (p + 1) m₁ none m₂ →
      Executes (.extension s table floor left) p m (some (p, left)) m₂
  | noOperator {s table floor left p m m'} :
      Executes (.application floor table.postfixOps left) p m none m' →
      input.tokens[p]?.bind (table.infixOperator? floor) = none →
      Executes (.extension s table floor left) p m (some (p, left)) m'

end

/-! ## Bounds -/

namespace Phrase.Outcome

/-- A match from a position on stands between the position and the end of the input. -/
def Bounded (input : Input) (position : Nat) (o : Outcome) : Prop :=
  ∀ found ∈ o, position ≤ found.1 ∧ found.1 ≤ max position input.size

variable {input : Input} {p q : Nat} {o : Outcome} {trees : List Subtree}

theorem bounded_none : Bounded input p none := by
  simp [Bounded]

theorem bounded_some :
    Bounded input p (some (q, trees)) ↔ p ≤ q ∧ q ≤ max p input.size := by
  simp [Bounded]

theorem bounded_here : Bounded input p (some (p, trees)) :=
  bounded_some.mpr ⟨Nat.le_refl p, Nat.le_max_left p _⟩

@[simp] theorem bounded_mapTrees {f : List Subtree → List Subtree} :
    (o.mapTrees f).Bounded input p ↔ o.Bounded input p := by
  cases o <;> simp [Bounded, mapTrees]

@[simp] theorem bounded_toMatch {built : List Subtree} :
    Bounded input p (o.toMatch built) ↔ o.Bounded input p :=
  bounded_mapTrees

-- What goes on where a match ends.
theorem Bounded.step (h : Bounded input p (some (q, trees))) (ho : o.Bounded input q) :
    o.Bounded input p := by
  intro found hfound
  have := bounded_some.mp h
  have := ho found hfound
  omega

-- What goes on behind a token.
theorem Bounded.behind (hp : p < input.size) (ho : o.Bounded input (p + 1)) :
    o.Bounded input p := by
  intro found hfound
  have := ho found hfound
  omega

theorem bounded_leafAt {s : Symbol} : (input.leafAt s p).Bounded input p := by
  intro found hfound
  obtain ⟨t, ht, rfl⟩ := Option.map_eq_some_iff.mp hfound
  have hp := input.lt_size_of_getElem? (Option.filter_eq_some_iff.mp ht).1
  show p ≤ p + 1 ∧ p + 1 ≤ max p input.size
  omega

end Phrase.Outcome

/-- Every match that a run remembers stands between the position of its goal and the end of the
input. -/
def Run.Bounded (input : Input) (run : Run) : Prop :=
  ∀ (g : Goal) (found : Match), run.memo[g]? = some found →
    Phrase.Outcome.Bounded input g.position found

theorem Run.bounded_empty (input : Input) : Run.Bounded input {} := by
  intro g found h
  simp at h

theorem Run.Bounded.insert {input : Input} {run : Run} (h : run.Bounded input) {g : Goal}
    {found : Match} (hfound : Phrase.Outcome.Bounded input g.position found) :
    Run.Bounded input { run with memo := run.memo.insert g found } := by
  intro g' found' hg
  rw [Std.TreeMap.getElem?_insert] at hg
  split at hg
  · rename_i heq
    obtain rfl := Std.LawfulEqCmp.eq_of_compare heq
    obtain rfl := Option.some.inj hg
    exact hfound
  · exact h g' found' hg

/-! ## What holds of every execution -/

-- No symbol is both a nonterminal and a token.
theorem Artifact.isToken_eq_false_of_isNonterminal {a : Artifact} {s : Symbol}
    (h : a.isNonterminal s = true) : a.isToken s = false := by
  cases ht : a.isToken s with
  | false => rfl
  | true => exact absurd (isNonterminal_eq_false_of_isToken ht) (by simp [h])

-- Whatever a table keeps comes of some outcome.
theorem Phrase.Outcome.exists_toMatch (found : Match) : ∃ o : Outcome, o.toMatch [] = found := by
  match found with
  | none => exact ⟨none, rfl⟩
  | some (q, ts) => exact ⟨some (q, ts.reverse), by simp⟩

theorem Phrase.Outcome.toMatch_inj {o o' : Outcome} : o.toMatch [] = o'.toMatch [] ↔ o = o' := by
  constructor
  · intro h
    match o, o' with
    | none, none => rfl
    | some (q, ts), some (q', ts') => simpa using h
  · intro h
    rw [h]

namespace Executes

variable {l : Language} {input : Input} {limit : Nat} {phrase : Phrase} {p : Nat}
  {m m' m'' : Machine} {o o' : Phrase.Outcome}

/-- What an engine keeps to in everything that it does with its state, it keeps to in a whole
execution. -/
theorem relates {R : Machine → Machine → Prop} (refl : ∀ m, R m m)
    (trans : ∀ {m₁ m₂ m₃}, R m₁ m₂ → R m₂ m₃ → R m₁ m₃)
    (refuse : ∀ m, R m m.refuse) (stray : ∀ m, R m m.stray)
    (evaluate : ∀ m m' g found, m.depth < limit → R m.enter m' → R m (m'.leave g found))
    (h : Executes l input limit phrase p m o m') : R m m' := by
  induction h with
  | refused => exact refuse _
  | unparseable | unknown => exact stray _
  | undefined _ hlt => exact evaluate _ _ _ _ hlt (stray _)
  | ruleSymbol _ hlt _ _ _ ih | expressionSymbol _ hlt _ _ _ ih => exact evaluate _ _ _ _ hlt ih
  | token | seqNil | choiceNil | remembered | applyNone => exact refl _
  | call _ _ ih | seqFail _ ih | choiceFirst _ ih | repeatEnd _ _ ih | oneOrMore _ ih
  | optional _ ih | noOperand _ ih | prefixed _ _ _ ih | operand _ _ ih | applyWeak _ _ ih
  | apply _ _ _ ih | noOperator _ _ ih => exact ih
  | seqCons _ _ ih₁ ih₂ | choiceLater _ _ ih₁ ih₂ | repeatMore _ _ _ ih₁ ih₂
  | expression _ _ ih₁ ih₂ | applyLater _ _ _ _ ih₁ ih₂ | applied _ _ ih₁ ih₂
  | noRight _ _ _ _ ih₁ ih₂ => exact trans ih₁ ih₂
  | joined _ _ _ _ _ ih₁ ih₂ ih₃ => exact trans ih₁ (trans ih₂ ih₃)

-- Behind an execution the count is what it was before.
theorem depth_eq (h : Executes l input limit phrase p m o m') : m'.depth = m.depth := by
  refine h.relates (R := fun m m' => m'.depth = m.depth) (fun _ => rfl) (fun h₁ h₂ => h₂.trans h₁)
    (fun _ => rfl) (fun _ => rfl) fun m m' g found _ hinner => ?_
  show m'.depth - 1 = m.depth
  rw [hinner]
  exact Nat.add_sub_cancel m.depth 1

-- The count never passes the limit.
theorem deepest_le (h : Executes l input limit phrase p m o m') :
    m'.deepest ≤ max m.deepest limit := by
  refine h.relates (R := fun m m' => m'.deepest ≤ max m.deepest limit)
    (fun _ => Nat.le_max_left _ _) (fun h₁ h₂ => by omega) (fun _ => Nat.le_max_left _ _)
    (fun _ => Nat.le_max_left _ _) fun m m' g found hlt hinner => ?_
  -- the count goes up only where it is below the limit
  have hinner : m'.deepest ≤ max (max m.deepest (m.depth + 1)) limit := hinner
  show m'.deepest ≤ max m.deepest limit
  omega

-- A match does not go back, and not past the end of the input.
theorem bounded (h : Executes l input limit phrase p m o m') (hm : m.run.Bounded input) :
    m'.run.Bounded input ∧ o.Bounded input p := by
  induction h with
  | token => exact ⟨hm, Phrase.Outcome.bounded_leafAt⟩
  | remembered hmemo => exact ⟨hm, Phrase.Outcome.bounded_toMatch.mp (hm _ _ hmemo)⟩
  | undefined => exact ⟨hm.insert Phrase.Outcome.bounded_none, Phrase.Outcome.bounded_none⟩
  | ruleSymbol _ _ _ _ _ ih | expressionSymbol _ _ _ _ _ ih =>
    -- what the table keeps is what comes of the goal
    obtain ⟨hm', ho⟩ := ih hm
    exact ⟨hm'.insert (by simpa using ho), by simpa using ho⟩
  | unparseable | choiceNil | refused | unknown | applyNone =>
    exact ⟨hm, Phrase.Outcome.bounded_none⟩
  | seqNil => exact ⟨hm, Phrase.Outcome.bounded_here⟩
  | repeatEnd _ _ ih | noOperator _ _ ih => exact ⟨(ih hm).1, Phrase.Outcome.bounded_here⟩
  | call _ _ ih | seqFail _ ih | choiceFirst _ ih | oneOrMore _ ih | optional _ ih
  | noOperand _ ih | operand _ _ ih | applyWeak _ _ ih => exact ih hm
  | apply _ _ _ ih =>
    obtain ⟨hm', ho⟩ := ih hm
    exact ⟨hm', Phrase.Outcome.bounded_some.mpr (Phrase.Outcome.bounded_some.mp ho)⟩
  | seqCons _ _ ih₁ ih₂ | repeatMore _ _ _ ih₁ ih₂ =>
    obtain ⟨hm₁, hfirst⟩ := ih₁ hm
    obtain ⟨hm₂, hrest⟩ := ih₂ hm₁
    exact ⟨hm₂, Phrase.Outcome.bounded_mapTrees.mpr (hfirst.step hrest)⟩
  | choiceLater _ _ ih₁ ih₂ | applyLater _ _ _ _ ih₁ ih₂ => exact ih₂ (ih₁ hm).1
  | expression _ _ ih₁ ih₂ | applied _ _ ih₁ ih₂ =>
    obtain ⟨hm₁, hfirst⟩ := ih₁ hm
    obtain ⟨hm₂, hrest⟩ := ih₂ hm₁
    exact ⟨hm₂, hfirst.step hrest⟩
  | prefixed ht _ _ ih =>
    obtain ⟨hm', ho⟩ := ih hm
    exact ⟨hm', Phrase.Outcome.bounded_mapTrees.mpr (ho.behind (input.lt_size_of_getElem? ht))⟩
  | joined _ ht _ _ _ ih₁ ih₂ ih₃ =>
    obtain ⟨hm₂, hright⟩ := ih₂ (ih₁ hm).1
    obtain ⟨hm₃, hrest⟩ := ih₃ hm₂
    exact ⟨hm₃, (hright.step hrest).behind (input.lt_size_of_getElem? ht)⟩
  | noRight _ _ _ _ ih₁ ih₂ => exact ⟨(ih₂ (ih₁ hm).1).1, Phrase.Outcome.bounded_here⟩

/-- An engine does one thing at a time: nothing is left open. -/
theorem unique (h : Executes l input limit phrase p m o m')
    (h' : Executes l input limit phrase p m o' m'') : o = o' ∧ m' = m'' := by
  -- only what defines a symbol decides between the ways to match it; elsewhere the parts do
  induction h generalizing o' m'' with
  | token ht =>
    have := Artifact.isNonterminal_eq_false_of_isToken ht
    cases h' <;> grind
  | call hs =>
    have ht := Artifact.isToken_eq_false_of_isNonterminal hs
    cases h' <;> grind
  | remembered hmemo =>
    cases h' with
    | remembered hmemo' =>
      have := Option.some.inj (hmemo.symm.trans hmemo')
      exact ⟨Phrase.Outcome.toMatch_inj.mp this, rfl⟩
    | _ => grind
  | undefined _ _ _ hd => cases h' <;> grind [Definition.isNonterminal]
  | ruleSymbol _ _ _ hd => cases h' <;> grind [Definition.isNonterminal]
  | expressionSymbol _ _ _ hd => cases h' <;> grind [Definition.isNonterminal]
  | _ => cases h' <;> grind [Phrase.Outcome.advances]

end Executes

end GrammarKit
