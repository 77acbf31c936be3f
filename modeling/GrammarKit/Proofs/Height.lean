import GrammarKit.Proofs.Completion

/-!
# How high trees grow

The height of a tree is how many trees stand one within the other.  The nesting limit does not bound
it: each operator of an expression puts a node over what was built so far, and results that are
remembered are used again at any depth.  But every node over others takes a token, or belongs to one
of the nonterminals that were evaluated, of which no more than the limit are nested before the table
of results grows.
-/

namespace GrammarKit

namespace Subtree

mutual

/-- How many trees stand one within the other, from the tree down. -/
def height : Subtree → Nat
  | ⟨_, _, _, children, _⟩ => maxHeight children + 1

/-- The height of the highest of the trees. -/
def maxHeight : List Subtree → Nat
  | [] => 0
  | t :: ts => max t.height (maxHeight ts)

end

theorem height_eq (t : Subtree) : t.height = maxHeight t.children + 1 := by
  cases t
  rfl

@[simp] theorem maxHeight_nil : maxHeight [] = 0 := rfl

@[simp] theorem maxHeight_cons (t : Subtree) (ts : List Subtree) :
    maxHeight (t :: ts) = max t.height (maxHeight ts) := rfl

@[simp] theorem maxHeight_append (ts us : List Subtree) :
    maxHeight (ts ++ us) = max (maxHeight ts) (maxHeight us) := by
  induction ts with
  | nil => simp
  | cons t ts ih => simp [ih, Nat.max_assoc]

@[simp] theorem maxHeight_reverse (ts : List Subtree) : maxHeight ts.reverse = maxHeight ts := by
  induction ts with
  | nil => rfl
  | cons t ts ih => simp [ih, Nat.max_comm]

@[simp] theorem height_leaf (t : Token) : (leaf t).height = 1 := rfl

@[simp] theorem height_node (s : Symbol) (children : List Subtree) (place : Nat) :
    (node s children place).height = maxHeight children + 1 := rfl

end Subtree

open Subtree

/-! ## Nodes over matches -/

namespace Phrase

/-- The expression that operators are to be put behind. -/
def left : Phrase → List Subtree
  | .application _ _ left => left
  | .extension _ _ _ left => left
  | _ => []

/-- An operator puts a node over its operand, which may have taken no token. -/
def slack : Phrase → Nat
  | .rule _ => 0
  | .nonterminal _ _ => 0
  | _ => 1

/-- The trees of a match that started at `base` are no higher than the tokens that it took, but for
`bound`. -/
def Outcome.Rises (bound base : Nat) (o : Outcome) : Prop :=
  ∀ found ∈ o, maxHeight found.2 + base ≤ bound + found.1

namespace Outcome

variable {bound bound' base base' q : Nat} {o : Outcome} {trees : List Subtree}

theorem rises_none : Rises bound base none := by
  simp [Rises]

theorem rises_some : Rises bound base (some (q, trees)) ↔ maxHeight trees + base ≤ bound + q := by
  simp [Rises]

theorem Rises.mono (h : o.Rises bound base) (hbound : bound ≤ bound') : o.Rises bound' base := by
  intro found hfound
  have := h found hfound
  omega

theorem Rises.behind (h : o.Rises bound base') (hbase : base ≤ base') : o.Rises bound base := by
  intro found hfound
  have := h found hfound
  omega

-- Trees side by side are no higher than the higher ones.
theorem Rises.append {input : Input} (h : Rises bound base (some (q, trees)))
    (ho : o.Rises bound base) (hq : o.Bounded input q) :
    (o.mapTrees (trees ++ ·)).Rises bound base := by
  intro found hfound
  obtain ⟨⟨next, more⟩, hmore, rfl⟩ := Option.map_eq_some_iff.mp hfound
  have htrees := rises_some.mp h
  have hrest : maxHeight more + base ≤ bound + next := ho _ hmore
  have hnext : q ≤ next := (hq _ hmore).1
  show maxHeight (trees ++ more) + base ≤ bound + next
  rw [maxHeight_append]
  omega

-- An operator in front of its operand takes a token itself.
theorem Rises.prefixed {input : Input} {p : Nat} (h : o.Rises bound (p + 1))
    (hp : o.Bounded input (p + 1)) (hbase : base ≤ p) (s : Symbol) (t : Token) (place : Nat) :
    (o.mapTrees fun ts => [.node s (.leaf t :: ts) place]).Rises (bound + 1) base := by
  intro found hfound
  obtain ⟨⟨next, more⟩, hmore, rfl⟩ := Option.map_eq_some_iff.mp hfound
  have hrest : maxHeight more + (p + 1) ≤ bound + next := h _ hmore
  have hnext : p + 1 ≤ next := (hp _ hmore).1
  show maxHeight [.node s (.leaf t :: more) place] + base ≤ bound + 1 + next
  rw [maxHeight_cons, maxHeight_nil, height_node, maxHeight_cons, height_leaf]
  omega

-- The node of a nonterminal is one higher than its trees.
theorem Rises.enclose {input : Input} {p : Nat} (h : o.Rises bound p) (hp : o.Bounded input p)
    (info : SymbolInfo) (s : Symbol) (place : Nat) :
    (o.mapTrees (info.enclose s place)).Rises (bound + 1) p := by
  intro found hfound
  obtain ⟨⟨next, more⟩, hmore, rfl⟩ := Option.map_eq_some_iff.mp hfound
  have hrest : maxHeight more + p ≤ bound + next := h _ hmore
  have hnext : p ≤ next := (hp _ hmore).1
  show maxHeight (info.enclose s place more) + p ≤ bound + 1 + next
  rw [SymbolInfo.enclose]
  split
  · omega
  · rw [maxHeight_cons, maxHeight_nil, height_node]
    omega

theorem rises_toMatch : Rises bound base (o.toMatch []) ↔ o.Rises bound base := by
  match o with
  | none => exact ⟨fun _ => rises_none, fun _ => rises_none⟩
  | some (q, trees) => rw [toMatch_some, rises_some, rises_some, List.append_nil, maxHeight_reverse]

theorem rises_leafAt {input : Input} {s : Symbol} {p : Nat} (hbase : base ≤ p) :
    (input.leafAt s p).Rises bound base := by
  intro found hfound
  obtain ⟨t, -, rfl⟩ := Option.map_eq_some_iff.mp hfound
  show max (leaf t).height 0 + base ≤ bound + (p + 1)
  rw [height_leaf]
  omega

end Outcome

end Phrase

/-- What a run remembers is no higher than the tokens that it took, but for `bound`. -/
def Run.Rises (bound : Nat) (run : Run) : Prop :=
  ∀ (g : Goal) (found : Match), run.memo[g]? = some found →
    Phrase.Outcome.Rises bound g.position found

theorem Run.Rises.mono {bound bound' : Nat} {run : Run} (h : run.Rises bound)
    (hbound : bound ≤ bound') : run.Rises bound' :=
  fun g found hg => (h g found hg).mono hbound

theorem Run.Rises.insert {bound : Nat} {run : Run} (h : run.Rises bound) {g : Goal}
    {found : Match} (hfound : Phrase.Outcome.Rises bound g.position found) :
    Run.Rises bound { run with memo := run.memo.insert g found } := by
  intro g' found' hg
  rw [Std.TreeMap.getElem?_insert] at hg
  split at hg
  · rename_i heq
    obtain rfl := Std.LawfulEqCmp.eq_of_compare heq
    obtain rfl := Option.some.inj hg
    exact hfound
  · exact h g' found' hg

/-! ## How often nodes are put over nodes -/

/-- The table of results has grown if something is in it that was not. -/
structure Machine.Gains (m m' : Machine) : Prop where
  size_le : m.run.memo.size ≤ m'.run.memo.size
  size_lt : ∀ g : Goal, m.run.memo[g]? = none → m'.run.memo[g]? ≠ none →
    m.run.memo.size < m'.run.memo.size

/-- How many nodes can have been put over each other, other than those that took a token, while the
table of results grew. -/
def Machine.allowance (limit : Nat) (m m' : Machine) : Nat :=
  2 * (limit - m.depth) * (m'.run.memo.size - m.run.memo.size)

namespace Machine

variable {m m₁ m₂ m' : Machine} {limit : Nat}

theorem Gains.refl (m : Machine) : m.Gains m :=
  ⟨Nat.le_refl _, fun _ h h' => absurd h h'⟩

theorem Gains.trans (h : m.Gains m₁) (h' : m₁.Gains m₂) : m.Gains m₂ := by
  refine ⟨Nat.le_trans h.size_le h'.size_le, fun g hnone hsome => ?_⟩
  cases hg : m₁.run.memo[g]? with
  | none => exact Nat.lt_of_le_of_lt h.size_le (h'.size_lt g hg hsome)
  | some found =>
    exact Nat.lt_of_lt_of_le (h.size_lt g hnone (by simp [hg])) h'.size_le

theorem size_leave (m : Machine) (g : Goal) (found : Match) :
    (m.leave g found).run.memo.size =
      if m.run.memo[g]? = none then m.run.memo.size + 1 else m.run.memo.size := by
  show (m.run.memo.insert g found).size = _
  rw [Std.TreeMap.size_insert, Std.TreeMap.contains_eq_isSome_getElem?]
  cases m.run.memo[g]? <;> simp

theorem Gains.leave (m : Machine) (g : Goal) (found : Match) : m.Gains (m.leave g found) := by
  have hsize := m.size_leave g found
  refine ⟨?_, fun g' hnone hsome => ?_⟩
  · rw [hsize]
    split <;> omega
  · have hg : m.run.memo[g]? = none := by
      change (m.run.memo.insert g found)[g']? ≠ none at hsome
      rw [Std.TreeMap.getElem?_insert] at hsome
      split at hsome
      · rename_i heq
        rwa [Std.LawfulEqCmp.eq_of_compare heq]
      · exact absurd hnone hsome
    rw [hsize, if_pos hg]
    exact Nat.lt_succ_self _

@[simp] theorem allowance_self (limit : Nat) (m : Machine) : m.allowance limit m = 0 := by
  simp [allowance]

theorem allowance_trans (h : m.Gains m₁) (hdepth : m₁.depth = m.depth) (h' : m₁.Gains m₂) :
    m.allowance limit m₁ + m₁.allowance limit m₂ = m.allowance limit m₂ := by
  have := h.size_le
  have := h'.size_le
  rw [allowance, allowance, allowance, hdepth, ← Nat.mul_add]
  congr 1
  omega

-- A nonterminal that was not in the table gets room for two nodes.
theorem allowance_leave {g : Goal} {found : Match} (hlt : m.depth < limit)
    (hnone : m.run.memo[g]? = none) (h : m.enter.Gains m') :
    m.enter.allowance limit m' + 2 ≤ m.allowance limit (m'.leave g found) := by
  have hleave := Gains.leave m' g found
  have hsome : (m'.leave g found).run.memo[g]? ≠ none := by
    show (m'.run.memo.insert g found)[g]? ≠ none
    simp
  have hmore : m.run.memo.size < (m'.leave g found).run.memo.size :=
    (h.trans hleave).size_lt g hnone hsome
  have hmono : 2 * (limit - (m.depth + 1)) * (m'.run.memo.size - m.run.memo.size) ≤
      2 * (limit - (m.depth + 1)) * ((m'.leave g found).run.memo.size - m.run.memo.size) :=
    Nat.mul_le_mul_left _ (Nat.sub_le_sub_right hleave.size_le _)
  have hsplit : 2 * (limit - m.depth) = 2 * (limit - (m.depth + 1)) + 2 := by omega
  show 2 * (limit - (m.depth + 1)) * (m'.run.memo.size - m.run.memo.size) + 2 ≤
    2 * (limit - m.depth) * _
  rw [hsplit, Nat.add_mul]
  omega

end Machine

namespace Executes

variable {l : Language} {input : Input} {limit : Nat} {phrase : Phrase} {p : Nat}
  {m m' : Machine} {o : Phrase.Outcome}

theorem gains (h : Executes l input limit phrase p m o m') : m.Gains m' :=
  h.relates .refl .trans (fun _ => ⟨Nat.le_refl _, fun _ h h' => absurd h h'⟩)
    (fun _ => ⟨Nat.le_refl _, fun _ h h' => absurd h h'⟩)
    fun m m' g found _ hinner =>
      (⟨hinner.size_le, hinner.size_lt⟩ : m.Gains m').trans (.leave m' g found)

-- One execution behind another has the allowance of both.
theorem allowance_step {phrase₁ phrase₂ : Phrase} {p₁ p₂ : Nat} {m₁ m₂ : Machine}
    {o₁ o₂ : Phrase.Outcome} (h₁ : Executes l input limit phrase₁ p₁ m o₁ m₁)
    (h₂ : Executes l input limit phrase₂ p₂ m₁ o₂ m₂) (bound : Nat) :
    bound + m.allowance limit m₁ + m₁.allowance limit m₂ = bound + m.allowance limit m₂ := by
  rw [Nat.add_assoc, Machine.allowance_trans h₁.gains h₁.depth_eq h₂.gains]

-- What comes of a nonterminal is kept as it is.
theorem rises_leave {s : Symbol} {floor : Precedence} {info : SymbolInfo} {bound base : Nat}
    (hlt : m.depth < limit) (hnone : m.run.memo[Goal.mk s p floor]? = none)
    (hgains : m.enter.Gains m') (hrun : m'.run.Rises (bound + m.enter.allowance limit m'))
    (ho : o.Rises (bound + m.enter.allowance limit m' + 1) p) (hp : o.Bounded input p)
    (hbase : base ≤ p) :
    let found := o.mapTrees (info.enclose s (input.offset p))
    let last := m'.leave ⟨s, p, floor⟩ (found.toMatch [])
    last.run.Rises (bound + m.allowance limit last) ∧
      found.Rises (bound + m.allowance limit last) base := by
  intro found last
  have hroom : m.enter.allowance limit m' + 2 ≤ m.allowance limit last :=
    Machine.allowance_leave hlt hnone hgains
  have hfound : found.Rises (bound + m.allowance limit last) p :=
    (ho.enclose hp info s (input.offset p)).mono (by omega)
  refine ⟨?_, hfound.behind hbase⟩
  exact (hrun.mono (by omega)).insert (Phrase.Outcome.rises_toMatch.mpr hfound)

-- No match rises higher than the tokens that it took, but for the nodes that are allowed for.
theorem rises (h : Executes l input limit phrase p m o m') (hm : m.run.Bounded input)
    {bound base : Nat} (hbase : base ≤ p) (hrun : m.run.Rises bound)
    (hleft : maxHeight phrase.left + base ≤ bound + p + 1) :
    m'.run.Rises (bound + m.allowance limit m') ∧
      o.Rises (bound + m.allowance limit m' + phrase.slack) base := by
  -- before the first of its trees a phrase has none
  have hempty {b q : Nat} {base : Nat} (h : base ≤ q) : maxHeight [] + base ≤ b + q + 1 := by
    rw [maxHeight_nil]
    omega
  induction h generalizing bound base with
  | token => exact ⟨by simpa using hrun, Phrase.Outcome.rises_leafAt hbase⟩
  | remembered hmemo =>
    refine ⟨by simpa using hrun, ?_⟩
    exact ((Phrase.Outcome.rises_toMatch.mp (hrun _ _ hmemo)).behind hbase).mono (by omega)
  | choiceNil | applyNone | unparseable | refused | unknown =>
    exact ⟨hrun.mono (Nat.le_add_right _ _), Phrase.Outcome.rises_none⟩
  | undefined =>
    exact ⟨(hrun.mono (Nat.le_add_right _ _)).insert Phrase.Outcome.rises_none,
      Phrase.Outcome.rises_none⟩
  | seqNil =>
    refine ⟨by simpa using hrun, Phrase.Outcome.rises_some.mpr ?_⟩
    rw [maxHeight_nil]
    omega
  | call _ _ ih | seqFail _ ih | choiceFirst _ ih | oneOrMore _ ih | optional _ ih
  | applyWeak _ _ ih => exact ih hm hbase hrun hleft
  | noOperand _ ih => exact ⟨(ih hm hbase hrun hleft).1, Phrase.Outcome.rises_none⟩
  | operand _ _ ih =>
    obtain ⟨hrun', ho⟩ := ih hm hbase hrun hleft
    exact ⟨hrun', ho.mono (Nat.le_succ _)⟩
  | repeatEnd _ _ ih =>
    refine ⟨(ih hm hbase hrun hleft).1, Phrase.Outcome.rises_some.mpr ?_⟩
    rw [maxHeight_nil]
    omega
  | ruleSymbol hnone hlt _ _ h ih =>
    obtain ⟨hrun', ho⟩ := ih hm (Nat.le_refl _) hrun (hempty (Nat.le_refl _))
    exact rises_leave hlt hnone h.gains hrun' (ho.mono (Nat.le_succ _)) (h.bounded hm).2 hbase
  | expressionSymbol hnone hlt _ _ h ih =>
    obtain ⟨hrun', ho⟩ := ih hm (Nat.le_refl _) hrun (hempty (Nat.le_refl _))
    exact rises_leave hlt hnone h.gains hrun' ho (h.bounded hm).2 hbase
  | seqCons h₁ h₂ ih₁ ih₂ | repeatMore h₁ _ h₂ ih₁ ih₂ =>
    obtain ⟨hm₁, hq⟩ := h₁.bounded hm
    have hpq := (Phrase.Outcome.bounded_some.mp hq).1
    have hstep := allowance_step h₁ h₂ bound
    obtain ⟨hrun₁, hts⟩ := ih₁ hm hbase hrun hleft
    obtain ⟨hrun₂, ho⟩ := ih₂ hm₁ (Nat.le_trans hbase hpq) hrun₁ (hempty (Nat.le_trans hbase hpq))
    rw [hstep] at hrun₂ ho
    exact ⟨hrun₂, (hts.mono (hstep ▸ Nat.le_add_right _ _)).append ho (h₂.bounded hm₁).2⟩
  | choiceLater h₁ h₂ ih₁ ih₂ =>
    have hstep := allowance_step h₁ h₂ bound
    obtain ⟨hrun₁, -⟩ := ih₁ hm hbase hrun hleft
    obtain ⟨hrun₂, ho⟩ := ih₂ (h₁.bounded hm).1 hbase hrun₁ (hempty hbase)
    rw [hstep] at hrun₂ ho
    exact ⟨hrun₂, ho⟩
  | applyLater _ h₁ _ h₂ ih₁ ih₂ =>
    have hstep := allowance_step h₁ h₂ bound
    obtain ⟨hrun₁, -⟩ := ih₁ hm hbase hrun (hempty hbase)
    obtain ⟨hrun₂, ho⟩ := ih₂ (h₁.bounded hm).1 hbase hrun₁ (Nat.le_trans hleft (by omega))
    rw [hstep] at hrun₂ ho
    exact ⟨hrun₂, ho⟩
  | expression h₁ h₂ ih₁ ih₂ | applied h₁ h₂ ih₁ ih₂ =>
    obtain ⟨hm₁, hq⟩ := h₁.bounded hm
    have hpq := (Phrase.Outcome.bounded_some.mp hq).1
    have hstep := allowance_step h₁ h₂ bound
    obtain ⟨hrun₁, hleft₁⟩ := ih₁ hm hbase hrun hleft
    have hleft₁ := Phrase.Outcome.rises_some.mp hleft₁
    obtain ⟨hrun₂, ho⟩ := ih₂ hm₁ (Nat.le_trans hbase hpq) hrun₁
      (Nat.le_trans hleft₁ (by simp only [Phrase.slack]; omega))
    rw [hstep] at hrun₂ ho
    exact ⟨hrun₂, ho⟩
  | prefixed ht _ h ih =>
    obtain ⟨hrun', ho⟩ := ih hm (Nat.le_refl _) hrun (hempty (Nat.le_refl _))
    exact ⟨hrun', ho.prefixed (h.bounded hm).2 hbase _ _ _⟩
  | apply _ h hlt ih =>
    obtain ⟨hrun', hts⟩ := ih hm (Nat.le_refl _) hrun (hempty (Nat.le_refl _))
    refine ⟨hrun', Phrase.Outcome.rises_some.mpr ?_⟩
    have hts := Phrase.Outcome.rises_some.mp hts
    simp only [Phrase.slack, Phrase.left] at hts hleft ⊢
    rw [maxHeight_cons, maxHeight_nil, height_node, maxHeight_append]
    omega
  | noOperator _ _ ih =>
    refine ⟨(ih hm hbase hrun hleft).1, Phrase.Outcome.rises_some.mpr ?_⟩
    simp only [Phrase.slack, Phrase.left] at hleft ⊢
    omega
  | noRight h₁ _ _ h₂ ih₁ ih₂ =>
    have hstep := allowance_step h₁ h₂ bound
    obtain ⟨hrun₁, -⟩ := ih₁ hm hbase hrun hleft
    obtain ⟨hrun₂, -⟩ := ih₂ (h₁.bounded hm).1 (Nat.le_refl _) hrun₁ (hempty (Nat.le_refl _))
    rw [hstep] at hrun₂
    refine ⟨hrun₂, Phrase.Outcome.rises_some.mpr ?_⟩
    simp only [Phrase.slack, Phrase.left] at hleft ⊢
    omega
  | joined h₁ ht _ h₂ h₃ ih₁ ih₂ ih₃ =>
    have hm₁ := (h₁.bounded hm).1
    obtain ⟨hm₂, hq⟩ := h₂.bounded hm₁
    have hpq := (Phrase.Outcome.bounded_some.mp hq).1
    obtain ⟨hrun₁, -⟩ := ih₁ hm hbase hrun hleft
    obtain ⟨hrun₂, hright⟩ := ih₂ hm₁ (Nat.le_refl _) hrun₁ (hempty (Nat.le_refl _))
    have hright := Phrase.Outcome.rises_some.mp hright
    rw [allowance_step h₁ h₂] at hrun₂ hright
    -- the node over both sides has taken the token between them
    obtain ⟨hrun₃, ho⟩ := ih₃ hm₂ (Nat.le_trans (Nat.le_succ_of_le hbase) hpq) hrun₂ (by
      simp only [Phrase.slack, Phrase.left] at hright hleft ⊢
      rw [maxHeight_cons, maxHeight_nil, height_node, maxHeight_append, maxHeight_cons, height_leaf]
      omega)
    have hdepth := h₂.depth_eq.trans h₁.depth_eq
    rw [Nat.add_assoc bound, Machine.allowance_trans (h₁.gains.trans h₂.gains) hdepth h₃.gains]
      at hrun₃ ho
    exact ⟨hrun₃, ho⟩

end Executes

end GrammarKit
