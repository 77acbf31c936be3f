import GrammarKit.Proofs.Trace

/-!
# Precedence and associativity

The loop that extends an expression by one operator after the other, followed step by step.  No
operator binds more weakly than the floor of its call; so the operators of a right operand bind as
strongly as the operator before it asks for.  Those of a left operand do so too, although the loop
does not compare them: an operator that binds more strongly than the one before it would have been
taken into the right operand of that one.
-/

namespace GrammarKit

/-! ## Floors -/

theorem Precedence.next_le_of_lt {p q : Precedence} (h : p < q) : p.next ≤ q := by
  unfold next
  split
  · exact h
  · exact Fin.le_of_lt h

theorem Precedence.le_next (p : Precedence) : p ≤ p.next := by
  unfold next
  split
  · exact Nat.le_succ p.val
  · exact Fin.le_refl p

theorem Precedence.val_next (p : Precedence) : p.next.val = min (p.val + 1) 255 := by
  have := p.isLt
  unfold next
  split
  · simp only
    omega
  · omega

namespace InfixOperator

theorem precedence_le_rightFloor (op : InfixOperator) : op.precedence ≤ op.rightFloor := by
  unfold rightFloor
  cases op.associativity
  · exact op.precedence.le_next
  · exact Fin.le_refl _

-- The right operand takes every operator that binds more strongly.
theorem rightFloor_le_of_lt {op : InfixOperator} {p : Precedence} (h : op.precedence < p) :
    op.rightFloor ≤ p := by
  unfold rightFloor
  cases op.associativity
  · exact Precedence.next_le_of_lt h
  · exact Fin.le_of_lt h

end InfixOperator

-- A higher floor finds the same operator as long as that reaches it.
theorem ExpressionTable.infixOperator?_of_le {table : ExpressionTable} {floor higher : Precedence}
    {t : Token} {op : InfixOperator} (h : table.infixOperator? floor t = some op)
    (hle : floor ≤ higher) (hop : higher ≤ op.precedence) :
    table.infixOperator? higher t = some op := by
  unfold infixOperator? at h ⊢
  obtain ⟨hsame, before, after, heq, hbefore⟩ := List.find?_eq_some_iff_append.mp h
  rw [List.find?_eq_some_iff_append]
  simp only [Bool.and_eq_true, decide_eq_true_eq, Bool.not_eq_true', Bool.and_eq_false_imp,
    decide_eq_false_iff_not] at hsame hbefore ⊢
  refine ⟨⟨hsame.1, hop⟩, before, after, heq, fun other hother hsymbol hreach => ?_⟩
  -- an operator before it that reaches the higher floor would reach the lower one
  exact hbefore other hother hsymbol (Fin.le_trans hle hreach)

theorem ExpressionTable.infixOperator?_le {table : ExpressionTable} {floor : Precedence} {t : Token}
    {op : InfixOperator} (h : table.infixOperator? floor t = some op) :
    floor ≤ op.precedence := by
  have := List.find?_some h
  simp only [Bool.and_eq_true, decide_eq_true_eq] at this
  exact this.2

/-! ## Where an expression ends -/

section

variable {l : Language} {input : Input}

-- Where an expression cannot be extended any more, what stands to the right of the operator found
-- there, if one is found, cannot be matched.
theorem Evaluates.not_right_of_extension {refusing : Prop} {s : Symbol} {table : ExpressionTable}
    {floor : Precedence} {left trees : List Subtree} {p q : Nat}
    (h : Evaluates l input refusing (.extension s table floor left) p (some (q, trees))) :
    ∀ t op, input.tokens[q]? = some t → table.infixOperator? floor t = some op →
      Evaluates l input refusing (.nonterminal s op.rightFloor) (q + 1) none := by
  generalize hphrase : Phrase.extension s table floor left = phrase at h
  generalize ho : some (q, trees) = o at h
  induction h generalizing left with
  | applied _ _ _ ih =>
    cases hphrase
    exact ih rfl ho
  | joined _ _ _ _ _ _ _ _ ih =>
    cases hphrase
    exact ih rfl ho
  | noRight _ ht hop hnone =>
    cases hphrase
    cases ho
    intro t' op' ht' hop'
    rw [ht] at ht'
    obtain rfl := Option.some.inj ht'
    rw [hop] at hop'
    obtain rfl := Option.some.inj hop'
    exact hnone
  | noOperator _ hnone =>
    cases hphrase
    cases ho
    intro t' op' ht' hop'
    rw [ht', Option.bind_some, hop'] at hnone
    cases hnone
  | _ => cases hphrase

-- The same for a symbol whose definition is the table.
theorem Evaluates.not_right {s : Symbol} {info : SymbolInfo} {table : ExpressionTable}
    (hinfo : l.symbol? s = some info) (hd : info.definition = .expression table)
    {refusing : Prop} {floor : Precedence} {trees : List Subtree} {p q : Nat}
    (h : Evaluates l input refusing (.nonterminal s floor) p (some (q, trees))) :
    ∀ t op, input.tokens[q]? = some t → table.infixOperator? floor t = some op →
      Evaluates l input refusing (.nonterminal s op.rightFloor) (q + 1) none := by
  generalize ho : some (q, trees) = o at h
  cases h with
  | refusal => cases ho
  | undefined => cases ho
  | ruleSymbol hinfo' hd' =>
    rw [hinfo] at hinfo'
    obtain rfl := Option.some.inj hinfo'
    rw [hd] at hd'
    cases hd'
  | expressionSymbol hinfo' hd' h hmatch =>
    rw [hinfo] at hinfo'
    obtain rfl := Option.some.inj hinfo'
    rw [hd] at hd'
    cases hd'
    cases ho
    cases hmatch
    cases h with
    | expression _ hextension => exact hextension.not_right_of_extension

end

/-! ## Runs that refuse nothing -/

section

variable (l : Language) (input : Input) (depth : Nat)

/-- The states of runs in which rules are matched one after the other, each wherever it may be. -/
inductive Run.Reached : Run → Prop
  | start : Reached {}
  | next {r p built run} :
      Reached run → Reached ((Call.rule r).matcher l input depth p built run).2

/-- The evaluations of runs that refuse nothing: those of the rules that are matched, and what they
make in turn. -/
inductive Evaluation.Unrefused : Evaluation → Prop
  | root {r p built run} :
      Run.Reached l input depth run →
      ((Call.rule r).matcher l input depth p built run).2.truncated = false →
      Unrefused ⟨depth, .rule r, p, built, run⟩
  | inner {e e'} : Unrefused e → Evaluation.Makes l input e e' → Unrefused e'

end

section

variable {l : Language} {input : Input} {depth : Nat}

theorem Run.Reached.sound {run : Run} (h : run.Reached l input depth) : run.Sound l input := by
  induction h with
  | start => exact Run.sound_empty
  | @next r p built run _ ih => exact ((Call.rule r).matcher_follows l input depth).sound p built ih

theorem Evaluation.Unrefused.spec {e : Evaluation} (h : e.Unrefused l input depth) :
    e.run.Sound l input ∧ (e.result l input).2.truncated = false := by
  induction h with
  | root hrun ht => exact ⟨hrun.sound, ht⟩
  | inner _ hmakes ih =>
    obtain ⟨hsound, hkept⟩ := hmakes.spec ih.1
    refine ⟨hsound, Bool.eq_false_iff.mpr fun ht => ?_⟩
    rw [hkept ht] at ih
    exact absurd ih.2 (by decide)

theorem Language.AtRoot.reached {p : Nat} {built : List Subtree} {run : Run}
    (h : AtRoot l input depth p built run) : run.Reached l input depth := by
  induction h with
  | start => exact .start
  | @resume p built run q built' run' _ he _ ih =>
    obtain rfl : (l.applyRoot input depth p built run).2 = run' := congrArg (·.2) he
    exact @Run.Reached.next l input depth l.rootRule p built run ih

/-- What is evaluated in a parse that refuses nothing is evaluated in such a run. -/
theorem Evaluation.InParse.unrefused {e : Evaluation} (h : InParse l input depth e)
    (hparse : (l.parseRoot input depth).2 = false) : e.Unrefused l input depth := by
  induction h with
  | root hroot => exact .root hroot.reached (hroot.truncated_eq_false hparse)
  | inner _ hmakes ih => exact .inner ih hmakes

end

/-! ## The steps of a call -/

/-- A call of the symbol that a table defines. -/
structure TableCall where
  table : ExpressionTable
  symbol : Symbol
  floor : Precedence
  position : Nat
  /-- How many more symbols may be nested within. -/
  levels : Nat
  built : List Subtree
  run : Run

/-- The tokens of `1+2+3`. -/
def Input.chain : Input :=
  { tokens := #[⟨3, 0, 1⟩, ⟨1, 1, 2⟩, ⟨3, 2, 3⟩, ⟨1, 3, 4⟩, ⟨3, 4, 5⟩], length := 5 }

namespace TableCall

def evaluation (c : TableCall) : Evaluation :=
  ⟨c.levels + 1, .nonterminal c.symbol c.floor, c.position, c.built, c.run⟩

/-- The table defines the symbol, and is followed because nothing is known of the call yet. -/
structure Opens (l : Language) (c : TableCall) : Prop where
  defined : ∃ info, l.symbol? c.symbol = some info ∧ info.definition = .expression c.table
  unknown : c.run.memo[Goal.mk c.symbol c.position c.floor]? = none

section

variable (l : Language) (input : Input)

def context (c : TableCall) : ExpressionTable.Context :=
  l.tableContext input c.levels c.symbol

/-- The steps that the loop of the call has made, the last one first, with the state that they lead
to. -/
def Climbed (c : TableCall) : List ClimbStep → (turns p : Nat) → (left : List Subtree) → Run →
    Prop :=
  c.table.Climbed (c.context l input) c.floor (Language.turns input) c.position c.run

end

variable {l : Language} {input : Input} {c : TableCall} {steps : List ClimbStep} {turns p : Nat}
  {left : List Subtree} {run : Run}

theorem context_follows (l : Language) (input : Input) (c : TableCall) :
    (c.context l input).Follows l input c.symbol :=
  ExpressionTable.tableContext_follows l input c.levels c.symbol

theorem Climbed.sound (h : c.Climbed l input steps turns p left run)
    (hs : c.run.Sound l input) : run.Sound l input :=
  ExpressionTable.Climbed.sound h (c.context_follows l input) hs

-- Nothing was refused by then if nothing is refused in the call.
theorem Climbed.truncated_eq_false (h : c.Climbed l input steps turns p left run)
    (hopens : c.Opens l) (hs : c.run.Sound l input)
    (ht : (c.evaluation.result l input).2.truncated = false) : run.truncated = false := by
  obtain ⟨info, hinfo, hd⟩ := hopens.defined
  have hwhole : (c.evaluation.result l input).2.truncated =
      (c.table.matcher (c.context l input) c.floor (Language.turns input) c.position []
        c.run).2.truncated := by
    show (l.nonterminal input (c.levels + 1) c.symbol c.floor c.position c.built
      c.run).2.truncated = _
    rw [Language.nonterminal]
    simp only [hopens.unknown, hinfo, hd]
    rfl
  rw [hwhole, ExpressionTable.Climbed.matcher_eq h] at ht
  refine Bool.eq_false_iff.mpr fun hrefused => ?_
  rw [ExpressionTable.climb_kept (c.context_follows l input) turns p left run (h.sound hs)
    hrefused] at ht
  cases ht

-- The operand to the right of an operator, as the grammar read plainly gives it.
theorem Climbed.right_evaluates {op : InfixOperator} {right : Nat}
    (h : c.Climbed l input (.joined op right :: steps) turns p left run)
    (hs : c.run.Sound l input) (ht : run.truncated = false) :
    ∃ trees, Evaluates l input False (.nonterminal c.symbol op.rightFloor) right
      (some (p, trees)) := by
  have hctx := c.context_follows l input
  cases h with
  | @joined _ _ p _ run _ _ _ _ _ _ hbefore he _ hright =>
    have hfirst :=
      (ExpressionTable.firstPostfix_kept hctx c.floor p c.table.postfixOps
        (hbefore.sound hctx hs)).1
    rw [he] at hfirst
    obtain ⟨o, run', hm, hgives⟩ := hctx.again op.rightFloor (p + 1) [] _ hfirst
    rw [hright] at hm
    obtain ⟨hfound, rfl⟩ := Prod.mk.inj hm
    obtain ⟨trees, rfl, -⟩ := Phrase.Outcome.mapTrees_eq_some.mp hfound.symm
    exact ⟨trees, hgives.evaluates.mono (by simp [ht])⟩

-- The operator of a step is the one that the table has for the token where the step starts.
theorem Climbed.infixOperator? {op : InfixOperator} {right : Nat}
    (h : c.Climbed l input (.joined op right :: steps) turns p left run) :
    ∃ t start, right = start + 1 ∧ input.tokens[start]? = some t ∧
      c.table.infixOperator? c.floor t = some op := by
  cases h with
  | @joined _ _ p _ _ _ t _ _ _ _ _ _ hop _ =>
    rw [ExpressionTable.infixAt_eq] at hop
    obtain ⟨_, hu, hop⟩ := Option.bind_eq_some_iff.mp hop
    obtain ⟨op', hop', heq⟩ := Option.map_eq_some_iff.mp hop
    cases heq
    exact ⟨t, p, rfl, hu, hop'⟩

theorem Climbed.tail {step : ClimbStep} (h : c.Climbed l input (step :: steps) turns p left run) :
    ∃ turns' p' left' run', c.Climbed l input steps turns' p' left' run' := by
  cases h with
  | applied h _ => exact ⟨_, _, _, _, h⟩
  | joined h _ _ _ => exact ⟨_, _, _, _, h⟩

theorem Climbed.of_append {after : List ClimbStep}
    (h : c.Climbed l input (after ++ steps) turns p left run) :
    ∃ turns' p' left' run', c.Climbed l input steps turns' p' left' run' := by
  induction after generalizing turns p left run with
  | nil => exact ⟨_, _, _, _, h⟩
  | cons step after ih =>
    obtain ⟨_, _, _, _, htail⟩ := h.tail
    exact ih htail

-- No operator of a call binds more weakly than its floor.
theorem Climbed.floor_le {op : InfixOperator} {right : Nat}
    (h : c.Climbed l input steps turns p left run) (hstep : .joined op right ∈ steps) :
    c.floor ≤ op.precedence := by
  obtain ⟨after, before, rfl⟩ := List.append_of_mem hstep
  obtain ⟨_, _, _, _, hlast⟩ := h.of_append
  obtain ⟨t, start, -, -, hop⟩ := hlast.infixOperator?
  exact ExpressionTable.infixOperator?_le hop

-- Of two operators one after the other, the second does not reach the right operand of the first.
theorem Climbed.lt_rightFloor {op op' : InfixOperator} {right right' : Nat}
    (h : c.Climbed l input (.joined op right :: .joined op' right' :: steps) turns p left run)
    (hopens : c.Opens l) (hs : c.run.Sound l input)
    (ht : (c.evaluation.result l input).2.truncated = false) :
    op.precedence < op'.rightFloor := by
  refine Fin.not_le.mp fun hreach => ?_
  obtain ⟨info, hinfo, hd⟩ := hopens.defined
  obtain ⟨t, start, rfl, htoken, hop⟩ := h.infixOperator?
  obtain ⟨trees, hright⟩ := h.right_evaluates hs (h.truncated_eq_false hopens hs ht)
  -- the right operand of the first operator ends where the second one stands
  obtain ⟨turns', left', run', hbefore⟩ :
      ∃ turns' left' run',
        c.Climbed l input (.joined op' right' :: steps) turns' start left' run' := by
    cases h with
    | joined hbefore _ _ _ => exact ⟨_, _, _, hbefore⟩
  obtain ⟨trees', hright'⟩ :=
    hbefore.right_evaluates hs (hbefore.truncated_eq_false hopens hs ht)
  have hfloor : c.floor ≤ op'.rightFloor :=
    Fin.le_trans (hbefore.floor_le List.mem_cons_self) op'.precedence_le_rightFloor
  -- so it would have taken that operator, but for what stands to the right of it
  have hnone := hright'.not_right hinfo hd t op htoken
    (ExpressionTable.infixOperator?_of_le hop hfloor hreach)
  cases hright.unique hnone

/-- The operators of the steps of a call, the last one first, bind as the table says. -/
structure BindsBy (l : Language) (input : Input) (c : TableCall) (steps : List ClimbStep) :
    Prop where
  floor : ∀ op right, .joined op right ∈ steps → c.floor ≤ op.precedence
  /-- The call that the right operand comes from ends with an operator, if it does, that binds more
  strongly, or as strongly to the right. -/
  right : ∀ op right, .joined op right ∈ steps → ∀ c' : TableCall, c'.Opens l →
    c'.symbol = c.symbol → c'.floor = op.rightFloor → c'.position = right →
    ∀ op' right' before turns p left run,
      c'.Climbed l input (.joined op' right' :: before) turns p left run →
      (op.associativity = .left → min (op.precedence.val + 1) 255 ≤ op'.precedence.val) ∧
      (op.associativity = .right → op.precedence ≤ op'.precedence)
  /-- The operator just before, from which the left operand comes, binds more strongly, or as
  strongly to the left. -/
  left : ∀ after op right op' right' before,
    steps = after ++ .joined op right :: .joined op' right' :: before →
    op.precedence ≤ op'.precedence ∧
      (op'.precedence = op.precedence → op'.associativity = .left)

-- Operators bind as the table says in a call that starts from a sound run and refuses nothing.
theorem Climbed.bindsBy (h : c.Climbed l input steps turns p left run) (hopens : c.Opens l)
    (hs : c.run.Sound l input) (ht : (c.evaluation.result l input).2.truncated = false) :
    c.BindsBy l input steps := by
  refine ⟨fun op right hstep => h.floor_le hstep, ?_, ?_⟩
  · intro op right _ c' _ _ hfloor _ op' right' before turns p left run hright
    have hle := hright.floor_le List.mem_cons_self
    rw [hfloor] at hle
    constructor
    · intro hassoc
      rw [InfixOperator.rightFloor, hassoc, Fin.le_def, Precedence.val_next] at hle
      exact hle
    · intro hassoc
      rwa [InfixOperator.rightFloor, hassoc] at hle
  · intro after op right op' right' before hsteps
    subst hsteps
    obtain ⟨_, _, _, _, hlast⟩ := h.of_append
    have hlt := hlast.lt_rightFloor hopens hs ht
    refine ⟨Fin.not_lt.mp fun hstronger => ?_, fun heq => ?_⟩
    · exact Fin.not_le.mpr hlt (InfixOperator.rightFloor_le_of_lt hstronger)
    · cases hassoc : op'.associativity with
      | left => rfl
      | right =>
        rw [InfixOperator.rightFloor, hassoc, heq] at hlt
        exact absurd hlt (Fin.lt_irrefl _)

/-- **Operators bind as the table says.**  This holds of every call in a run that refuses nothing,
however far its loop has come. -/
theorem climbed_bindsBy {depth : Nat} (hopens : c.Opens l)
    (hrun : c.evaluation.Unrefused l input depth)
    (h : c.Climbed l input steps turns p left run) : c.BindsBy l input steps :=
  have ⟨hs, ht⟩ := hrun.spec
  h.bindsBy hopens hs ht

/-- The call for the whole of `1+2+3`. -/
def sums : TableCall :=
  { table :=
      { operand := .symbol 3
        prefixOps := []
        infixOps := [⟨1, Precedence.lowest.next, .left, 8⟩]
        postfixOps := [] }
    symbol := 7
    floor := .lowest
    position := 0
    levels := 7
    built := []
    run := {} }

theorem climbed_bindsBy_sums :
    sums.Opens .sums ∧ sums.evaluation.Unrefused .sums .chain 8 ∧
      ∃ turns p left run,
        sums.Climbed .sums .chain [.joined ⟨1, 1, .left, 8⟩ 4, .joined ⟨1, 1, .left, 8⟩ 2]
          turns p left run ∧
        sums.BindsBy .sums .chain [.joined ⟨1, 1, .left, 8⟩ 4, .joined ⟨1, 1, .left, 8⟩ 2] := by
  have hopens : sums.Opens .sums := ⟨⟨_, rfl, rfl⟩, by decide⟩
  have hrun : sums.evaluation.Unrefused .sums .chain 8 :=
    .inner (.root (r := .symbol 7) .start (by decide)) (.call (by decide))
  have hoperand : sums.Climbed .sums .chain [] _ _ _ _ := .operand rfl
  have hclimbed := (hoperand.joined rfl rfl rfl).joined rfl rfl rfl
  exact ⟨hopens, hrun, _, _, _, _, hclimbed, climbed_bindsBy hopens hrun hclimbed⟩

/-- So they do in every call, at any depth, of a parse that refuses nothing. -/
theorem bindsBy_of_inParse {depth : Nat} (hopens : c.Opens l)
    (hcall : Evaluation.InParse l input depth c.evaluation)
    (hparse : (l.parseRoot input depth).2 = false)
    (h : c.Climbed l input steps turns p left run) : c.BindsBy l input steps :=
  have ⟨hs, ht⟩ := (hcall.unrefused hparse).spec
  h.bindsBy hopens hs ht

end TableCall

end GrammarKit
