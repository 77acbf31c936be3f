import GrammarKit.Proofs.Root

/-!
# Everything that is matched in a parse

A parse applies the rule of the root, and whatever is matched makes the matches of its parts, each
in the state of the run that the one before it left.  What holds in every run with a sound table
holds of each of them, however deeply it is nested.
-/

namespace GrammarKit

/-! ## The states of loops -/

/-- The states in which a loop with `turns` left tries its body. -/
inductive Matcher.Rounds (m : Matcher) : (turns : Nat) → (p : Nat) → (built : List Subtree) → Run →
    (p' : Nat) → (built' : List Subtree) → (run' : Run) → Prop
  | here {turns p built run} : Rounds m (turns + 1) p built run p built run
  | next {turns p built run q built₁ run₁ p' built' run'} :
      m p built run = (some (q, built₁), run₁) → p < q →
      Rounds m turns q built₁ run₁ p' built' run' →
      Rounds m (turns + 1) p built run p' built' run'

/-- A step by which an expression grows: a postfix rule, or an infix operator with the position at
which its right operand starts. -/
inductive ClimbStep where
  | applied
  | joined (op : InfixOperator) (right : Nat)

namespace ExpressionTable

/-- The states in which the rules of postfix operators are tried: the rule and the run. -/
inductive Tries (ctx : Context) (floor : Precedence) (p : Nat) : List PostfixRule → Run →
    PostfixRule → (run' : Run) → Prop
  | here {op ops run} : ¬op.precedence < floor → Tries ctx floor p (op :: ops) run op run
  | weak {op ops run op' run'} :
      op.precedence < floor → Tries ctx floor p ops run op' run' →
      Tries ctx floor p (op :: ops) run op' run'
  | failed {op ops run run₁ op' run'} :
      ¬op.precedence < floor → ctx.matchRule op.rule p [] run = (none, run₁) →
      Tries ctx floor p ops run₁ op' run' → Tries ctx floor p (op :: ops) run op' run'
  | still {op ops run q trees run₁ op' run'} :
      ¬op.precedence < floor → ctx.matchRule op.rule p [] run = (some (q, trees), run₁) → ¬p < q →
      Tries ctx floor p ops run₁ op' run' → Tries ctx floor p (op :: ops) run op' run'

/-- The steps by which an expression that starts at `first` has grown, the last one first, with the
state that they lead to: how many of the turns are left, the position, the trees of the expression
and the run. -/
inductive Climbed (table : ExpressionTable) (ctx : Context) (floor : Precedence)
    (most first : Nat) (start : Run) :
    List ClimbStep → (turns p : Nat) → (left : List Subtree) → Run → Prop
  | operand {p left run} :
      table.operandMatcher ctx first [] start = (some (p, left), run) →
      Climbed table ctx floor most first start [] most p left run
  | applied {steps turns p left run kind q trees run₁} :
      Climbed table ctx floor most first start steps (turns + 1) p left run →
      firstPostfix ctx floor p table.postfixOps run = (some (kind, q, trees), run₁) →
      Climbed table ctx floor most first start (.applied :: steps) turns q
        [.node kind (trees ++ left).reverse (ctx.input.offset p)] run₁
  | joined {steps turns p left run run₁ t op q right run₂} :
      Climbed table ctx floor most first start steps (turns + 1) p left run →
      firstPostfix ctx floor p table.postfixOps run = (none, run₁) →
      table.infixAt ctx floor p = some (t, op) →
      ctx.again op.rightFloor (p + 1) [] run₁ = (some (q, right), run₂) →
      Climbed table ctx floor most first start (.joined op (p + 1) :: steps) turns q
        [.node op.node (right ++ .leaf t :: left).reverse (ctx.input.offset p)] run₂

end ExpressionTable

/-! ## Evaluations -/

/-- What is matched: a rule, or a nonterminal with no operator below `floor`. -/
inductive Call where
  | rule (rule : Rule)
  | nonterminal (symbol : Symbol) (floor : Precedence)

namespace Call

/-- What the call means. -/
def phrase : Call → Phrase
  | .rule r => .rule r
  | .nonterminal s floor => .nonterminal s floor

/-- How the call is matched when `levels` more symbols may be nested. -/
def matcher (l : Language) (input : Input) (levels : Nat) : Call → Matcher
  | .rule r => l.matchRule input (l.nonterminal input levels) r
  | .nonterminal s floor => l.nonterminal input levels s floor

theorem matcher_follows (l : Language) (input : Input) (levels : Nat) (c : Call) :
    (c.matcher l input levels).Follows l input c.phrase := by
  cases c with
  | rule r => exact Language.matchRule_follows (l.nonterminal_follows levels) r
  | nonterminal s floor => exact l.nonterminal_follows levels s floor

end Call

/-- A call from a position on, behind trees that were built before, in a state of a run. -/
structure Evaluation where
  levels : Nat
  call : Call
  position : Nat
  built : List Subtree
  run : Run

/-- What comes of the evaluation, and the run after it. -/
def Evaluation.result (l : Language) (input : Input) (e : Evaluation) : Match × Run :=
  e.call.matcher l input e.levels e.position e.built e.run

section

variable (l : Language) (input : Input)

/-- How the table of a nonterminal is matched. -/
def Language.tableContext (levels : Nat) (s : Symbol) : ExpressionTable.Context :=
  ⟨input, l.matchRule input (l.nonterminal input levels), l.nonterminal input levels s⟩

/-- The evaluations that matching the expressions of a symbol makes itself. -/
inductive ExpressionTable.Makes (table : ExpressionTable) (levels : Nat) (s : Symbol)
    (floor : Precedence) (p : Nat) (run : Run) : Evaluation → Prop
  | prefixed {t op} :
      table.prefixAt (l.tableContext input levels s) p = some (t, op) →
      table.Makes levels s floor p run
        ⟨levels, .nonterminal s op.precedence, p + 1, [.leaf t], run⟩
  | operand :
      table.prefixAt (l.tableContext input levels s) p = none →
      table.Makes levels s floor p run ⟨levels, .rule table.operand, p, [], run⟩
  | applied {steps turns q left run₁ op run'} :
      table.Climbed (l.tableContext input levels s) floor (Language.turns input) p run steps
        (turns + 1) q left run₁ →
      Tries (l.tableContext input levels s) floor q table.postfixOps run₁ op run' →
      table.Makes levels s floor p run ⟨levels, .rule op.rule, q, [], run'⟩
  | joined {steps turns q left run₁ t op run'} :
      table.Climbed (l.tableContext input levels s) floor (Language.turns input) p run steps
        (turns + 1) q left run₁ →
      firstPostfix (l.tableContext input levels s) floor q table.postfixOps run₁ = (none, run') →
      table.infixAt (l.tableContext input levels s) floor q = some (t, op) →
      table.Makes levels s floor p run
        ⟨levels, .nonterminal s op.rightFloor, q + 1, [], run'⟩

/-- The evaluations that an evaluation makes itself, in the states in which it makes them. -/
inductive Evaluation.Makes : Evaluation → Evaluation → Prop
  | seqFirst {levels r rs p built run} :
      Makes ⟨levels, .rule (.seq (r :: rs)), p, built, run⟩ ⟨levels, .rule r, p, built, run⟩
  | seqRest {levels r rs p built run q built' run'} :
      (Call.rule r).matcher l input levels p built run = (some (q, built'), run') →
      Makes ⟨levels, .rule (.seq (r :: rs)), p, built, run⟩
        ⟨levels, .rule (.seq rs), q, built', run'⟩
  | choiceFirst {levels r rs p built run} :
      Makes ⟨levels, .rule (.choice (r :: rs)), p, built, run⟩ ⟨levels, .rule r, p, built, run⟩
  | choiceRest {levels r rs p built run run'} :
      (Call.rule r).matcher l input levels p built run = (none, run') →
      Makes ⟨levels, .rule (.choice (r :: rs)), p, built, run⟩
        ⟨levels, .rule (.choice rs), p, built, run'⟩
  | zeroOrMore {levels r p built run q built' run'} :
      ((Call.rule r).matcher l input levels).Rounds (Language.turns input) p built run
        q built' run' →
      Makes ⟨levels, .rule (.zeroOrMore r), p, built, run⟩ ⟨levels, .rule r, q, built', run'⟩
  | oneOrMoreFirst {levels r p built run} :
      Makes ⟨levels, .rule (.oneOrMore r), p, built, run⟩ ⟨levels, .rule r, p, built, run⟩
  | oneOrMoreRest {levels r p built run q built₁ run₁ q' built' run'} :
      (Call.rule r).matcher l input levels p built run = (some (q, built₁), run₁) →
      ((Call.rule r).matcher l input levels).Rounds (Language.turns input) q built₁ run₁
        q' built' run' →
      Makes ⟨levels, .rule (.oneOrMore r), p, built, run⟩ ⟨levels, .rule r, q', built', run'⟩
  | optional {levels r p built run} :
      Makes ⟨levels, .rule (.optional r), p, built, run⟩ ⟨levels, .rule r, p, built, run⟩
  | call {levels s p built run} :
      l.artifact.isNonterminal s = true →
      Makes ⟨levels, .rule (.symbol s), p, built, run⟩
        ⟨levels, .nonterminal s .lowest, p, built, run⟩
  | ruleSymbol {levels s floor p built run info r} :
      run.memo[Goal.mk s p floor]? = none → l.symbol? s = some info → info.definition = .rule r →
      Makes ⟨levels + 1, .nonterminal s floor, p, built, run⟩ ⟨levels, .rule r, p, [], run⟩
  | expressionSymbol {levels s floor p built run info table e} :
      run.memo[Goal.mk s p floor]? = none → l.symbol? s = some info →
      info.definition = .expression table → table.Makes l input levels s floor p run e →
      Makes ⟨levels + 1, .nonterminal s floor, p, built, run⟩ e

end

variable {l : Language} {input : Input}

/-! ## One evaluation in another -/

theorem Matcher.andThen_eq {m : Matcher} {p q : Nat} {built built' : List Subtree} {run run' : Run}
    (h : m p built run = (some (q, built'), run')) (m' : Matcher) :
    m.andThen m' p built run = m' q built' run' := by
  simp only [andThen, h]

theorem Matcher.orElse_eq {m : Matcher} {p : Nat} {built : List Subtree} {run run' : Run}
    (h : m p built run = (none, run')) (m' : Matcher) :
    m.orElse m' p built run = m' p built run' := by
  simp only [orElse, h]

namespace Matcher.Follows

variable {m m' : Matcher} {phrase phrase' : Phrase}

theorem kept (hm : m.Follows l input phrase) (p : Nat) (built : List Subtree) {run : Run}
    (hs : run.Sound l input) (ht : run.truncated = true) : (m p built run).2.truncated = true := by
  obtain ⟨o, run', he, h⟩ := hm p built run hs
  rw [he]
  exact h.kept ht

theorem kept_andThen (hm : m.Follows l input phrase) (hm' : m'.Follows l input phrase') {p : Nat}
    {built : List Subtree} {run : Run} (hs : run.Sound l input)
    (ht : (m p built run).2.truncated = true) : (m.andThen m' p built run).2.truncated = true := by
  have hsound := hm.sound p built hs
  unfold andThen
  cases hfound : m p built run with
  | mk found run₁ =>
    rw [hfound] at ht hsound
    cases found with
    | none => exact ht
    | some next => exact hm'.kept next.1 next.2 hsound ht

theorem kept_orElse (hm : m.Follows l input phrase) (hm' : m'.Follows l input phrase') {p : Nat}
    {built : List Subtree} {run : Run} (hs : run.Sound l input)
    (ht : (m p built run).2.truncated = true) : (m.orElse m' p built run).2.truncated = true := by
  have hsound := hm.sound p built hs
  unfold orElse
  cases hfound : m p built run with
  | mk found run₁ =>
    rw [hfound] at ht hsound
    cases found with
    | none => exact hm'.kept p built hsound ht
    | some next => exact ht

theorem kept_iterate (hm : m.Follows l input phrase) (turns p : Nat) (built : List Subtree)
    {run : Run} (hs : run.Sound l input) (ht : run.truncated = true) :
    (m.iterate turns p built run).2.truncated = true := by
  induction turns generalizing p built run with
  | zero => exact ht
  | succ turns ih =>
    have hsound := hm.sound p built hs
    have hkept := hm.kept p built hs ht
    unfold Matcher.iterate
    cases hfound : m p built run with
    | mk found run₁ =>
      rw [hfound] at hsound hkept
      cases found with
      | none => exact hkept
      | some next =>
        simp only
        split
        · exact ih next.1 next.2 hsound hkept
        · exact hkept

-- The body of a loop is tried in a sound run, and what it has to refuse the loop has to refuse.
theorem rounds (hm : m.Follows l input phrase) {turns p p' : Nat} {built built' : List Subtree}
    {run run' : Run} (h : m.Rounds turns p built run p' built' run') (hs : run.Sound l input) :
    run'.Sound l input ∧ ((m p' built' run').2.truncated = true →
      (m.iterate turns p built run).2.truncated = true) := by
  induction h with
  | @here turns p built run =>
    refine ⟨hs, fun ht => ?_⟩
    have hsound := hm.sound p built hs
    unfold Matcher.iterate
    cases hfound : m p built run with
    | mk found run₁ =>
      rw [hfound] at ht hsound
      cases found with
      | none => exact ht
      | some next =>
        simp only
        split
        · exact hm.kept_iterate turns next.1 next.2 hsound ht
        · exact ht
  | @next turns p built run q built₁ run₁ p' built' run' he hq _ ih =>
    have hsound := hm.sound p built hs
    rw [he] at hsound
    have hrest := ih hsound
    have hiterate : m.iterate (turns + 1) p built run = m.iterate turns q built₁ run₁ := by
      rw [Matcher.iterate]
      simp only [he, if_pos hq]
    rw [hiterate]
    exact hrest

end Matcher.Follows

namespace ExpressionTable

variable {table : ExpressionTable} {ctx : Context} {s : Symbol} {floor : Precedence}

/-- The parts of the table are matched as the grammar says. -/
structure Context.Follows (l : Language) (input : Input) (s : Symbol) (ctx : Context) : Prop where
  input_eq : ctx.input = input
  matchRule : ∀ r, (ctx.matchRule r).Follows l input (.rule r)
  again : ∀ floor, (ctx.again floor).Follows l input (.nonterminal s floor)

theorem tableContext_follows (l : Language) (input : Input) (levels : Nat) (s : Symbol) :
    (l.tableContext input levels s).Follows l input s where
  input_eq := rfl
  matchRule := Language.matchRule_follows (l.nonterminal_follows levels)
  again := l.nonterminal_follows levels s

theorem firstPostfix_kept (hctx : ctx.Follows l input s) (floor : Precedence) (p : Nat)
    (ops : List PostfixRule) {run : Run} (hs : run.Sound l input) :
    (firstPostfix ctx floor p ops run).2.Sound l input ∧
      (run.truncated = true → (firstPostfix ctx floor p ops run).2.truncated = true) := by
  obtain ⟨input', matchRule, again⟩ := ctx
  obtain rfl : input' = input := hctx.input_eq
  obtain ⟨found, run', he, h⟩ :=
    firstPostfix_gives hctx.matchRule again floor p [] ops run hs
  rw [he]
  exact ⟨h.sound, h.kept⟩

-- A postfix rule is tried in a sound run, and what it has to refuse the search has to refuse.
theorem tries (hctx : ctx.Follows l input s) {p : Nat} {ops : List PostfixRule} {op : PostfixRule}
    {run run' : Run} (h : Tries ctx floor p ops run op run') (hs : run.Sound l input) :
    run'.Sound l input ∧ ((ctx.matchRule op.rule p [] run').2.truncated = true →
      (firstPostfix ctx floor p ops run).2.truncated = true) := by
  induction h with
  | @here op ops run hw =>
    refine ⟨hs, fun ht => ?_⟩
    have hsound := (hctx.matchRule op.rule).sound p [] hs
    unfold firstPostfix
    rw [if_neg hw]
    cases hfound : ctx.matchRule op.rule p [] run with
    | mk found run₁ =>
      rw [hfound] at ht hsound
      have hrest := (firstPostfix_kept hctx floor p ops hsound).2 ht
      cases found with
      | none => exact hrest
      | some next =>
        simp only
        split
        · exact ht
        · exact hrest
  | weak hw _ ih =>
    rw [firstPostfix, if_pos hw]
    exact ih hs
  | @failed op ops run run₁ op' run' hw he _ ih =>
    have hsound := (hctx.matchRule op.rule).sound p [] hs
    rw [he] at hsound
    rw [firstPostfix, if_neg hw]
    simp only [he]
    exact ih hsound
  | @still op ops run q trees run₁ op' run' hw he hq _ ih =>
    have hsound := (hctx.matchRule op.rule).sound p [] hs
    rw [he] at hsound
    rw [firstPostfix, if_neg hw]
    simp only [he, if_neg hq]
    exact ih hsound

-- What the search for a postfix rule has to refuse is refused when the expression is extended, if
-- that does not forget it later on.
theorem climb_kept_of_rest (hctx : ctx.Follows l input s) {turns p : Nat} {left : List Subtree}
    {run : Run} (hs : run.Sound l input)
    (hrest : ∀ q left (run : Run), run.Sound l input → run.truncated = true →
      (table.climb ctx floor turns q left run).2.truncated = true)
    (ht : (firstPostfix ctx floor p table.postfixOps run).2.truncated = true) :
    (table.climb ctx floor (turns + 1) p left run).2.truncated = true := by
  have hsound := (firstPostfix_kept hctx floor p table.postfixOps hs).1
  unfold climb
  cases hfound : firstPostfix ctx floor p table.postfixOps run with
  | mk found run₁ =>
    rw [hfound] at hsound ht
    cases found with
    | some next => exact hrest _ _ _ hsound ht
    | none =>
      cases hop : table.infixAt ctx floor p with
      | none => exact ht
      | some top =>
        have hsound' := (hctx.again top.2.rightFloor).sound (p + 1) [] hsound
        have ht' := (hctx.again top.2.rightFloor).kept (p + 1) [] hsound ht
        simp only
        cases hright : ctx.again top.2.rightFloor (p + 1) [] run₁ with
        | mk right run₂ =>
          rw [hright] at hsound' ht'
          cases right with
          | none => exact ht'
          | some next => exact hrest _ _ _ hsound' ht'

-- Extending an expression never forgets that something was refused.
theorem climb_kept (hctx : ctx.Follows l input s) (turns p : Nat) (left : List Subtree) (run : Run)
    (hs : run.Sound l input) (ht : run.truncated = true) :
    (table.climb ctx floor turns p left run).2.truncated = true := by
  induction turns generalizing p left run with
  | zero => exact ht
  | succ turns ih =>
    have hfirst := firstPostfix_kept hctx floor p table.postfixOps hs
    exact climb_kept_of_rest hctx hs ih (hfirst.2 ht)

-- What a right operand has to refuse is refused when the expression is extended.
theorem climb_kept_of_right (hctx : ctx.Follows l input s) {turns p : Nat} {left : List Subtree}
    {run run₁ : Run} {t : Token} {op : InfixOperator} (hs : run₁.Sound l input)
    (hfirst : firstPostfix ctx floor p table.postfixOps run = (none, run₁))
    (hop : table.infixAt ctx floor p = some (t, op))
    (ht : (ctx.again op.rightFloor (p + 1) [] run₁).2.truncated = true) :
    (table.climb ctx floor (turns + 1) p left run).2.truncated = true := by
  have hsound := (hctx.again op.rightFloor).sound (p + 1) [] hs
  unfold climb
  simp only [hfirst, hop]
  cases hright : ctx.again op.rightFloor (p + 1) [] run₁ with
  | mk right run₂ =>
    rw [hright] at hsound ht
    cases right with
    | none => exact ht
    | some next => exact climb_kept hctx _ _ _ _ hsound ht

theorem Context.Follows.operand (hctx : ctx.Follows l input s) (table : ExpressionTable) :
    (table.operandMatcher ctx).Follows l input (.operand s table) := by
  obtain ⟨input', matchRule, again⟩ := ctx
  obtain rfl : input' = input := hctx.input_eq
  exact operandMatcher_follows table hctx.matchRule hctx.again

section

variable {most first turns p : Nat} {start run : Run} {steps : List ClimbStep}
  {left : List Subtree}

/-- What comes of an expression is what comes of the rest of its loop. -/
theorem Climbed.matcher_eq (h : table.Climbed ctx floor most first start steps turns p left run)
    (built : List Subtree) :
    table.matcher ctx floor most first built start =
      (some ((table.climb ctx floor turns p left run).1.1,
          (table.climb ctx floor turns p left run).1.2 ++ built),
        (table.climb ctx floor turns p left run).2) := by
  induction h with
  | operand he =>
    unfold matcher
    simp only [he]
  | applied _ he ih =>
    rw [ih, climb]
    simp only [he]
  | joined _ he hop hright ih =>
    rw [ih, climb]
    simp only [he, hop, hright]

-- The loop goes through sound runs.
theorem Climbed.sound (h : table.Climbed ctx floor most first start steps turns p left run)
    (hctx : ctx.Follows l input s) (hs : start.Sound l input) : run.Sound l input := by
  induction h with
  | operand he =>
    have := (hctx.operand table).sound first [] hs
    rwa [he] at this
  | @applied _ _ p _ _ _ _ _ _ _ he ih =>
    have := (firstPostfix_kept hctx floor p table.postfixOps ih).1
    rwa [he] at this
  | @joined _ _ p _ _ _ _ op _ _ _ _ he _ hright ih =>
    have hfirst := (firstPostfix_kept hctx floor p table.postfixOps ih).1
    rw [he] at hfirst
    have := (hctx.again op.rightFloor).sound (p + 1) [] hfirst
    rwa [hright] at this

end

-- What an operand has to refuse the expression has to refuse.
theorem matcher_kept_of_operand (hctx : ctx.Follows l input s) {turns p : Nat}
    {built : List Subtree} {run : Run} (hs : run.Sound l input)
    (ht : (table.operandMatcher ctx p [] run).2.truncated = true) :
    (table.matcher ctx floor turns p built run).2.truncated = true := by
  have hsound := (hctx.operand table).sound p [] hs
  unfold matcher
  cases hfound : table.operandMatcher ctx p [] run with
  | mk found run₁ =>
    rw [hfound] at hsound ht
    cases found with
    | none => exact ht
    | some next => exact climb_kept hctx _ _ _ _ hsound ht

/-- What is matched for an expression is matched in a sound run, and what it has to refuse the
expression has to refuse. -/
theorem Makes.spec {levels p : Nat} {run : Run} {e : Evaluation}
    (h : table.Makes l input levels s floor p run e) (hs : run.Sound l input) :
    e.run.Sound l input ∧ ((e.result l input).2.truncated = true →
      (table.matcher (l.tableContext input levels s) floor (Language.turns input)
        p [] run).2.truncated = true) := by
  have hctx := tableContext_follows l input levels s
  cases h with
  | @prefixed t op hop =>
    refine ⟨hs, fun ht => matcher_kept_of_operand hctx hs ?_⟩
    unfold operandMatcher
    simp only [hop]
    cases hfound : (l.tableContext input levels s).again op.precedence (p + 1) [.leaf t] run with
    | mk found run₁ =>
      have ht : run₁.truncated = true := (congrArg (·.2.truncated) hfound).symm.trans ht
      cases found <;> exact ht
  | operand hop =>
    refine ⟨hs, fun ht => matcher_kept_of_operand hctx hs ?_⟩
    unfold operandMatcher
    simp only [hop]
    exact ht
  | @applied steps turns q left run₁ op run' hclimbed htries =>
    have hsound := hclimbed.sound hctx hs
    obtain ⟨hsound', hkept⟩ := tries hctx htries hsound
    refine ⟨hsound', fun ht => ?_⟩
    -- the way from there on is the rest of the whole way
    rw [hclimbed.matcher_eq]
    exact climb_kept_of_rest hctx hsound (climb_kept hctx turns) (hkept ht)
  | @joined steps turns q left run₁ t op run' hclimbed hfirst hop =>
    have hsound := (firstPostfix_kept hctx floor q table.postfixOps (hclimbed.sound hctx hs)).1
    rw [hfirst] at hsound
    refine ⟨hsound, fun ht => ?_⟩
    rw [hclimbed.matcher_eq]
    exact climb_kept_of_right hctx hsound hfirst hop ht

end ExpressionTable

/-- What an evaluation makes itself starts from a sound run, and what it has to refuse the
evaluation has to refuse. -/
theorem Evaluation.Makes.spec {e e' : Evaluation} (h : Makes l input e e')
    (hs : e.run.Sound l input) :
    e'.run.Sound l input ∧
      ((e'.result l input).2.truncated = true → (e.result l input).2.truncated = true) := by
  have hcall (c : Call) (levels : Nat) := c.matcher_follows l input levels
  cases h with
  | @seqFirst levels r rs p built run =>
    refine ⟨hs, fun ht => ?_⟩
    exact (hcall (.rule r) levels).kept_andThen (hcall (.rule (.seq rs)) levels) hs ht
  | @seqRest levels r rs p built run q built' run' he =>
    have hsound := (hcall (.rule r) levels).sound p built hs
    rw [he] at hsound
    refine ⟨hsound, fun ht => ?_⟩
    exact (congrArg (·.2.truncated) (Matcher.andThen_eq he _)).trans ht
  | @choiceFirst levels r rs p built run =>
    refine ⟨hs, fun ht => ?_⟩
    exact (hcall (.rule r) levels).kept_orElse (hcall (.rule (.choice rs)) levels) hs ht
  | @choiceRest levels r rs p built run run' he =>
    have hsound := (hcall (.rule r) levels).sound p built hs
    rw [he] at hsound
    refine ⟨hsound, fun ht => ?_⟩
    exact (congrArg (·.2.truncated) (Matcher.orElse_eq he _)).trans ht
  | @zeroOrMore levels r p built run q built' run' hrounds =>
    exact (hcall (.rule r) levels).rounds hrounds hs
  | @oneOrMoreFirst levels r p built run =>
    refine ⟨hs, fun ht => ?_⟩
    exact (hcall (.rule r) levels).kept_andThen (hcall (.rule (.zeroOrMore r)) levels) hs ht
  | @oneOrMoreRest levels r p built run q built₁ run₁ q' built' run' he hrounds =>
    have hsound := (hcall (.rule r) levels).sound p built hs
    rw [he] at hsound
    obtain ⟨hsound', hkept⟩ := (hcall (.rule r) levels).rounds hrounds hsound
    refine ⟨hsound', fun ht => ?_⟩
    exact (congrArg (·.2.truncated) (Matcher.andThen_eq he _)).trans (hkept ht)
  | @optional levels r p built run =>
    refine ⟨hs, fun ht => ?_⟩
    exact (hcall (.rule r) levels).kept_orElse (hcall (.rule (.seq [])) levels) hs ht
  | @call levels s p built run hnonterminal =>
    refine ⟨hs, fun ht => ?_⟩
    -- a symbol of a rule or a table is matched as a nonterminal
    have hrefer : l.refer input (l.nonterminal input levels) s =
        l.nonterminal input levels s .lowest := by
      unfold Artifact.isNonterminal at hnonterminal
      unfold Language.refer
      cases hd : l.artifact.definition? s with
      | none => simp [hd] at hnonterminal
      | some d => cases d <;> simp_all [Definition.isNonterminal]
    show (l.refer input (l.nonterminal input levels) s p built run).2.truncated = true
    rw [hrefer]
    exact ht
  | @ruleSymbol levels s floor p built run info r hmemo hinfo hd =>
    refine ⟨hs, fun ht => ?_⟩
    show (l.nonterminal input (levels + 1) s floor p built run).2.truncated = true
    rw [Language.nonterminal]
    simp only [hmemo, hinfo, hd]
    exact ht
  | @expressionSymbol levels s floor p built run info table e hmemo hinfo hd hmakes =>
    obtain ⟨hsound, hkept⟩ := hmakes.spec hs
    refine ⟨hsound, fun ht => ?_⟩
    show (l.nonterminal input (levels + 1) s floor p built run).2.truncated = true
    rw [Language.nonterminal]
    simp only [hmemo, hinfo, hd]
    exact hkept ht

/-! ## The table cannot be seen -/

namespace Evaluation

variable {depth : Nat}

/-- The evaluations of a parse: those of the rule of the root, and what they make in turn. -/
inductive InParse (l : Language) (input : Input) (depth : Nat) : Evaluation → Prop
  | root {p built run} :
      Language.AtRoot l input depth p built run →
      InParse l input depth ⟨depth, .rule l.rootRule, p, built, run⟩
  | inner {e e'} : InParse l input depth e → Makes l input e e' → InParse l input depth e'

/-- Every evaluation of a parse starts from a sound run, and nothing is refused in it if nothing is
refused in the parse. -/
theorem InParse.spec {e : Evaluation} (h : InParse l input depth e)
    (hparse : (l.parseRoot input depth).2 = false) :
    e.run.Sound l input ∧ (e.result l input).2.truncated = false := by
  induction h with
  | root hroot => exact ⟨hroot.sound, hroot.truncated_eq_false hparse⟩
  | inner _ hmakes ih =>
    -- a refusal within would have been one of the whole
    obtain ⟨hsound, hkept⟩ := hmakes.spec ih.1
    refine ⟨hsound, Bool.eq_false_iff.mpr fun ht => ?_⟩
    rw [hkept ht] at ih
    exact absurd ih.2 (by decide)

/-- The grammar read plainly, without a table and without a limit, gives exactly one outcome for the
call, and the evaluation returns it. -/
def IsPlain (l : Language) (input : Input) (e : Evaluation) : Prop :=
  ∃ o, (∀ o', Evaluates l input False e.call.phrase e.position o' ↔ o' = o) ∧
    (e.result l input).1 = o.toMatch e.built

-- Where nothing is refused, a sound table does not change what is matched.
theorem isPlain_of_sound {e : Evaluation} (hs : e.run.Sound l input)
    (ht : (e.result l input).2.truncated = false) : e.IsPlain l input := by
  obtain ⟨o, run', hm, h⟩ :=
    e.call.matcher_follows l input e.levels e.position e.built e.run hs
  have ht : run'.truncated = false := (congrArg (·.2.truncated) hm).symm.trans ht
  have he : Evaluates l input False e.call.phrase e.position o := h.evaluates.mono (by simp [ht])
  refine ⟨o, fun o' => ⟨fun h' => h'.unique he, ?_⟩, congrArg (·.1) hm⟩
  rintro rfl
  exact he

end Evaluation

/-- **The table of results cannot be seen.**  If a parse refuses no symbol, then whatever is matched
in it, at any depth, gives exactly what the grammar read plainly gives there. -/
theorem Language.memo_invisible (l : Language) (input : Input) (depth : Nat)
    (hparse : (l.parseRoot input depth).2 = false) :
    ∀ e, Evaluation.InParse l input depth e → e.IsPlain l input := by
  intro e he
  obtain ⟨hsound, ht⟩ := he.spec hparse
  exact Evaluation.isPlain_of_sound hsound ht

/-- The tokens of `1+2;`. -/
def Input.sums : Input :=
  { tokens := #[⟨3, 0, 1⟩, ⟨1, 1, 2⟩, ⟨3, 2, 3⟩, ⟨2, 3, 4⟩], length := 4 }

theorem Language.memo_invisible_sums :
    (Language.sums.parseRoot .sums 8).2 = false ∧
      (⟨8, .rule Language.sums.rootRule, 0, [], {}⟩ : Evaluation).IsPlain .sums .sums :=
  ⟨by decide, memo_invisible .sums .sums 8 (by decide) _ (.root .start)⟩

end GrammarKit
