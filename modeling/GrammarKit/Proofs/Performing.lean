import GrammarKit.Proofs.Execution

/-!
# Matchers perform executions

What the matchers of a parse compute is what comes of executions.  A matcher is handed the levels
that are left where an engine counts those that are taken, and its loops have a number of turns where
those of an engine go on for as long as they make progress.
-/

namespace GrammarKit

section

variable (l : Language) (input : Input) (limit depth : Nat)

/-- The matcher computes what comes of the phrase while `depth` nonterminals are being evaluated. -/
def Matcher.Performs (m : Matcher) (phrase : Phrase) : Prop :=
  ∀ (p : Nat) (built : List Subtree) (e : Machine), e.depth = depth → e.run.Bounded input →
    ∃ o e', m p built e.run = (o.toMatch built, e'.run) ∧
      Executes l input limit phrase p e o e'

end

variable {l : Language} {input : Input} {limit depth : Nat}

namespace Matcher.Performs

variable {m m' : Matcher} {phrase phrase' : Phrase} {r : Rule} {rs : List Rule}

-- A matcher that neither touches the run nor meets a nonterminal.
theorem pure {o : Nat → Phrase.Outcome}
    (hm : ∀ p built run, m p built run = ((o p).toMatch built, run))
    (hx : ∀ p e, Executes l input limit phrase p e (o p) e) :
    m.Performs l input limit depth phrase := by
  intro p built e _ _
  exact ⟨o p, e, hm p built e.run, hx p e⟩

-- A phrase that is worked through in the same way.
theorem map (hm : m.Performs l input limit depth phrase)
    (hx : ∀ p e o e', Executes l input limit phrase p e o e' →
      Executes l input limit phrase' p e o e') : m.Performs l input limit depth phrase' := by
  intro p built e hd hb
  obtain ⟨o, e', he, h⟩ := hm p built e hd hb
  exact ⟨o, e', he, hx p e o e' h⟩

theorem seqCons (hm : m.Performs l input limit depth (.rule r))
    (hm' : m'.Performs l input limit depth (.rule (.seq rs))) :
    (m.andThen m').Performs l input limit depth (.rule (.seq (r :: rs))) := by
  intro p built e hd hb
  obtain ⟨o, e₁, he, h₁⟩ := hm p built e hd hb
  match o with
  | none =>
    refine ⟨none, e₁, ?_, .seqFail h₁⟩
    simp only [andThen, he, Phrase.Outcome.toMatch_none]
  | some (q, ts) =>
    obtain ⟨o', e₂, he', h₂⟩ :=
      hm' q (ts.reverse ++ built) e₁ (h₁.depth_eq.trans hd) (h₁.bounded hb).1
    refine ⟨o'.mapTrees (ts ++ ·), e₂, ?_, .seqCons h₁ h₂⟩
    simp only [andThen, he, Phrase.Outcome.toMatch_some, he',
      Phrase.Outcome.toMatch_mapTrees_append]

theorem choiceCons (hm : m.Performs l input limit depth (.rule r))
    (hm' : m'.Performs l input limit depth (.rule (.choice rs))) :
    (m.orElse m').Performs l input limit depth (.rule (.choice (r :: rs))) := by
  intro p built e hd hb
  obtain ⟨o, e₁, he, h₁⟩ := hm p built e hd hb
  match o with
  | none =>
    obtain ⟨o', e₂, he', h₂⟩ := hm' p built e₁ (h₁.depth_eq.trans hd) (h₁.bounded hb).1
    refine ⟨o', e₂, ?_, .choiceLater h₁ h₂⟩
    simp only [orElse, he, Phrase.Outcome.toMatch_none, he']
  | some (q, ts) =>
    refine ⟨some (q, ts), e₁, ?_, .choiceFirst h₁⟩
    simp only [orElse, he, Phrase.Outcome.toMatch_some]

-- A loop with enough turns goes on for as long as it makes progress.
theorem iterate_of_lt (hm : m.Performs l input limit depth (.rule r)) (turns p : Nat)
    (built : List Subtree) (e : Machine) (hd : e.depth = depth) (hb : e.run.Bounded input)
    (enough : input.size - p < turns) :
    ∃ o e', m.iterate turns p built e.run = (o.toMatch built, e'.run) ∧
      Executes l input limit (.rule (.zeroOrMore r)) p e o e' := by
  induction turns generalizing p built e with
  | zero => omega
  | succ turns ih =>
    obtain ⟨o, e₁, he, h₁⟩ := hm p built e hd hb
    match o with
    | none =>
      refine ⟨some (p, []), e₁, ?_, .repeatEnd h₁ rfl⟩
      simp [Matcher.iterate, he]
    | some (q, ts) =>
      by_cases hq : p < q
      · -- progress within the input leaves fewer tokens than turns
        have hbound := Phrase.Outcome.bounded_some.mp (h₁.bounded hb).2
        have hleft : input.size - q < turns := by omega
        obtain ⟨o', e₂, he', h₂⟩ :=
          ih q (ts.reverse ++ built) e₁ (h₁.depth_eq.trans hd) (h₁.bounded hb).1 hleft
        refine ⟨o'.mapTrees (ts ++ ·), e₂, ?_, .repeatMore h₁ hq h₂⟩
        simp only [Matcher.iterate, he, Phrase.Outcome.toMatch_some, if_pos hq, he',
          Phrase.Outcome.toMatch_mapTrees_append]
      · refine ⟨some (p, []), e₁, ?_, .repeatEnd h₁ (by simp [Phrase.Outcome.advances, hq])⟩
        simp [Matcher.iterate, he, hq]

theorem iterate (hm : m.Performs l input limit depth (.rule r)) :
    (m.iterate (Language.turns input)).Performs l input limit depth (.rule (.zeroOrMore r)) := by
  intro p built e hd hb
  have enough : input.size - p < Language.turns input := by
    unfold Language.turns
    omega
  exact hm.iterate_of_lt _ p built e hd hb enough

-- A rule alone in a sequence.
theorem seqSingle (hm : m.Performs l input limit depth (.rule r)) :
    m.Performs l input limit depth (.rule (.seq [r])) := by
  intro p built e hd hb
  obtain ⟨o, e₁, he, h₁⟩ := hm p built e hd hb
  refine ⟨o, e₁, he, ?_⟩
  match o with
  | none => exact .seqFail h₁
  | some (q, ts) => simpa using Executes.seqCons h₁ .seqNil

theorem oneOrMore (hm : m.Performs l input limit depth (.rule r)) :
    (m.andThen (m.iterate (Language.turns input))).Performs l input limit depth
      (.rule (.oneOrMore r)) :=
  (hm.seqCons hm.iterate.seqSingle).map fun _ _ _ _ h => .oneOrMore h

theorem optional (hm : m.Performs l input limit depth (.rule r)) :
    m.optional.Performs l input limit depth (.rule (.optional r)) := by
  have empty : succeed.Performs l input limit depth (.rule (.choice [.seq []])) :=
    .pure (o := fun p => some (p, [])) (fun _ _ _ => rfl) fun _ _ => .choiceFirst .seqNil
  exact (hm.choiceCons empty).map fun _ _ _ _ h => .optional h

end Matcher.Performs

namespace Language

variable {call : Symbol → Precedence → Matcher}

theorem refer_performs
    (hcall : ∀ s floor, (call s floor).Performs l input limit depth (.nonterminal s floor))
    (s : Symbol) : (l.refer input call s).Performs l input limit depth (.rule (.symbol s)) := by
  have token (hm : l.refer input call s = .token input.tokens s)
      (ht : l.artifact.isToken s = true) :
      (l.refer input call s).Performs l input limit depth (.rule (.symbol s)) := by
    refine .pure (o := input.leafAt s) ?_ fun _ _ => .token ht
    intro p built run
    rw [hm]
    unfold Matcher.token Input.leafAt
    cases hp : input.tokens[p]? with
    | none => rfl
    | some t =>
      by_cases hsym : t.symbol = s
      · simp [hsym, Option.filter]
      · simp [hsym, Option.filter]
  have nonterminal (hm : l.refer input call s = call s .lowest)
      (hn : l.artifact.isNonterminal s = true) :
      (l.refer input call s).Performs l input limit depth (.rule (.symbol s)) := by
    rw [hm]
    exact (hcall s .lowest).map fun _ _ _ _ h => .call hn h
  have other (hm : l.refer input call s = .fail) (ht : l.artifact.isToken s = false)
      (hn : l.artifact.isNonterminal s = false) :
      (l.refer input call s).Performs l input limit depth (.rule (.symbol s)) := by
    rw [hm]
    intro p built e _ _
    exact ⟨none, e.stray, rfl, .unparseable ht hn⟩
  cases hd : l.artifact.definition? s with
  | none =>
    apply other
    · simp [refer, hd]
    · simp [Artifact.isToken, hd]
    · simp [Artifact.isNonterminal, hd]
  | some d =>
    have ht := Artifact.isToken_eq hd
    have hn := Artifact.isNonterminal_eq hd
    cases d with
    | literal text => exact token (by simp [refer, hd]) ht
    | pattern regex => exact token (by simp [refer, hd]) ht
    | rule r => exact nonterminal (by simp [refer, hd]) hn
    | expression table => exact nonterminal (by simp [refer, hd]) hn
    | endOfInput => exact other (by simp [refer, hd]) ht hn
    | derived => exact other (by simp [refer, hd]) ht hn

mutual

theorem matcher_performs {refer : Symbol → Matcher}
    (hrefer : ∀ s, (refer s).Performs l input limit depth (.rule (.symbol s))) :
    ∀ r : Rule, (r.matcher refer (turns input)).Performs l input limit depth (.rule r)
  | .symbol s => hrefer s
  | .seq rules => allMatcher_performs hrefer rules
  | .choice rules => anyMatcher_performs hrefer rules
  | .zeroOrMore r => (matcher_performs hrefer r).iterate
  | .oneOrMore r => (matcher_performs hrefer r).oneOrMore
  | .optional r => (matcher_performs hrefer r).optional

theorem allMatcher_performs {refer : Symbol → Matcher}
    (hrefer : ∀ s, (refer s).Performs l input limit depth (.rule (.symbol s))) :
    ∀ rules : List Rule,
      (Rule.allMatcher refer (turns input) rules).Performs l input limit depth (.rule (.seq rules))
  | [] => .pure (o := fun p => some (p, [])) (fun _ _ _ => rfl) fun _ _ => .seqNil
  | r :: rules => (matcher_performs hrefer r).seqCons (allMatcher_performs hrefer rules)

theorem anyMatcher_performs {refer : Symbol → Matcher}
    (hrefer : ∀ s, (refer s).Performs l input limit depth (.rule (.symbol s))) :
    ∀ rules : List Rule,
      (Rule.anyMatcher refer (turns input) rules).Performs l input limit depth
        (.rule (.choice rules))
  | [] => .pure (o := fun _ => none) (fun _ _ _ => rfl) fun _ _ => .choiceNil
  | r :: rules => (matcher_performs hrefer r).choiceCons (anyMatcher_performs hrefer rules)

end

theorem matchRule_performs
    (hcall : ∀ s floor, (call s floor).Performs l input limit depth (.nonterminal s floor))
    (r : Rule) : (l.matchRule input call r).Performs l input limit depth (.rule r) :=
  matcher_performs (refer_performs hcall) r

end Language

namespace ExpressionTable

variable {table : ExpressionTable} {s : Symbol} {matchRule : Rule → Matcher}
  {again : Precedence → Matcher}

theorem operandMatcher_performs (table : ExpressionTable)
    (hrule : ∀ r, (matchRule r).Performs l input limit depth (.rule r))
    (hagain : ∀ floor, (again floor).Performs l input limit depth (.nonterminal s floor)) :
    (table.operandMatcher ⟨input, matchRule, again⟩).Performs l input limit depth
      (.operand s table) := by
  intro p built e hd hb
  unfold operandMatcher
  rw [prefixAt_eq]
  cases hp : input.tokens[p]? with
  | none =>
    obtain ⟨o, e', hm, h⟩ := hrule table.operand p built e hd hb
    exact ⟨o, e', by simpa [hp] using hm, .operand (by simp [hp]) h⟩
  | some t =>
    cases hop : table.prefixOperator? t with
    | none =>
      obtain ⟨o, e', hm, h⟩ := hrule table.operand p built e hd hb
      exact ⟨o, e', by simpa [hp, hop] using hm, .operand (by simp [hp, hop]) h⟩
    | some op =>
      obtain ⟨o, e', hm, h⟩ := hagain op.precedence (p + 1) [.leaf t] e hd hb
      refine ⟨_, e', ?_, .prefixed hp hop h⟩
      match o with
      | none => simp [hop, hm]
      | some (q, ts) => simp [hop, hm]

theorem firstPostfix_performs (hrule : ∀ r, (matchRule r).Performs l input limit depth (.rule r))
    (again : Precedence → Matcher) (floor : Precedence) (p : Nat) (left : List Subtree)
    (ops : List PostfixRule) (e : Machine) (hd : e.depth = depth) (hb : e.run.Bounded input) :
    ∃ found e', firstPostfix ⟨input, matchRule, again⟩ floor p ops e.run = (found, e'.run) ∧
      Executes l input limit (.application floor ops left) p e
        (appliedTo left (input.offset p) found) e' := by
  induction ops generalizing e with
  | nil => exact ⟨none, e, rfl, .applyNone⟩
  | cons op ops ih =>
    unfold firstPostfix
    by_cases hw : op.precedence < floor
    · obtain ⟨found, e', hm, h⟩ := ih e hd hb
      exact ⟨found, e', by simpa [hw] using hm, .applyWeak hw h⟩
    · have hf := Fin.not_lt.mp hw
      obtain ⟨o, e₁, hm₁, h₁⟩ := hrule op.rule p [] e hd hb
      obtain ⟨found, e₂, hm₂, h₂⟩ := ih e₁ (h₁.depth_eq.trans hd) (h₁.bounded hb).1
      cases o with
      | none => exact ⟨found, e₂, by simp [hw, hm₁, hm₂], .applyLater hf h₁ rfl h₂⟩
      | some result =>
        obtain ⟨q, ts⟩ := result
        by_cases hq : p < q
        · refine ⟨some (op.node, q, ts.reverse), e₁, by simp [hw, hm₁, hq], ?_⟩
          have happly : Executes l input limit (.application floor (op :: ops) left) p e _ e₁ :=
            .apply hf h₁ hq
          simpa [appliedTo] using happly
        · have hstill : Phrase.Outcome.advances (some (q, ts)) p = false := by
            simp [Phrase.Outcome.advances, hq]
          exact ⟨found, e₂, by simp [hw, hm₁, hq, hm₂], .applyLater hf h₁ hstill h₂⟩

-- A postfix rule takes a token.
theorem lt_of_applies {floor : Precedence} {ops : List PostfixRule} {left ts : List Subtree}
    {p q : Nat} {e e' : Machine}
    (h : Executes l input limit (.application floor ops left) p e (some (q, ts)) e') : p < q := by
  induction ops generalizing e with
  | nil => cases h
  | cons op ops ih =>
    cases h with
    | applyWeak _ h => exact ih h
    | apply _ _ hq => exact hq
    | applyLater _ _ _ h => exact ih h

theorem climb_performs (table : ExpressionTable)
    (hrule : ∀ r, (matchRule r).Performs l input limit depth (.rule r))
    (hagain : ∀ floor, (again floor).Performs l input limit depth (.nonterminal s floor))
    (floor : Precedence) (turns p : Nat) (left : List Subtree) (e : Machine)
    (hd : e.depth = depth) (hb : e.run.Bounded input) (enough : input.size - p < turns) :
    ∃ next trees e',
      table.climb ⟨input, matchRule, again⟩ floor turns p left.reverse e.run =
        ((next, trees.reverse), e'.run) ∧
      Executes l input limit (.extension s table floor left) p e (some (next, trees)) e' := by
  induction turns generalizing p left e with
  | zero => omega
  | succ turns ih =>
    unfold climb
    obtain ⟨found, e₁, hm₁, h₁⟩ :=
      firstPostfix_performs hrule again floor p left table.postfixOps e hd hb
    have hd₁ := h₁.depth_eq.trans hd
    have hb₁ := h₁.bounded hb
    cases found with
    | some result =>
      obtain ⟨kind, q, ts⟩ := result
      -- a postfix rule takes a token, so that fewer are left than turns
      have hq := lt_of_applies h₁
      have hbound := Phrase.Outcome.bounded_some.mp hb₁.2
      have hleft : input.size - q < turns := by omega
      obtain ⟨next, trees, e₂, hm₂, h₂⟩ := ih q
        [.node kind (left ++ ts.reverse) (input.offset p)] e₁ hd₁ hb₁.1 hleft
      refine ⟨next, trees, e₂, ?_, .applied h₁ h₂⟩
      simpa [hm₁] using hm₂
    | none =>
      rw [infixAt_eq]
      cases hp : input.tokens[p]? with
      | none => exact ⟨p, left, e₁, by simp [hm₁], .noOperator h₁ (by simp [hp])⟩
      | some t =>
        cases hop : table.infixOperator? floor t with
        | none =>
          exact ⟨p, left, e₁, by simp [hm₁, hop], .noOperator h₁ (by simp [hp, hop])⟩
        | some op =>
          obtain ⟨o, e₂, hm₂, h₂⟩ := hagain op.rightFloor (p + 1) [] e₁ hd₁ hb₁.1
          cases o with
          | none =>
            exact ⟨p, left, e₂, by simp [hm₁, hop, hm₂], .noRight h₁ hp hop h₂⟩
          | some result =>
            obtain ⟨q, right⟩ := result
            -- the operator is a token, so that fewer are left than turns
            have hbound := Phrase.Outcome.bounded_some.mp (h₂.bounded hb₁.1).2
            have hp' := input.lt_size_of_getElem? hp
            have hleft : input.size - q < turns := by omega
            obtain ⟨next, trees, e₃, hm₃, h₃⟩ := ih q
              [.node op.node (left ++ .leaf t :: right) (input.offset p)] e₂
              (h₂.depth_eq.trans hd₁) (h₂.bounded hb₁.1).1 hleft
            refine ⟨next, trees, e₃, ?_, .joined h₁ hp hop h₂ h₃⟩
            simpa [hm₁, hp, hop, hm₂] using hm₃

theorem matcher_performs (table : ExpressionTable)
    (hrule : ∀ r, (matchRule r).Performs l input limit depth (.rule r))
    (hagain : ∀ floor, (again floor).Performs l input limit depth (.nonterminal s floor))
    (floor : Precedence) :
    (table.matcher ⟨input, matchRule, again⟩ floor (Language.turns input)).Performs l input limit
      depth (.expression s table floor) := by
  intro p built e hd hb
  unfold matcher
  obtain ⟨o, e₁, hm₁, h₁⟩ := operandMatcher_performs table hrule hagain p [] e hd hb
  cases o with
  | none => exact ⟨none, e₁, by simp [hm₁], .noOperand h₁⟩
  | some result =>
    obtain ⟨q, left⟩ := result
    have enough : input.size - q < Language.turns input := by
      unfold Language.turns
      omega
    obtain ⟨next, trees, e₂, hm₂, h₂⟩ := climb_performs table hrule hagain floor _ q left e₁
      (h₁.depth_eq.trans hd) (h₁.bounded hb).1 enough
    exact ⟨some (next, trees), e₂, by simp [hm₁, hm₂], .expression h₁ h₂⟩

end ExpressionTable

namespace Language

/-- A nonterminal with as many levels left as the limit allows. -/
theorem nonterminal_performs {levels : Nat} (hlevels : levels + depth = limit) (s : Symbol)
    (floor : Precedence) :
    (l.nonterminal input levels s floor).Performs l input limit depth (.nonterminal s floor) := by
  induction levels generalizing depth s floor with
  | zero =>
    intro p built e hd hb
    unfold nonterminal
    cases hmemo : e.run.memo[Goal.mk s p floor]? with
    | some found =>
      obtain ⟨o, rfl⟩ := Phrase.Outcome.exists_toMatch found
      exact ⟨o, e, by simp, .remembered hmemo⟩
    | none => exact ⟨none, e.refuse, rfl, .refused hmemo (by omega)⟩
  | succ levels ih =>
    intro p built e hd hb
    unfold nonterminal
    cases hmemo : e.run.memo[Goal.mk s p floor]? with
    | some found =>
      obtain ⟨o, rfl⟩ := Phrase.Outcome.exists_toMatch found
      exact ⟨o, e, by simp, .remembered hmemo⟩
    | none =>
      have hlt : e.depth < limit := by omega
      cases hinfo : l.symbol? s with
      | none => exact ⟨none, e.stray, by simp; rfl, .unknown hmemo hlt hinfo⟩
      | some info =>
        have hlevels : levels + (depth + 1) = limit := by omega
        have hcall (s : Symbol) (floor : Precedence) := ih hlevels s floor
        have hd' : e.enter.depth = depth + 1 := congrArg (· + 1) hd
        cases hdef : info.definition with
        | rule r =>
          obtain ⟨o, e', hm, h⟩ := matchRule_performs hcall r p [] e.enter hd' hb
          refine ⟨_, _, ?_, .ruleSymbol hmemo hlt hinfo hdef h⟩
          have hm : l.matchRule input (l.nonterminal input levels) r p [] e.run = _ := hm
          simp only [hdef, matchDefinition, hm, wrap_toMatch, Phrase.Outcome.behind_toMatch]
          rfl
        | expression table =>
          obtain ⟨o, e', hm, h⟩ := table.matcher_performs (matchRule_performs hcall) (hcall s) floor
            p [] e.enter hd' hb
          refine ⟨_, _, ?_, .expressionSymbol hmemo hlt hinfo hdef h⟩
          have hm : table.matcher _ floor _ p [] e.run = _ := hm
          simp only [hdef, matchDefinition, hm, wrap_toMatch, Phrase.Outcome.behind_toMatch]
          rfl
        | literal | pattern | endOfInput | derived =>
          refine ⟨none, _, ?_, .undefined hmemo hlt hinfo (by rw [hdef]; rfl)⟩
          simp only [hdef, matchDefinition]
          rfl

end Language

end GrammarKit
