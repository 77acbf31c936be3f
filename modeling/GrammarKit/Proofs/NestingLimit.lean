import GrammarKit.Proofs.ParsedTree

/-!
# The limit on nesting

A symbol that is nested too deeply is given up, which is a failure like any other: a choice goes on
to its next alternative, and a loop ends.  A smaller limit can therefore give another tree without an
error.  Where no symbol is given up, a larger limit changes nothing, not even the table of results.
-/

namespace GrammarKit

/-! ## The same steps under a larger limit -/

/-- Unless `m` gives up a symbol, `m'` does the same; and then none was given up before. -/
def Matcher.RelaxesTo (m m' : Matcher) : Prop :=
  ∀ (p : Nat) (built : List Subtree) (run : Run), (m p built run).2.truncated = false →
    run.truncated = false ∧ m' p built run = m p built run

namespace Matcher.RelaxesTo

variable {m m' : Matcher} {first first' second second' : Matcher}

theorem step (h : m.RelaxesTo m') {p : Nat} {built : List Subtree} {run run' : Run} {found : Match}
    (he : m p built run = (found, run')) (ht : run'.truncated = false) :
    run.truncated = false ∧ m' p built run = (found, run') := by
  rw [← he]
  exact h p built run (by rwa [he])

-- A matcher that leaves the run as it is.
theorem pure (hm : ∀ p built run, (m p built run).2 = run) : m.RelaxesTo m := by
  intro p built run ht
  rw [hm] at ht
  exact ⟨ht, rfl⟩

theorem andThen (h₁ : first.RelaxesTo first') (h₂ : second.RelaxesTo second') :
    (first.andThen second).RelaxesTo (first'.andThen second') := by
  intro p built run ht
  unfold Matcher.andThen at ht ⊢
  cases he : first p built run with
  | mk found run₁ =>
    simp only [he] at ht
    cases found with
    | none =>
      obtain ⟨hrun, he'⟩ := h₁.step he ht
      exact ⟨hrun, by simp only [he']⟩
    | some next =>
      obtain ⟨hrun₁, heq⟩ := h₂ _ _ _ ht
      obtain ⟨hrun, he'⟩ := h₁.step he hrun₁
      exact ⟨hrun, by simp only [he', heq]⟩

theorem orElse (h₁ : first.RelaxesTo first') (h₂ : second.RelaxesTo second') :
    (first.orElse second).RelaxesTo (first'.orElse second') := by
  intro p built run ht
  unfold Matcher.orElse at ht ⊢
  cases he : first p built run with
  | mk found run₁ =>
    simp only [he] at ht
    cases found with
    | none =>
      obtain ⟨hrun₁, heq⟩ := h₂ _ _ _ ht
      obtain ⟨hrun, he'⟩ := h₁.step he hrun₁
      exact ⟨hrun, by simp only [he', heq]⟩
    | some next =>
      obtain ⟨hrun, he'⟩ := h₁.step he ht
      exact ⟨hrun, by simp only [he']⟩

theorem iterate (h : m.RelaxesTo m') (turns : Nat) :
    (m.iterate turns).RelaxesTo (m'.iterate turns) := by
  induction turns with
  | zero => exact pure fun _ _ _ => rfl
  | succ turns ih =>
    intro p built run ht
    unfold Matcher.iterate at ht ⊢
    cases he : m p built run with
    | mk found run₁ =>
      simp only [he] at ht
      cases found with
      | none =>
        obtain ⟨hrun, he'⟩ := h.step he ht
        exact ⟨hrun, by simp only [he']⟩
      | some next =>
        simp only at ht ⊢
        split at ht
        · rename_i hlt
          obtain ⟨hrun₁, heq⟩ := ih _ _ _ ht
          obtain ⟨hrun, he'⟩ := h.step he hrun₁
          exact ⟨hrun, by simp only [he', if_pos hlt, heq]⟩
        · rename_i hlt
          obtain ⟨hrun, he'⟩ := h.step he ht
          exact ⟨hrun, by simp only [he', if_neg hlt]⟩

end Matcher.RelaxesTo

namespace Rule

variable {refer refer' : Symbol → Matcher}

mutual

theorem matcher_relaxesTo (h : ∀ s, (refer s).RelaxesTo (refer' s)) (turns : Nat) :
    ∀ r : Rule, (r.matcher refer turns).RelaxesTo (r.matcher refer' turns)
  | .symbol s => h s
  | .seq rules => allMatcher_relaxesTo h turns rules
  | .choice rules => anyMatcher_relaxesTo h turns rules
  | .zeroOrMore r => (matcher_relaxesTo h turns r).iterate turns
  | .oneOrMore r =>
    (matcher_relaxesTo h turns r).andThen ((matcher_relaxesTo h turns r).iterate turns)
  | .optional r => (matcher_relaxesTo h turns r).orElse (.pure fun _ _ _ => rfl)

theorem allMatcher_relaxesTo (h : ∀ s, (refer s).RelaxesTo (refer' s)) (turns : Nat) :
    ∀ rules, (allMatcher refer turns rules).RelaxesTo (allMatcher refer' turns rules)
  | [] => .pure fun _ _ _ => rfl
  | r :: rules => (matcher_relaxesTo h turns r).andThen (allMatcher_relaxesTo h turns rules)

theorem anyMatcher_relaxesTo (h : ∀ s, (refer s).RelaxesTo (refer' s)) (turns : Nat) :
    ∀ rules, (anyMatcher refer turns rules).RelaxesTo (anyMatcher refer' turns rules)
  | [] => .pure fun _ _ _ => rfl
  | r :: rules => (matcher_relaxesTo h turns r).orElse (anyMatcher_relaxesTo h turns rules)

end

end Rule

namespace ExpressionTable

/-- The parts of a table are matched under a larger limit. -/
structure Context.RelaxesTo (ctx ctx' : Context) : Prop where
  input_eq : ctx'.input = ctx.input
  matchRule : ∀ r, (ctx.matchRule r).RelaxesTo (ctx'.matchRule r)
  again : ∀ floor, (ctx.again floor).RelaxesTo (ctx'.again floor)

variable {ctx ctx' : Context} {table : ExpressionTable} {floor : Precedence}

theorem Context.RelaxesTo.prefixAt_eq (h : ctx.RelaxesTo ctx') (table : ExpressionTable) (p : Nat) :
    table.prefixAt ctx' p = table.prefixAt ctx p := by
  simp only [prefixAt, h.input_eq]

theorem Context.RelaxesTo.infixAt_eq (h : ctx.RelaxesTo ctx') (table : ExpressionTable)
    (floor : Precedence) (p : Nat) : table.infixAt ctx' floor p = table.infixAt ctx floor p := by
  simp only [infixAt, h.input_eq]

theorem operandMatcher_relaxesTo (h : ctx.RelaxesTo ctx') (table : ExpressionTable) :
    (table.operandMatcher ctx).RelaxesTo (table.operandMatcher ctx') := by
  intro p built run ht
  unfold operandMatcher at ht ⊢
  rw [h.prefixAt_eq]
  cases hop : table.prefixAt ctx p with
  | none =>
    simp only [hop] at ht
    exact h.matchRule table.operand p built run ht
  | some top =>
    simp only [hop] at ht ⊢
    cases he : ctx.again top.2.precedence (p + 1) [.leaf top.1] run with
    | mk found run₁ =>
      have ht : run₁.truncated = false := by
        rw [he] at ht
        cases found <;> exact ht
      obtain ⟨hrun, he'⟩ := (h.again top.2.precedence).step he ht
      exact ⟨hrun, by rw [he', h.input_eq]⟩

theorem firstPostfix_relaxesTo (h : ctx.RelaxesTo ctx') (floor : Precedence) (p : Nat)
    (ops : List PostfixRule) (run : Run)
    (ht : (firstPostfix ctx floor p ops run).2.truncated = false) :
    run.truncated = false ∧
      firstPostfix ctx' floor p ops run = firstPostfix ctx floor p ops run := by
  induction ops generalizing run with
  | nil => exact ⟨ht, rfl⟩
  | cons op ops ih =>
    unfold firstPostfix at ht ⊢
    split at ht
    · rename_i hweak
      simpa only [if_pos hweak] using ih run ht
    · rename_i hweak
      simp only [if_neg hweak]
      cases he : ctx.matchRule op.rule p [] run with
      | mk found run₁ =>
        simp only [he] at ht
        cases found with
        | none =>
          obtain ⟨hrun₁, heq⟩ := ih run₁ ht
          obtain ⟨hrun, he'⟩ := (h.matchRule op.rule).step he hrun₁
          exact ⟨hrun, by simp only [he', heq]⟩
        | some next =>
          simp only at ht ⊢
          split at ht
          · rename_i hlt
            obtain ⟨hrun, he'⟩ := (h.matchRule op.rule).step he ht
            exact ⟨hrun, by simp only [he', if_pos hlt]⟩
          · rename_i hlt
            obtain ⟨hrun₁, heq⟩ := ih run₁ ht
            obtain ⟨hrun, he'⟩ := (h.matchRule op.rule).step he hrun₁
            exact ⟨hrun, by simp only [he', if_neg hlt, heq]⟩

theorem climb_relaxesTo (h : ctx.RelaxesTo ctx') (table : ExpressionTable) (floor : Precedence)
    (turns p : Nat) (left : List Subtree) (run : Run)
    (ht : (table.climb ctx floor turns p left run).2.truncated = false) :
    run.truncated = false ∧
      table.climb ctx' floor turns p left run = table.climb ctx floor turns p left run := by
  induction turns generalizing p left run with
  | zero => exact ⟨ht, rfl⟩
  | succ turns ih =>
    unfold climb at ht ⊢
    have hfirst := firstPostfix_relaxesTo h floor p table.postfixOps run
    cases he : firstPostfix ctx floor p table.postfixOps run with
    | mk found run₁ =>
      rw [he] at hfirst
      simp only [he] at ht
      cases found with
      | some applied =>
        obtain ⟨hrun₁, heq⟩ := ih _ _ _ ht
        obtain ⟨hrun, he'⟩ := hfirst hrun₁
        exact ⟨hrun, by simp only [he', h.input_eq, heq]⟩
      | none =>
        simp only [h.infixAt_eq] at ht ⊢
        cases hop : table.infixAt ctx floor p with
        | none =>
          simp only [hop] at ht
          obtain ⟨hrun, he'⟩ := hfirst ht
          exact ⟨hrun, by simp only [he']⟩
        | some top =>
          simp only [hop] at ht ⊢
          cases hright : ctx.again top.2.rightFloor (p + 1) [] run₁ with
          | mk right run₂ =>
            simp only [hright] at ht
            cases right with
            | none =>
              obtain ⟨hrun₁, hright'⟩ := (h.again top.2.rightFloor).step hright ht
              obtain ⟨hrun, he'⟩ := hfirst hrun₁
              exact ⟨hrun, by simp only [he', hright']⟩
            | some next =>
              obtain ⟨hrun₂, heq⟩ := ih _ _ _ ht
              obtain ⟨hrun₁, hright'⟩ := (h.again top.2.rightFloor).step hright hrun₂
              obtain ⟨hrun, he'⟩ := hfirst hrun₁
              exact ⟨hrun, by simp only [he', hright', h.input_eq, heq]⟩

theorem matcher_relaxesTo (h : ctx.RelaxesTo ctx') (table : ExpressionTable) (floor : Precedence)
    (turns : Nat) : (table.matcher ctx floor turns).RelaxesTo (table.matcher ctx' floor turns) := by
  intro p built run ht
  unfold matcher at ht ⊢
  cases he : table.operandMatcher ctx p [] run with
  | mk found run₁ =>
    simp only [he] at ht
    cases found with
    | none =>
      obtain ⟨hrun, he'⟩ := (operandMatcher_relaxesTo h table).step he ht
      exact ⟨hrun, by simp only [he']⟩
    | some next =>
      obtain ⟨hrun₁, heq⟩ := climb_relaxesTo h table floor turns _ _ _ ht
      obtain ⟨hrun, he'⟩ := (operandMatcher_relaxesTo h table).step he hrun₁
      exact ⟨hrun, by simp only [he', heq]⟩

end ExpressionTable

namespace Language

variable {l : Language} {input : Input} {depth depth' : Nat}

theorem refer_relaxesTo {call call' : Symbol → Precedence → Matcher}
    (h : ∀ s floor, (call s floor).RelaxesTo (call' s floor)) (s : Symbol) :
    (l.refer input call s).RelaxesTo (l.refer input call' s) := by
  have token : (Matcher.token input.tokens s).RelaxesTo (.token input.tokens s) := by
    refine .pure fun p built run => ?_
    unfold Matcher.token
    split
    · split <;> rfl
    · rfl
  unfold refer
  split
  · exact token
  · exact token
  · exact h s .lowest
  · exact h s .lowest
  · exact .pure fun _ _ _ => rfl

theorem matchRule_relaxesTo {call call' : Symbol → Precedence → Matcher}
    (h : ∀ s floor, (call s floor).RelaxesTo (call' s floor)) (r : Rule) :
    (l.matchRule input call r).RelaxesTo (l.matchRule input call' r) :=
  r.matcher_relaxesTo (refer_relaxesTo h) (turns input)

theorem matchDefinition_relaxesTo {call call' : Symbol → Precedence → Matcher}
    (h : ∀ s floor, (call s floor).RelaxesTo (call' s floor)) (s : Symbol) (floor : Precedence)
    (d : Definition) :
    (l.matchDefinition input call s floor d).RelaxesTo
      (l.matchDefinition input call' s floor d) := by
  cases d with
  | rule r => exact matchRule_relaxesTo h r
  | expression table =>
    have hctx : ExpressionTable.Context.RelaxesTo ⟨input, l.matchRule input call, call s⟩
        ⟨input, l.matchRule input call', call' s⟩ := ⟨rfl, matchRule_relaxesTo h, h s⟩
    exact ExpressionTable.matcher_relaxesTo hctx table floor (turns input)
  | literal | pattern | endOfInput | derived => exact .pure fun _ _ _ => rfl

-- What was found out before is used again under every limit.
theorem nonterminal_of_memo {s : Symbol} {floor : Precedence} {p : Nat} {run : Run} {found : Match}
    (hmemo : run.memo[Goal.mk s p floor]? = some found) (depth : Nat) (built : List Subtree) :
    l.nonterminal input depth s floor p built run = (found.behind built, run) := by
  cases depth <;> simp only [nonterminal, hmemo]

/-- A nonterminal under two limits. -/
theorem nonterminal_relaxesTo (h : depth ≤ depth') (s : Symbol) (floor : Precedence) :
    (l.nonterminal input depth s floor).RelaxesTo (l.nonterminal input depth' s floor) := by
  induction depth generalizing depth' s floor with
  | zero =>
    intro p built run ht
    cases hmemo : run.memo[Goal.mk s p floor]? with
    | some found =>
      rw [nonterminal_of_memo hmemo] at ht
      exact ⟨ht, by rw [nonterminal_of_memo hmemo, nonterminal_of_memo hmemo]⟩
    | none =>
      -- the symbol is given up
      simp only [nonterminal, hmemo] at ht
      cases ht
  | succ depth ih =>
    obtain ⟨deeper, rfl⟩ : ∃ deeper, depth' = deeper + 1 := ⟨depth' - 1, by omega⟩
    intro p built run ht
    cases hmemo : run.memo[Goal.mk s p floor]? with
    | some found =>
      rw [nonterminal_of_memo hmemo] at ht
      exact ⟨ht, by rw [nonterminal_of_memo hmemo, nonterminal_of_memo hmemo]⟩
    | none =>
      simp only [nonterminal, hmemo] at ht ⊢
      cases hinfo : l.symbol? s with
      | none =>
        simp only [hinfo] at ht
        exact ⟨ht, rfl⟩
      | some info =>
        simp only [hinfo] at ht ⊢
        have hcall (s : Symbol) (floor : Precedence) := ih (Nat.le_of_succ_le_succ h) s floor
        obtain ⟨hrun, heq⟩ := matchDefinition_relaxesTo hcall s floor info.definition p [] run ht
        exact ⟨hrun, by rw [heq]⟩

/-! ## Whole parses -/

-- The rule of the root under two limits.
theorem applyRoot_relaxesTo (h : depth ≤ depth') (p : Nat) (built : List Subtree) (run : Run)
    (ht : (l.applyRoot input depth p built run).2.truncated = false) :
    l.applyRoot input depth' p built run = l.applyRoot input depth p built run := by
  unfold applyRoot
  rw [(matchRule_relaxesTo (nonterminal_relaxesTo h) l.rootRule p built run ht).2]

-- The trees that were built stay where they are.
theorem mem_parseFrom {turns p : Nat} {built : List Subtree} {run : Run} {t : Subtree}
    (hs : run.Sound l input) (ht : t ∈ built) :
    t ∈ (l.parseFrom input depth turns p built run).1 := by
  induction turns generalizing p built run with
  | zero => exact ht
  | succ turns ih =>
    obtain ⟨o, run', hg, he⟩ := l.applyRoot_gives input depth p built run hs
    have hmem : t ∈ ((o.toMatch built).getD (p, built)).2 := by
      match o with
      | none => exact ht
      | some (q, ts) => exact List.mem_append_right _ ht
    rw [parseFrom_succ]
    simp only [he]
    split
    · exact ih hg.sound (List.mem_cons_of_mem _ hmem)
    · exact hmem

-- Without error nodes, the rule of the root is applied once.
theorem parseFrom_of_clean {turns p : Nat} {built : List Subtree} {run : Run}
    (hs : run.Sound l input)
    (hclean : ∀ t ∈ (l.parseFrom input depth (turns + 1) p built run).1, t.isError = false) :
    input.size ≤ (l.applyRoot input depth p built run).1.1 ∧
      l.parseFrom input depth (turns + 1) p built run =
        ((l.applyRoot input depth p built run).1.2, (l.applyRoot input depth p built run).2) := by
  obtain ⟨o, run', hg, he⟩ := l.applyRoot_gives input depth p built run hs
  rw [parseFrom_succ] at hclean ⊢
  simp only [he] at hclean ⊢
  by_cases hq : ((o.toMatch built).getD (p, built)).1 < input.size
  · -- the tokens that are left would be skipped into an error node
    rw [if_pos hq] at hclean
    have herror := hclean _ (mem_parseFrom hg.sound List.mem_cons_self)
    cases herror
  · exact ⟨Nat.not_lt.mp hq, by rw [if_neg hq]⟩

/-- A parse that gives up no symbol and skips no token is the same parse under every larger
limit. -/
theorem parseRoot_eq_of_le (h : depth ≤ depth') (ht : (l.parseRoot input depth).2 = false)
    (hclean : ∀ c ∈ (l.parseRoot input depth).1.children, c.isError = false) :
    l.parseRoot input depth' = l.parseRoot input depth := by
  have hclean' : ∀ t ∈ (l.parseFrom input depth (input.size + 1) 0 [] {}).1, t.isError = false := by
    intro t hmem
    exact hclean t (List.mem_reverse.mpr hmem)
  obtain ⟨hq, heq⟩ := parseFrom_of_clean Run.sound_empty hclean'
  have ht : (l.applyRoot input depth 0 [] {}).2.truncated = false :=
    (congrArg (·.2.truncated) heq).symm.trans ht
  have hfrom : l.parseFrom input depth' (input.size + 1) 0 [] {} =
      l.parseFrom input depth (input.size + 1) 0 [] {} := by
    rw [heq, parseFrom_succ, applyRoot_relaxesTo h 0 [] {} ht]
    simp only [if_neg (Nat.not_lt.mpr hq)]
  unfold parseRoot turns
  rw [hfrom]

end Language

/-! ## Trees without errors -/

-- Without an error node in the finished tree there is none below the root.
theorem Language.Loadable.isError_eq_false_of_textTree {l : Language} (hl : l.Loadable)
    {depth : Nat} {text : String}
    (hclean : ∀ c ∈ (l.textTree depth text).children, c.isError = false) :
    ∀ c ∈ (l.ruleTree depth text).children, c.isError = false := by
  intro c hc
  rcases (l.ruleTree_assembled depth text).skips_or_clean hl c hc with ⟨p, q, hskips⟩ | hgood
  · -- the error node would still be there when the extras were added
    have hmem : c ∈ (l.ruleTree depth text).proper :=
      List.mem_filter.mpr ⟨hc, by simp [hskips.extra]⟩
    have houtline := List.mem_map_of_mem (f := Subtree.outline) hmem
    rw [← (hl.textTree_grown depth text).outlines] at houtline
    obtain ⟨d, hd, hdc⟩ := List.mem_map.mp houtline
    have hsymbol : d.symbol = c.symbol := congrArg (·.1.symbol) hdc
    have hfalse := hclean d (List.mem_filter.mp hd).1
    rw [Subtree.isError, hsymbol] at hfalse
    exact hfalse
  · exact (Subtree.hasError_eq_false_iff.mp hgood).1

/-- **A limit that is not hit changes nothing.**  If a parse gives up no symbol and its tree has no
error node, then every larger limit gives the same tree, and gives up no symbol either. -/
theorem Parser.parse_tree_of_setMaxDepth_le {l : Language} (hl : l.Loadable) (parser : Parser)
    (hparser : parser.language = some l) (text : String) {limit larger : Nat}
    (hle : limit ≤ larger) {result : Parse}
    (hresult : (parser.setMaxDepth limit).parse text = some result)
    (hfound : result.truncated = false) (hclean : ∀ n : Node result.tree, n.isError = false) :
    ∃ result', (parser.setMaxDepth larger).parse text = some result' ∧
      result'.tree = result.tree ∧ result'.truncated = false := by
  have hdepth : min limit maxDepthLimit ≤ min larger maxDepthLimit := by omega
  obtain rfl : l.parse (min limit maxDepthLimit) text = result := by
    simpa [Parser.parse, setMaxDepth, hparser] using hresult
  refine ⟨l.parse (min larger maxDepthLimit) text,
    by simp [Parser.parse, setMaxDepth, hparser], ?_⟩
  have hchildren : ∀ c ∈ (l.textTree (min limit maxDepthLimit) text).children,
      c.isError = false := by
    intro c hc
    obtain ⟨n, -, rfl⟩ := Node.exists_child_root l text.toList hc
    rw [← n.isError_eq]
    exact hclean n
  have hroot := Language.parseRoot_eq_of_le hdepth hfound
    (hl.isError_eq_false_of_textTree hchildren)
  have htree : l.ruleTree (min larger maxDepthLimit) text =
      l.ruleTree (min limit maxDepthLimit) text := congrArg (·.1) hroot
  refine ⟨?_, (congrArg (·.2) hroot).trans hfound⟩
  rw [Language.parse_tree, Language.parse_tree, Language.textTree, Language.textTree, htree]

theorem Parser.parse_tree_of_setMaxDepth_le_sums :
    ∃ result, (({ language := some .sums } : Parser).setMaxDepth 8).parse "1+2;" = some result ∧
      result.truncated = false ∧ (∀ n : Node result.tree, n.isError = false) ∧
      ∃ result', (({ language := some .sums } : Parser).setMaxDepth 9).parse "1+2;" = some result' ∧
        result'.tree = result.tree ∧ result'.truncated = false := by
  have hclean : ∀ n : Node (Language.sums.parse 8 "1+2;").tree, n.isError = false := by
    intro ⟨i⟩
    revert i
    decide
  have hfound : (Language.sums.parse 8 "1+2;").truncated = false := by decide
  exact ⟨_, rfl, hfound, hclean, parse_tree_of_setMaxDepth_le Language.sums_loadable
    { language := some .sums } rfl "1+2;" (show 8 ≤ 9 by decide) rfl hfound hclean⟩

/-- A token that is matched by way of two symbols or, failing that, by itself. -/
def Artifact.detour : Artifact :=
  { version := 1
    name := "detour"
    symbols :=
      #[.endOfInput, .literal "a", .rule "r" (.choice [.symbol 3, .symbol 1]),
        .rule "A" (.symbol 4), .rule "B" (.symbol 1)]
    root := 2
    extras := []
    recovery := [] }

/-- The language of the detour. -/
def Language.detour : Language :=
  (ofArtifact Pattern.compile .detour 0).toOption.get rfl

-- A tree without an error node can change with the limit, as long as the limit is hit.
theorem Parser.parse_tree_ne_of_setMaxDepth_le :
    Language.detour.Loadable ∧ 1 ≤ 2 ∧ 2 ≤ maxDepthLimit ∧ ∃ result result',
      (({ language := some .detour } : Parser).setMaxDepth 1).parse "a" = some result ∧
      (({ language := some .detour } : Parser).setMaxDepth 2).parse "a" = some result' ∧
      (∀ n : Node result.tree, n.isError = false) ∧ result'.tree ≠ result.tree := by
  have hclean : ∀ n : Node (Language.detour.parse 1 "a").tree, n.isError = false := by
    intro ⟨i⟩
    revert i
    decide
  have hne : (Language.detour.parse 2 "a").tree.nodes.size ≠
      (Language.detour.parse 1 "a").tree.nodes.size := by decide
  exact ⟨⟨Pattern.compile, .detour, 0, rfl⟩, by decide, by decide, _, _, rfl, rfl, hclean,
    fun h => hne (congrArg (·.nodes.size) h)⟩

end GrammarKit
