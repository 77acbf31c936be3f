import GrammarKit.Proofs.Meaning

/-!
# The table of results
-/

namespace GrammarKit

section

variable (l : Language) (input : Input)

/-- Every result in the table of a run is what comes of its goal; refusals are taken into account
once the run had to refuse something. -/
def Run.Sound (run : Run) : Prop :=
  ∀ (g : Goal) (found : Match), run.memo[g]? = some found →
    ∃ o, Evaluates l input (run.truncated = true) (.nonterminal g.symbol g.floor) g.position o ∧
      found = o.toMatch []

/-- The run `run'` comes out of `run` by matching a phrase at a position with the given outcome. -/
structure Run.Gives (run : Run) (phrase : Phrase) (position : Nat) (o : Phrase.Outcome)
    (run' : Run) : Prop where
  sound : run'.Sound l input
  kept : run.truncated = true → run'.truncated = true
  evaluates : Evaluates l input (run'.truncated = true) phrase position o

/-- The matcher does what the phrase says, in every run with a sound table. -/
def Matcher.Follows (m : Matcher) (phrase : Phrase) : Prop :=
  ∀ (position : Nat) (built : List Subtree) (run : Run), run.Sound l input →
    ∃ o run', m position built run = (o.toMatch built, run') ∧
      run.Gives l input phrase position o run'

end

variable {l : Language} {input : Input}

theorem Run.sound_empty : Run.Sound l input {} := by
  intro g found h
  simp at h

namespace Run.Gives

variable {run run₁ run₂ : Run} {phrase phrase₁ phrase₂ : Phrase} {p q : Nat}
  {o o₁ o₂ : Phrase.Outcome}

-- A run that nothing was done to.
theorem refl (hs : run.Sound l input)
    (he : Evaluates l input (run.truncated = true) phrase p o) : run.Gives l input phrase p o run :=
  ⟨hs, id, he⟩

-- What came out before the last step of a run, seen from its end.
theorem lift (h₁ : run.Gives l input phrase₁ p o₁ run₁)
    (h₂ : run₁.Gives l input phrase₂ q o₂ run₂) :
    Evaluates l input (run₂.truncated = true) phrase₁ p o₁ :=
  h₁.evaluates.mono h₂.kept

-- Two steps of a run make one.
theorem trans (h₁ : run.Gives l input phrase₁ p o₁ run₁)
    (h₂ : run₁.Gives l input phrase₂ q o₂ run₂)
    (he : Evaluates l input (run₂.truncated = true) phrase₁ p o₁ →
      Evaluates l input (run₂.truncated = true) phrase₂ q o₂ →
      Evaluates l input (run₂.truncated = true) phrase p o) :
    run.Gives l input phrase p o run₂ :=
  ⟨h₂.sound, fun h => h₂.kept (h₁.kept h), he (h₁.lift h₂) h₂.evaluates⟩

-- A step that means another phrase.
theorem map (h : run.Gives l input phrase₁ p o₁ run₁)
    (he : Evaluates l input (run₁.truncated = true) phrase₁ p o₁ →
      Evaluates l input (run₁.truncated = true) phrase q o) :
    run.Gives l input phrase q o run₁ :=
  ⟨h.sound, h.kept, he h.evaluates⟩

-- A run stays sound when it keeps the result of a goal.
theorem remember {g : Goal}
    (h : run.Gives l input (.nonterminal g.symbol g.floor) g.position o run₁) :
    run.Gives l input (.nonterminal g.symbol g.floor) g.position o
      { run₁ with memo := run₁.memo.insert g (o.toMatch []) } := by
  refine ⟨?_, h.kept, h.evaluates⟩
  intro g' found hg
  -- only the entry of `g` is new, and it says what was just found out
  rw [Std.TreeMap.getElem?_insert] at hg
  split at hg
  · rename_i heq
    obtain rfl := Std.LawfulEqCmp.eq_of_compare heq
    obtain rfl := Option.some.inj hg
    exact ⟨o, h.evaluates, rfl⟩
  · exact h.sound g' found hg

-- A symbol that is given up.
theorem refuse {s : Symbol} {floor : Precedence} (hs : run.Sound l input) :
    run.Gives l input (.nonterminal s floor) p none { run with truncated := true } := by
  -- from now on every entry may rest on a refusal, which allows more than before
  refine ⟨?_, fun _ => rfl, .refusal rfl⟩
  intro g found hg
  obtain ⟨o, he, ho⟩ := hs g found hg
  exact ⟨o, he.mono fun _ => rfl, ho⟩

end Run.Gives

namespace Matcher.Follows

variable {m : Matcher} {phrase phrase' : Phrase} {r : Rule} {rs : List Rule}

-- A matcher that returns what comes of a phrase without touching the run.
theorem pure {o : Nat → Phrase.Outcome}
    (hm : ∀ p built run, m p built run = ((o p).toMatch built, run))
    (he : ∀ p (refusing : Prop), Evaluates l input refusing phrase p (o p)) :
    m.Follows l input phrase := by
  intro p built run hs
  exact ⟨o p, run, hm p built run, .refl hs (he p _)⟩

-- A phrase that means the same.
theorem map (hm : m.Follows l input phrase)
    (he : ∀ p o (refusing : Prop), Evaluates l input refusing phrase p o →
      Evaluates l input refusing phrase' p o) : m.Follows l input phrase' := by
  intro p built run hs
  obtain ⟨o, run', hm, h⟩ := hm p built run hs
  exact ⟨o, run', hm, h.map (he p o _)⟩

-- Rules one after the other.
theorem seqCons {m' : Matcher} (hm : m.Follows l input (.rule r))
    (hm' : m'.Follows l input (.rule (.seq rs))) :
    (m.andThen m').Follows l input (.rule (.seq (r :: rs))) := by
  intro p built run hs
  obtain ⟨o, run₁, he, h₁⟩ := hm p built run hs
  match o with
  | none =>
    refine ⟨none, run₁, ?_, h₁.map .seqFail⟩
    simp only [andThen, he, Phrase.Outcome.toMatch_none]
  | some (q, ts) =>
    obtain ⟨o', run₂, he', h₂⟩ := hm' q (ts.reverse ++ built) run₁ h₁.sound
    refine ⟨o'.mapTrees (ts ++ ·), run₂, ?_, h₁.trans h₂ .seqCons⟩
    simp only [andThen, he, Phrase.Outcome.toMatch_some, he',
      Phrase.Outcome.toMatch_mapTrees_append]

-- Ordered choice.
theorem choiceCons {m' : Matcher} (hm : m.Follows l input (.rule r))
    (hm' : m'.Follows l input (.rule (.choice rs))) :
    (m.orElse m').Follows l input (.rule (.choice (r :: rs))) := by
  intro p built run hs
  obtain ⟨o, run₁, he, h₁⟩ := hm p built run hs
  match o with
  | none =>
    obtain ⟨o', run₂, he', h₂⟩ := hm' p built run₁ h₁.sound
    refine ⟨o', run₂, ?_, h₁.trans h₂ .choiceLater⟩
    simp only [orElse, he, Phrase.Outcome.toMatch_none, he']
  | some (q, ts) =>
    refine ⟨some (q, ts), run₁, ?_, h₁.map .choiceFirst⟩
    simp only [orElse, he, Phrase.Outcome.toMatch_some]

-- A loop with enough turns.
theorem iterate_of_lt (hm : m.Follows l input (.rule r)) (turns p : Nat)
    (built : List Subtree) (run : Run) (hs : run.Sound l input)
    (enough : input.size - p < turns) :
    ∃ o run', m.iterate turns p built run = (o.toMatch built, run') ∧
      run.Gives l input (.rule (.zeroOrMore r)) p o run' := by
  induction turns generalizing p built run with
  | zero => omega
  | succ turns ih =>
    obtain ⟨o, run₁, he, h₁⟩ := hm p built run hs
    match o with
    | none =>
      refine ⟨some (p, []), run₁, ?_, h₁.map .repeatFail⟩
      simp [Matcher.iterate, he]
    | some (q, ts) =>
      by_cases hq : p < q
      · -- progress within the input leaves fewer tokens than turns
        have := h₁.evaluates.bounds
        obtain ⟨o', run₂, he', h₂⟩ := ih q (ts.reverse ++ built) run₁ h₁.sound (by omega)
        refine ⟨o'.mapTrees (ts ++ ·), run₂, ?_, h₁.trans h₂ fun h => .repeatMore h hq⟩
        simp only [Matcher.iterate, he, Phrase.Outcome.toMatch_some, if_pos hq, he',
          Phrase.Outcome.toMatch_mapTrees_append]
      · refine ⟨some (p, []), run₁, ?_, h₁.map fun h => .repeatStill h (Nat.not_lt.mp hq)⟩
        simp [Matcher.iterate, he, hq]

theorem iterate (hm : m.Follows l input (.rule r)) :
    (m.iterate (Language.turns input)).Follows l input (.rule (.zeroOrMore r)) := by
  intro p built run hs
  exact hm.iterate_of_lt _ p built run hs (by unfold Language.turns; omega)

theorem oneOrMore (hm : m.Follows l input (.rule r)) :
    (m.andThen (m.iterate (Language.turns input))).Follows l input (.rule (.oneOrMore r)) :=
  (hm.seqCons (hm.iterate.map fun _ _ _ h => h.seqSingle)).map fun _ _ _ h => .oneOrMore h

theorem optional (hm : m.Follows l input (.rule r)) :
    m.optional.Follows l input (.rule (.optional r)) := by
  have empty : succeed.Follows l input (.rule (.choice [.seq []])) :=
    .pure (fun _ _ _ => rfl) fun _ _ => .choiceFirst .seqNil
  exact (hm.choiceCons empty).map fun _ _ _ h => .optional h

theorem sound (hm : m.Follows l input phrase) (p : Nat) (built : List Subtree) {run : Run}
    (hs : run.Sound l input) : (m p built run).2.Sound l input := by
  obtain ⟨o, run', he, h⟩ := hm p built run hs
  rw [he]
  exact h.sound

end Matcher.Follows

namespace Language

variable {call : Symbol → Precedence → Matcher}

-- The symbols that rules refer to.
theorem refer_follows
    (hcall : ∀ s floor, (call s floor).Follows l input (.nonterminal s floor)) (s : Symbol) :
    (l.refer input call s).Follows l input (.rule (.symbol s)) := by
  have other (hm : ∀ p built run, l.refer input call s p built run = (none, run))
      (ht : l.artifact.isToken s = false) (hn : l.artifact.isNonterminal s = false) :
      (l.refer input call s).Follows l input (.rule (.symbol s)) :=
    .pure (o := fun _ => none) hm fun _ _ => .unparseable ht hn
  have token (hm : l.refer input call s = .token input.tokens s)
      (ht : l.artifact.isToken s = true) :
      (l.refer input call s).Follows l input (.rule (.symbol s)) := by
    rw [hm]
    intro p built run hs
    unfold Matcher.token
    cases hp : input.tokens[p]? with
    | none => exact ⟨none, run, rfl, .refl hs (.otherToken ht (by simp [hp]))⟩
    | some t =>
      by_cases hsym : t.symbol = s
      · exact ⟨some (p + 1, [.leaf t]), run, by simp [hsym], .refl hs (.token ht hp hsym)⟩
      · exact ⟨none, run, by simp [hsym], .refl hs (.otherToken ht (by simpa [hp] using hsym))⟩
  have nonterminal (hm : l.refer input call s = call s .lowest)
      (hn : l.artifact.isNonterminal s = true) :
      (l.refer input call s).Follows l input (.rule (.symbol s)) := by
    rw [hm]
    exact (hcall s .lowest).map fun _ _ _ h => .call hn h
  cases hd : l.artifact.definition? s with
  | none =>
    apply other
    · intro p built run
      simp [refer, hd, Matcher.fail]
    · simp [Artifact.isToken, hd]
    · simp [Artifact.isNonterminal, hd]
  | some d =>
    have ht := Artifact.isToken_eq hd
    have hn := Artifact.isNonterminal_eq hd
    cases d with
    | literal text => exact token (by simp [refer, hd]) ht
    | pattern regex => exact token (by simp [refer, hd]) ht
    | rule r => exact nonterminal (by simp [refer, hd]) hn
    | expression table => exact nonterminal (by simp [refer, hd]) hn
    | endOfInput => exact other (by simp [refer, hd, Matcher.fail]) ht hn
    | derived => exact other (by simp [refer, hd, Matcher.fail]) ht hn

mutual

-- A rule whose symbols are matched as the grammar says.
theorem matcher_follows {refer : Symbol → Matcher}
    (hrefer : ∀ s, (refer s).Follows l input (.rule (.symbol s))) :
    ∀ r : Rule, (r.matcher refer (turns input)).Follows l input (.rule r)
  | .symbol s => hrefer s
  | .seq rules => allMatcher_follows hrefer rules
  | .choice rules => anyMatcher_follows hrefer rules
  | .zeroOrMore r => (matcher_follows hrefer r).iterate
  | .oneOrMore r => (matcher_follows hrefer r).oneOrMore
  | .optional r => (matcher_follows hrefer r).optional

theorem allMatcher_follows {refer : Symbol → Matcher}
    (hrefer : ∀ s, (refer s).Follows l input (.rule (.symbol s))) :
    ∀ rules : List Rule,
      (Rule.allMatcher refer (turns input) rules).Follows l input (.rule (.seq rules))
  | [] => .pure (fun _ _ _ => rfl) fun _ _ => .seqNil
  | r :: rules => (matcher_follows hrefer r).seqCons (allMatcher_follows hrefer rules)

theorem anyMatcher_follows {refer : Symbol → Matcher}
    (hrefer : ∀ s, (refer s).Follows l input (.rule (.symbol s))) :
    ∀ rules : List Rule,
      (Rule.anyMatcher refer (turns input) rules).Follows l input (.rule (.choice rules))
  | [] => .pure (o := fun _ => none) (fun _ _ _ => rfl) fun _ _ => .choiceNil
  | r :: rules => (matcher_follows hrefer r).choiceCons (anyMatcher_follows hrefer rules)

end

end Language

namespace ExpressionTable

variable {table : ExpressionTable} {s : Symbol} {matchRule : Rule → Matcher}
  {again : Precedence → Matcher}

theorem prefixAt_eq (table : ExpressionTable) (ctx : Context) (p : Nat) :
    table.prefixAt ctx p =
      ctx.input.tokens[p]?.bind fun t => (table.prefixOperator? t).map (t, ·) := by
  unfold prefixAt prefixOperator?
  cases ctx.input.tokens[p]? with
  | none => rfl
  | some t => exact Option.map_eq_bind.symm

theorem infixAt_eq (table : ExpressionTable) (ctx : Context) (floor : Precedence) (p : Nat) :
    table.infixAt ctx floor p =
      ctx.input.tokens[p]?.bind fun t => (table.infixOperator? floor t).map (t, ·) := by
  unfold infixAt infixOperator?
  cases ctx.input.tokens[p]? with
  | none => rfl
  | some t => exact Option.map_eq_bind.symm

theorem operandMatcher_follows (table : ExpressionTable)
    (hrule : ∀ r, (matchRule r).Follows l input (.rule r))
    (hagain : ∀ floor, (again floor).Follows l input (.nonterminal s floor)) :
    (table.operandMatcher ⟨input, matchRule, again⟩).Follows l input (.operand s table) := by
  intro p built run hs
  unfold operandMatcher
  rw [prefixAt_eq]
  cases hp : input.tokens[p]? with
  | none =>
    obtain ⟨o, run', hm, h⟩ := hrule table.operand p built run hs
    exact ⟨o, run', by simpa [hp] using hm, h.map (.operand (by simp [hp]))⟩
  | some t =>
    cases hop : table.prefixOperator? t with
    | none =>
      obtain ⟨o, run', hm, h⟩ := hrule table.operand p built run hs
      exact ⟨o, run', by simpa [hp, hop] using hm, h.map (.operand (by simp [hp, hop]))⟩
    | some op =>
      obtain ⟨o, run', hm, h⟩ := hagain op.precedence (p + 1) [.leaf t] run hs
      match o with
      | none =>
        refine ⟨none, run', ?_, h.map (.prefixFail hp hop)⟩
        simp [hop, hm]
      | some (q, ts) =>
        refine ⟨some (q, [.node op.node (.leaf t :: ts) (input.offset p)]), run', ?_,
          h.map (.prefixed hp hop · Subtree.isNode_node)⟩
        simp [hop, hm]

/-- The outcome for the expression `left` of what `firstPostfix` found. -/
def appliedTo (left : List Subtree) (place : Nat) (found : Option (Symbol × Nat × List Subtree)) :
    Phrase.Outcome :=
  found.map fun (kind, next, trees) => (next, [.node kind (left ++ trees.reverse) place])

theorem firstPostfix_gives (hrule : ∀ r, (matchRule r).Follows l input (.rule r))
    (again : Precedence → Matcher) (floor : Precedence) (p : Nat) (left : List Subtree)
    (ops : List PostfixRule) (run : Run)
    (hs : run.Sound l input) :
    ∃ found run', firstPostfix ⟨input, matchRule, again⟩ floor p ops run = (found, run') ∧
      run.Gives l input (.application floor ops left) p (appliedTo left (input.offset p) found)
        run' := by
  induction ops generalizing run with
  | nil => exact ⟨none, run, rfl, .refl hs .applyNone⟩
  | cons op ops ih =>
    unfold firstPostfix
    by_cases hw : op.precedence < floor
    · obtain ⟨found, run', hm, h⟩ := ih run hs
      exact ⟨found, run', by simpa [hw] using hm, h.map (.applyWeak hw)⟩
    · have hf := Fin.not_lt.mp hw
      obtain ⟨o, run₁, hm₁, h₁⟩ := hrule op.rule p [] run hs
      match o with
      | none =>
        obtain ⟨found, run₂, hm₂, h₂⟩ := ih run₁ h₁.sound
        exact ⟨found, run₂, by simp [hw, hm₁, hm₂], h₁.trans h₂ (.applyFail hf)⟩
      | some (q, ts) =>
        by_cases hq : p < q
        · refine ⟨some (op.node, q, ts.reverse), run₁, by simp [hw, hm₁, hq], h₁.map fun h => ?_⟩
          have happly : Evaluates l input _ (.application floor (op :: ops) left) p _ :=
            .apply hf h hq Subtree.isNode_node
          simpa [appliedTo] using happly
        · obtain ⟨found, run₂, hm₂, h₂⟩ := ih run₁ h₁.sound
          exact ⟨found, run₂, by simp [hw, hm₁, hq, hm₂],
            h₁.trans h₂ fun h => .applyStill hf h (Nat.not_lt.mp hq)⟩

theorem climb_gives (table : ExpressionTable) (hrule : ∀ r, (matchRule r).Follows l input (.rule r))
    (hagain : ∀ floor, (again floor).Follows l input (.nonterminal s floor))
    (floor : Precedence) (turns p : Nat) (left : List Subtree) (run : Run)
    (hs : run.Sound l input) (enough : input.size - p < turns) :
    ∃ next trees run',
      table.climb ⟨input, matchRule, again⟩ floor turns p left.reverse run =
        ((next, trees.reverse), run') ∧
      run.Gives l input (.extension s table floor left) p (some (next, trees)) run' := by
  induction turns generalizing p left run with
  | zero => omega
  | succ turns ih =>
    unfold climb
    obtain ⟨found, run₁, hm₁, h₁⟩ :=
      firstPostfix_gives hrule again floor p left table.postfixOps run hs
    match found with
    | some (kind, q, ts) =>
      -- a postfix rule takes a token, so that fewer are left than turns
      have hq := h₁.evaluates.application_lt
      have := h₁.evaluates.bounds
      obtain ⟨next, trees, run₂, hm₂, h₂⟩ := ih q
        [.node kind (left ++ ts.reverse) (input.offset p)] run₁ h₁.sound (by omega)
      refine ⟨next, trees, run₂, ?_, h₁.trans h₂ .applied⟩
      simpa [hm₁] using hm₂
    | none =>
      rw [infixAt_eq]
      cases hp : input.tokens[p]? with
      | none =>
        exact ⟨p, left, run₁, by simp [hm₁], h₁.map fun h => .noOperator h (by simp [hp])⟩
      | some t =>
        cases hop : table.infixOperator? floor t with
        | none =>
          exact ⟨p, left, run₁, by simp [hm₁, hop],
            h₁.map fun h => .noOperator h (by simp [hp, hop])⟩
        | some op =>
          obtain ⟨o, run₂, hm₂, h₂⟩ := hagain op.rightFloor (p + 1) [] run₁ h₁.sound
          match o with
          | none =>
            exact ⟨p, left, run₂, by simp [hm₁, hop, hm₂],
              h₁.trans h₂ fun h h' => .noRight h hp hop h'⟩
          | some (q, right) =>
            -- the operator is a token, so that fewer are left than turns
            have := h₂.evaluates.bounds
            have := input.lt_size_of_getElem? hp
            obtain ⟨next, trees, run₃, hm₃, h₃⟩ := ih q
              [.node op.node (left ++ .leaf t :: right) (input.offset p)] run₂ h₂.sound (by omega)
            refine ⟨next, trees, run₃, ?_, ?_⟩
            · simpa [hm₁, hp, hop, hm₂] using hm₃
            · exact ⟨h₃.sound, fun h => h₃.kept (h₂.kept (h₁.kept h)),
                .joined ((h₁.lift h₂).mono h₃.kept) hp hop (h₂.lift h₃) Subtree.isNode_node
                  h₃.evaluates⟩

-- An expression of the table.
theorem matcher_follows (hrule : ∀ r, (matchRule r).Follows l input (.rule r))
    (hagain : ∀ floor, (again floor).Follows l input (.nonterminal s floor))
    (floor : Precedence) :
    (table.matcher ⟨input, matchRule, again⟩ floor (Language.turns input)).Follows l input
      (.expression s table floor) := by
  intro p built run hs
  unfold matcher
  obtain ⟨o, run₁, hm₁, h₁⟩ := operandMatcher_follows table hrule hagain p [] run hs
  match o with
  | none => exact ⟨none, run₁, by simp [hm₁], h₁.map .noOperand⟩
  | some (q, left) =>
    have enough : input.size - q < Language.turns input := by
      unfold Language.turns
      omega
    obtain ⟨next, trees, run₂, hm₂, h₂⟩ :=
      climb_gives table hrule hagain floor _ q left run₁ h₁.sound enough
    exact ⟨some (next, trees), run₂, by simp [hm₁, hm₂], h₁.trans h₂ .expression⟩

end ExpressionTable

namespace Language

variable {call : Symbol → Precedence → Matcher}

theorem matchRule_follows
    (hcall : ∀ s floor, (call s floor).Follows l input (.nonterminal s floor)) (r : Rule) :
    (l.matchRule input call r).Follows l input (.rule r) :=
  matcher_follows (refer_follows hcall) r

-- What the table keeps of a nonterminal.
theorem wrap_toMatch (info : SymbolInfo) (s : Symbol) (p : Nat) (o : Phrase.Outcome) :
    wrap input s info.hidden p (o.toMatch []) =
      (o.mapTrees (info.enclose s (input.offset p))).toMatch [] := by
  match o with
  | none => rfl
  | some (next, trees) =>
    cases hh : info.hidden <;> simp [wrap, SymbolInfo.enclose, hh]

-- The definition of a symbol in the table of the grammar.
theorem matchDefinition_gives
    (hcall : ∀ s floor, (call s floor).Follows l input (.nonterminal s floor))
    {s : Symbol} {info : SymbolInfo} (hinfo : l.symbol? s = some info) (floor : Precedence)
    (p : Nat) (run : Run) (hs : run.Sound l input) :
    ∃ (o : Phrase.Outcome) (run' : Run),
      l.matchDefinition input call s floor info.definition p [] run = (o.toMatch [], run') ∧
      run.Gives l input (.nonterminal s floor) p
        (o.mapTrees (info.enclose s (input.offset p))) run' := by
  have hn := Artifact.isNonterminal_eq (definition?_of_symbol? hinfo)
  cases hd : info.definition with
  | rule r =>
    obtain ⟨o, run', hm, h⟩ := matchRule_follows hcall r p [] run hs
    exact ⟨o, run', hm, h.map (.ruleSymbol hinfo hd · SymbolInfo.enclosesMatch_mapTrees)⟩
  | expression table =>
    obtain ⟨o, run', hm, h⟩ :=
      ExpressionTable.matcher_follows (matchRule_follows hcall) (hcall s) floor p [] run hs
    exact ⟨o, run', hm, h.map (.expressionSymbol hinfo hd · SymbolInfo.enclosesMatch_mapTrees)⟩
  -- a token or a symbol without a definition of its own is no nonterminal
  | literal | pattern | endOfInput | derived =>
    rw [hd] at hn
    exact ⟨none, run, rfl, .refl hs (.undefined hn)⟩

/-- A nonterminal, whatever the table holds by then. -/
theorem nonterminal_follows (depth : Nat) (s : Symbol) (floor : Precedence) :
    (l.nonterminal input depth s floor).Follows l input (.nonterminal s floor) := by
  induction depth generalizing s floor with
  | zero =>
    intro p built run hs
    unfold nonterminal
    cases hmemo : run.memo[Goal.mk s p floor]? with
    -- what is in the table is used even though nothing more may be nested
    | some found =>
      obtain ⟨o, he, rfl⟩ := hs _ _ hmemo
      exact ⟨o, run, by simp, .refl hs he⟩
    | none => exact ⟨none, _, rfl, .refuse hs⟩
  | succ depth ih =>
    intro p built run hs
    unfold nonterminal
    cases hmemo : run.memo[Goal.mk s p floor]? with
    | some found =>
      obtain ⟨o, he, rfl⟩ := hs _ _ hmemo
      exact ⟨o, run, by simp, .refl hs he⟩
    | none =>
      cases hinfo : l.symbol? s with
      | none =>
        have hn : l.artifact.isNonterminal s = false := by
          unfold symbol? at hinfo
          simp [Artifact.isNonterminal, Artifact.definition?, hinfo]
        exact ⟨none, run, by simp, .refl hs (.undefined hn)⟩
      | some info =>
        obtain ⟨o, run', hm, h⟩ := matchDefinition_gives ih hinfo floor p run hs
        -- the definition was matched behind nothing, so that its trees can be kept
        refine ⟨_, _, ?_, Run.Gives.remember (g := ⟨s, p, floor⟩) h⟩
        simp [hm, wrap_toMatch]

end Language

end GrammarKit
