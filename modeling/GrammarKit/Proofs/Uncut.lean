import GrammarKit.Proofs.Completion
import GrammarKit.Proofs.ParsedTree

/-!
# Parses that the limit does not cut short

An engine that gives up no nonterminal does the same under every larger limit.  For a whole parse
that takes more than the engine of the parse itself: where tokens are skipped, other engines find
out where parsing can go on, and what they give up nobody is told.
-/

namespace GrammarKit

variable {l : Language} {input : Input} {limit larger : Nat} {p q : Nat} {m m' : Machine}
  {ts : List Subtree} {tree : Subtree}

theorem Executes.cutBeside_eq {phrase : Phrase} {o : Phrase.Outcome}
    (h : Executes l input limit phrase p m o m') : m'.cutBeside = m.cutBeside :=
  h.relates (R := fun m m' => m'.cutBeside = m.cutBeside) (fun _ => rfl) (fun h₁ h₂ => h₂.trans h₁)
    (fun _ => rfl) (fun _ => rfl) fun _ _ _ _ _ hinner => hinner

/-- An engine that gives up no nonterminal does the same under a larger limit, and gave up none
before. -/
theorem Executes.relax (hle : limit ≤ larger) {phrase : Phrase} {o : Phrase.Outcome}
    (h : Executes l input limit phrase p m o m') (ht : m'.run.truncated = false) :
    m.run.truncated = false ∧ Executes l input larger phrase p m o m' := by
  -- the parts are gone through from the last one back to the first
  induction h with
  | refused => cases ht
  | token hs => exact ⟨ht, .token hs⟩
  | unparseable hs hn => exact ⟨ht, .unparseable hs hn⟩
  | seqNil => exact ⟨ht, .seqNil⟩
  | choiceNil => exact ⟨ht, .choiceNil⟩
  | applyNone => exact ⟨ht, .applyNone⟩
  | remembered hmemo => exact ⟨ht, .remembered hmemo⟩
  | unknown hmemo hlt hs => exact ⟨ht, .unknown hmemo (Nat.lt_of_lt_of_le hlt hle) hs⟩
  | undefined hmemo hlt hs hd =>
    exact ⟨ht, .undefined hmemo (Nat.lt_of_lt_of_le hlt hle) hs hd⟩
  | ruleSymbol hmemo hlt hs hd _ ih =>
    exact (ih ht).imp_right (.ruleSymbol hmemo (Nat.lt_of_lt_of_le hlt hle) hs hd)
  | expressionSymbol hmemo hlt hs hd _ ih =>
    exact (ih ht).imp_right (.expressionSymbol hmemo (Nat.lt_of_lt_of_le hlt hle) hs hd)
  | call hs _ ih => exact (ih ht).imp_right (.call hs)
  | seqFail _ ih => exact (ih ht).imp_right .seqFail
  | choiceFirst _ ih => exact (ih ht).imp_right .choiceFirst
  | repeatEnd _ hq ih => exact (ih ht).imp_right (.repeatEnd · hq)
  | oneOrMore _ ih => exact (ih ht).imp_right .oneOrMore
  | optional _ ih => exact (ih ht).imp_right .optional
  | noOperand _ ih => exact (ih ht).imp_right .noOperand
  | prefixed htoken hop _ ih => exact (ih ht).imp_right (.prefixed htoken hop)
  | operand hop _ ih => exact (ih ht).imp_right (.operand hop)
  | applyWeak hweak _ ih => exact (ih ht).imp_right (.applyWeak hweak)
  | apply hfloor _ hq ih => exact (ih ht).imp_right (.apply hfloor · hq)
  | noOperator _ hop ih => exact (ih ht).imp_right (.noOperator · hop)
  | seqCons _ _ ih₁ ih₂ =>
    obtain ⟨ht, h₂⟩ := ih₂ ht
    exact (ih₁ ht).imp_right (.seqCons · h₂)
  | choiceLater _ _ ih₁ ih₂ =>
    obtain ⟨ht, h₂⟩ := ih₂ ht
    exact (ih₁ ht).imp_right (.choiceLater · h₂)
  | repeatMore _ hq _ ih₁ ih₂ =>
    obtain ⟨ht, h₂⟩ := ih₂ ht
    exact (ih₁ ht).imp_right (.repeatMore · hq h₂)
  | expression _ _ ih₁ ih₂ =>
    obtain ⟨ht, h₂⟩ := ih₂ ht
    exact (ih₁ ht).imp_right (.expression · h₂)
  | applyLater hfloor _ hq _ ih₁ ih₂ =>
    obtain ⟨ht, h₂⟩ := ih₂ ht
    exact (ih₁ ht).imp_right (.applyLater hfloor · hq h₂)
  | applied _ _ ih₁ ih₂ =>
    obtain ⟨ht, h₂⟩ := ih₂ ht
    exact (ih₁ ht).imp_right (.applied · h₂)
  | noRight _ htoken hop _ ih₁ ih₂ =>
    obtain ⟨ht, h₂⟩ := ih₂ ht
    exact (ih₁ ht).imp_right (.noRight · htoken hop h₂)
  | joined _ htoken hop _ _ ih₁ ih₂ ih₃ =>
    obtain ⟨ht, h₃⟩ := ih₃ ht
    obtain ⟨ht, h₂⟩ := ih₂ ht
    exact (ih₁ ht).imp_right (.joined · htoken hop h₂ h₃)

/-! ## The loops of a parse -/

theorem Resumes.relax (hle : limit ≤ larger) {resumed : Bool}
    (h : Resumes l input limit p m resumed m') (hc : m'.cutBeside = false) :
    m.cutBeside = false ∧ Resumes l input larger p m resumed m' := by
  cases h with
  | outside hp => exact ⟨hc, .outside hp⟩
  | probe hp hx =>
    obtain ⟨hc, ht⟩ := Bool.or_eq_false_iff.mp hc
    exact ⟨hc, .probe hp (hx.relax hle ht).2⟩

theorem SkipsOver.relax (hle : limit ≤ larger) (h : SkipsOver l input limit p m ts q m')
    (hc : m'.cutBeside = false) :
    m.cutBeside = false ∧ SkipsOver l input larger p m ts q m' := by
  induction h with
  | atEnd hp => exact ⟨hc, .atEnd hp⟩
  | recovery ht hr => exact ⟨hc, .recovery ht hr⟩
  | resumed ht hr hres =>
    obtain ⟨hc, hres⟩ := hres.relax hle hc
    exact ⟨hc, .resumed ht hr hres⟩
  | more ht hr hres _ ih =>
    obtain ⟨hc, hs⟩ := ih hc
    obtain ⟨hc, hres⟩ := hres.relax hle hc
    exact ⟨hc, .more ht hr hres hs⟩

@[simp] theorem Machine.cutBeside_lookAt (m : Machine) (input : Input) (p : Nat) :
    (m.lookAt input p).cutBeside = m.cutBeside := by
  unfold lookAt
  split <;> rfl

theorem Recovers.relax (hle : limit ≤ larger) (h : Recovers l input limit p m tree q m')
    (hc : m'.cutBeside = false) :
    m.cutBeside = false ∧ Recovers l input larger p m tree q m' := by
  cases h with
  | error hs =>
    obtain ⟨hc, hs⟩ := hs.relax hle (by simpa using hc)
    exact ⟨hc, .error hs⟩

theorem Parses.relax (hle : limit ≤ larger) (h : Parses l input limit p m ts q m')
    (ht : m'.run.truncated = false) (hc : m'.cutBeside = false) :
    m.run.truncated = false ∧ m.cutBeside = false ∧ Parses l input larger p m ts q m' := by
  induction h with
  | done hx hq =>
    obtain ⟨ht, hx'⟩ := hx.relax hle ht
    exact ⟨ht, hx.cutBeside_eq.symm.trans hc, .done hx' hq⟩
  | again hx hq hr _ ih =>
    obtain ⟨ht, hc, hs⟩ := ih ht hc
    -- recovery leaves the run as it is
    rw [hr.aside.run_eq] at ht
    obtain ⟨hc, hr⟩ := hr.relax hle hc
    obtain ⟨ht, hx'⟩ := hx.relax hle ht
    exact ⟨ht, hx.cutBeside_eq.symm.trans hc, .again hx' hq hr hs⟩

theorem ParsesRoot.relax (hle : limit ≤ larger) (h : ParsesRoot l input limit tree q m)
    (ht : m.run.truncated = false) (hc : m.cutBeside = false) :
    ParsesRoot l input larger tree q m := by
  cases h with
  | root hroot hs => exact .root hroot (hs.relax hle ht hc).2.2

/-! ## What an engine gives that gives up nothing -/

-- The rule of the root gives what the grammar says.
theorem Executes.evaluates {r : Rule} {o : Phrase.Outcome}
    (h : Executes l input limit (.rule r) p m o m') (hm : m.AtRest l input)
    (ht : m'.run.truncated = false) : Evaluates l input False (.rule r) p o :=
  (h.gives hm).evaluates.mono (by simp [ht])

-- What is not given up in the end was not given up before.
theorem Parses.truncated_eq_false (h : Parses l input limit p m ts q m')
    (ht : m'.run.truncated = false) : m.run.truncated = false := by
  induction h with
  | done hx => exact (hx.relax (Nat.le_refl limit) ht).1
  | again hx _ hr _ ih =>
    have ht := ih ht
    rw [hr.aside.run_eq] at ht
    exact (hx.relax (Nat.le_refl limit) ht).1

/-! ## What is given up where tokens are skipped -/

/-- The run of the engine that finds out whether parsing can go on at a position. -/
def Language.probeRun (l : Language) (input : Input) (limit p : Nat) : Run :=
  let window := input.take (p + resumeWindow)
  (l.matchRule window (l.nonterminal window limit) l.rootRule.resumption p [] {}).2

theorem Resumes.cutBeside_eq {resumed : Bool} (h : Resumes l input limit p m resumed m') :
    m'.cutBeside =
      (m.cutBeside || (decide (p < input.size) && (l.probeRun input limit p).truncated)) := by
  cases h with
  | outside hp => simp [Nat.not_lt.mpr hp]
  | @probe o e hp hx =>
    obtain ⟨o', e', hm, hx'⟩ := l.rootRule_performs (input.take (p + resumeWindow)) limit
      l.rootRule.resumption p [] {} rfl (Run.bounded_empty _)
    obtain ⟨rfl, rfl⟩ := hx.unique hx'
    have hrun : l.probeRun input limit p = e.run := congrArg (·.2) hm
    simp [Machine.beside, hp, hrun]

/-- No engine that finds out where the parse can go on gives up a nonterminal. -/
def Language.ProbesUncut (l : Language) (input : Input) (limit : Nat) : Prop :=
  ∀ tree last m, ParsesRoot l input limit tree last m → m.cutBeside = false

-- It is enough to look at all places.
theorem Language.probesUncut_of_probeRun
    (h : ∀ p < input.size, (l.probeRun input limit p).truncated = false) :
    l.ProbesUncut input limit := by
  have resumes {p m resumed m'} (hr : Resumes l input limit p m resumed m') :
      m'.cutBeside = m.cutBeside := by
    rw [hr.cutBeside_eq]
    by_cases hp : p < input.size
    · simp [h p hp]
    · simp [hp]
  have skips {p m ts q m'} (hs : SkipsOver l input limit p m ts q m') :
      m'.cutBeside = m.cutBeside := by
    induction hs with
    | atEnd | recovery => rfl
    | resumed _ _ hr => exact resumes hr
    | more _ _ hr _ ih => exact ih.trans (resumes hr)
  have parses {p m ts q m'} (hs : Parses l input limit p m ts q m') :
      m'.cutBeside = m.cutBeside := by
    induction hs with
    | done hx => exact hx.cutBeside_eq
    | again hx _ hr _ ih =>
      cases hr with
      | error hs =>
        rw [ih, Machine.cutBeside_lookAt, Machine.cutBeside_lookAt, skips hs, hx.cutBeside_eq]
  intro tree last m hroot
  cases hroot with
  | root _ hs => exact parses hs

/-! ## Whole parses -/

theorem Language.Loadable.parseRoot_eq_of_uncut (hl : l.Loadable) (hle : limit ≤ larger)
    (ht : (l.parseRoot input limit).2 = false) (hprobes : l.ProbesUncut input limit) :
    l.parseRoot input larger = l.parseRoot input limit := by
  obtain ⟨m, hroot, htruncated⟩ := hl.parseRoot_parsesRoot input limit
  have hrelaxed := hroot.relax hle (htruncated ▸ ht) (hprobes _ _ _ hroot)
  -- what is done under the larger limit is all that can be done there
  obtain ⟨m', hroot', htruncated'⟩ := hl.parseRoot_parsesRoot input larger
  obtain ⟨htree, -, rfl⟩ := hroot'.unique hrelaxed
  exact Prod.ext htree (htruncated'.trans htruncated.symm)

/-- **A limit that no engine hits changes nothing.**  If neither the engine of a parse gives up a
nonterminal nor one of those that find out where the parse can go on, then every larger limit gives
the same tree, and the parse does not hit it either. -/
theorem Parser.parse_tree_of_uncut (hl : l.Loadable) (parser : Parser)
    (hparser : parser.language = some l) (text : String) (hle : limit ≤ larger) {result : Parse}
    (hresult : (parser.setMaxDepth limit).parse text = some result)
    (hfound : result.truncated = false)
    (hprobes : l.ProbesUncut (l.inputOf text) (min limit maxDepthLimit)) :
    ∃ result', (parser.setMaxDepth larger).parse text = some result' ∧
      result'.tree = result.tree ∧ result'.truncated = false := by
  have hdepth : min limit maxDepthLimit ≤ min larger maxDepthLimit := by omega
  obtain rfl : l.parse (min limit maxDepthLimit) text = result := by
    simpa [Parser.parse, setMaxDepth, hparser] using hresult
  refine ⟨l.parse (min larger maxDepthLimit) text,
    by simp [Parser.parse, setMaxDepth, hparser], ?_⟩
  have hroot := hl.parseRoot_eq_of_uncut hdepth hfound hprobes
  have htree : l.ruleTree (min larger maxDepthLimit) text =
      l.ruleTree (min limit maxDepthLimit) text := congrArg (·.1) hroot
  refine ⟨?_, (congrArg (·.2) hroot).trans hfound⟩
  rw [Language.parse_tree, Language.parse_tree, Language.textTree, Language.textTree, htree]

/-- Pairs of an `a` and a `b`, each `b` one symbol deeper than its `a`. -/
def Artifact.pairs : Artifact :=
  { version := 1
    name := "pairs"
    symbols :=
      #[.endOfInput, .literal "a", .literal "b", .rule "r" (.zeroOrMore (.symbol 4)),
        .rule "A" (.seq [.symbol 1, .symbol 5]), .rule "B" (.symbol 2)]
    root := 3
    extras := []
    recovery := [] }

/-- The language of the pairs. -/
def Language.pairs : Language :=
  (ofArtifact Pattern.compile .pairs 0).toOption.get rfl

-- The first token is skipped, and the parse goes on behind it.
theorem Parser.parse_tree_of_uncut_pairs :
    ∃ result, (({ language := some .pairs } : Parser).setMaxDepth 2).parse "c a b" = some result ∧
      result.truncated = false ∧ Language.pairs.ProbesUncut (Language.pairs.inputOf "c a b") 2 ∧
      ∃ result', (({ language := some .pairs } : Parser).setMaxDepth 3).parse "c a b" =
          some result' ∧
        result'.tree = result.tree ∧ result'.truncated = false := by
  have hfound : (Language.pairs.parse 2 "c a b").truncated = false := by decide
  have hprobes : Language.pairs.ProbesUncut (Language.pairs.inputOf "c a b") 2 :=
    Language.probesUncut_of_probeRun (by decide)
  exact ⟨_, rfl, hfound, hprobes, parse_tree_of_uncut ⟨Pattern.compile, .pairs, 0, rfl⟩
    { language := some .pairs } rfl "c a b" (show 2 ≤ 3 by decide) rfl hfound hprobes⟩

-- One level less, and the engine that finds out where the parse can go on gives up the second
-- symbol of the pair, which the parse itself never meets.
theorem Parser.parse_tree_ne_of_not_truncated :
    Language.pairs.Loadable ∧ 1 ≤ 2 ∧ 2 ≤ maxDepthLimit ∧ ∃ result result',
      (({ language := some .pairs } : Parser).setMaxDepth 1).parse "c a b" = some result ∧
      (({ language := some .pairs } : Parser).setMaxDepth 2).parse "c a b" = some result' ∧
      result.truncated = false ∧ (∀ e ∈ result.events, e ≠ .nestingLimitHit "pairs" 1) ∧
      result'.tree ≠ result.tree := by
  have hne : (Language.pairs.parse 2 "c a b").tree.nodes.size ≠
      (Language.pairs.parse 1 "c a b").tree.nodes.size := by decide
  exact ⟨⟨Pattern.compile, .pairs, 0, rfl⟩, by decide, by decide, _, _, rfl, rfl, by decide,
    by decide, fun h => hne (congrArg (·.nodes.size) h)⟩

end GrammarKit
