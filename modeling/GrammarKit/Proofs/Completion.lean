import GrammarKit.Proofs.Performing
import GrammarKit.Proofs.Trace

/-!
# Parses come to an end

The loop at the root applies the rule of the root and skips tokens behind it.  Behind every token
that is skipped another engine finds out whether parsing can go on there.  As in executions, nothing
bounds how often these loops go on.
-/

namespace GrammarKit

namespace Machine

/-- Another engine was at work beside this one.  Nothing that it matched is kept. -/
def beside (m probe : Machine) : Machine :=
  { m with
    deepest := max m.deepest (m.depth + probe.deepest)
    astray := m.astray || probe.astray
    cutBeside := m.cutBeside || probe.run.truncated }

/-- The engine looks at the token at a position, which has to be there. -/
def lookAt (m : Machine) (input : Input) (position : Nat) : Machine :=
  if position < input.size then m else m.stray

end Machine

/-- The leaf for a token that is skipped; what no symbol accounts for leaves nothing. -/
def Token.skipped (t : Token) : List Subtree :=
  if t.isError then [] else [.leaf t]

/-- The position behind a match and its trees, or where it was tried and no trees. -/
def Phrase.Outcome.orHere (o : Outcome) (position : Nat) : Nat × List Subtree :=
  o.getD (position, [])

section

variable (l : Language) (input : Input) (limit : Nat)

/-- Whether parsing can go on at a position. -/
inductive Resumes : (position : Nat) → Machine → Bool → Machine → Prop
  | outside {p m} : input.size ≤ p → Resumes p m false m
  | probe {p m o e} :
      p < input.size →
      Executes l (input.take (p + resumeWindow)) limit (.rule l.rootRule.resumption) p {} o e →
      Resumes p m (o.advances p) (m.beside e)

/-- Tokens are skipped from a position on: the leaves for them and the position behind them. -/
inductive SkipsOver : (position : Nat) → Machine → List Subtree → (next : Nat) → Machine → Prop
  | atEnd {p m} : input.size ≤ p → SkipsOver p m [] p m
  | recovery {p m t} :
      input.tokens[p]? = some t → l.isRecovery t.symbol = true →
      SkipsOver p m t.skipped (p + 1) m
  | resumed {p m t m'} :
      input.tokens[p]? = some t → l.isRecovery t.symbol = false →
      Resumes l input limit (p + 1) m true m' →
      SkipsOver p m t.skipped (p + 1) m'
  | more {p m t m₁ ts q m₂} :
      input.tokens[p]? = some t → l.isRecovery t.symbol = false →
      Resumes l input limit (p + 1) m false m₁ →
      SkipsOver (p + 1) m₁ ts q m₂ →
      SkipsOver p m (t.skipped ++ ts) q m₂

/-- What is skipped from a position on ends up in an error node. -/
inductive Recovers : (position : Nat) → Machine → (error : Subtree) → (next : Nat) → Machine → Prop
  | error {p m ts q m'} :
      SkipsOver l input limit p m ts q m' →
      Recovers p m
        { symbol := errorSymbol
          start := input.offset p
          stop := (input.tokens[q - 1]?.map (·.stop)).getD input.length
          children := ts
          extra := false }
        q ((m'.lookAt input p).lookAt input (q - 1))

/-- The loop at the root from a position on: the trees that it adds and where it stops. -/
inductive Parses : (position : Nat) → Machine → List Subtree → (last : Nat) → Machine → Prop
  | done {p m o m'} :
      Executes l input limit (.rule l.rootRule) p m o m' →
      input.size ≤ (o.orHere p).1 →
      Parses p m (o.orHere p).2 (o.orHere p).1 m'
  | again {p m o m₁ error next m₂ ts last m₃} :
      Executes l input limit (.rule l.rootRule) p m o m₁ →
      (o.orHere p).1 < input.size →
      Recovers l input limit (o.orHere p).1 m₁ error next m₂ →
      Parses next m₂ ts last m₃ →
      Parses p m ((o.orHere p).2 ++ error :: ts) last m₃

/-- A whole parse, which a root that no rule defines does not have. -/
inductive ParsesRoot : Subtree → (last : Nat) → Machine → Prop
  | root {ts last m} :
      l.artifact.definition? l.artifact.root = some (.rule l.rootRule) →
      Parses l input limit 0 {} ts last m →
      ParsesRoot
        { symbol := l.artifact.root
          start := 0
          stop := input.length
          children := ts
          extra := false }
        last m

end

variable {l : Language} {input : Input} {limit : Nat} {p q q' : Nat} {m m' m'' m₁ m₂ : Machine}
  {ts ts' : List Subtree} {tree tree' : Subtree}

/-! ## What is done beside an engine -/

/-- What is done beside an engine leaves its run and its count as they are. -/
structure Machine.Aside (limit : Nat) (m m' : Machine) : Prop where
  run_eq : m'.run = m.run
  depth_eq : m'.depth = m.depth
  deepest_le : m.depth = 0 → m'.deepest ≤ max m.deepest limit

namespace Machine.Aside

theorem refl : m.Aside limit m :=
  ⟨rfl, rfl, fun _ => Nat.le_max_left _ _⟩

theorem trans (h : m.Aside limit m₁) (h' : m₁.Aside limit m₂) : m.Aside limit m₂ := by
  refine ⟨h'.run_eq.trans h.run_eq, h'.depth_eq.trans h.depth_eq, fun hd => ?_⟩
  have := h.deepest_le hd
  have := h'.deepest_le (h.depth_eq.trans hd)
  omega

theorem lookAt (h : m.Aside limit m') (input : Input) (p : Nat) :
    m.Aside limit (m'.lookAt input p) := by
  unfold Machine.lookAt
  split
  · exact h
  · exact ⟨h.run_eq, h.depth_eq, h.deepest_le⟩

end Machine.Aside

theorem Resumes.aside {resumed : Bool} (h : Resumes l input limit p m resumed m') :
    m.Aside limit m' := by
  cases h with
  | outside => exact .refl
  | probe _ hx =>
    refine ⟨rfl, rfl, fun hd => ?_⟩
    have : _ ≤ max 0 limit := hx.deepest_le
    simp only [Machine.beside]
    omega

theorem SkipsOver.aside (h : SkipsOver l input limit p m ts q m') : m.Aside limit m' := by
  induction h with
  | atEnd | recovery => exact .refl
  | resumed _ _ hr => exact hr.aside
  | more _ _ hr _ ih => exact hr.aside.trans ih

theorem Recovers.aside (h : Recovers l input limit p m tree q m') : m.Aside limit m' := by
  cases h with
  | error hs => exact (hs.aside.lookAt input p).lookAt input (q - 1)

/-! ## Progress -/

-- At least one token is skipped where there is one.
theorem SkipsOver.bounds (h : SkipsOver l input limit p m ts q m') (hp : p < input.size) :
    p < q ∧ q ≤ input.size := by
  induction h with
  | atEnd hend => omega
  | recovery | resumed => omega
  | @more p _ _ _ _ q _ _ _ _ hs ih =>
    by_cases hnext : p + 1 < input.size
    · have := ih hnext
      omega
    · cases hs with
      | atEnd => omega
      | recovery ht | resumed ht | more ht => exact absurd (input.lt_size_of_getElem? ht) hnext

/-! ## Nothing is left open -/

theorem Resumes.unique {resumed resumed' : Bool} (h : Resumes l input limit p m resumed m')
    (h' : Resumes l input limit p m resumed' m'') : resumed = resumed' ∧ m' = m'' := by
  cases h with
  | outside hp =>
    cases h' with
    | outside => exact ⟨rfl, rfl⟩
    | probe hp' => omega
  | probe hp hx =>
    cases h' with
    | outside hp' => omega
    | probe _ hx' =>
      obtain ⟨rfl, rfl⟩ := hx.unique hx'
      exact ⟨rfl, rfl⟩

theorem SkipsOver.unique (h : SkipsOver l input limit p m ts q m')
    (h' : SkipsOver l input limit p m ts' q' m'') : ts = ts' ∧ q = q' ∧ m' = m'' := by
  induction h generalizing ts' q' m'' with
  | atEnd hp =>
    have hnone := Array.getElem?_eq_none hp
    cases h' with
    | atEnd => exact ⟨rfl, rfl, rfl⟩
    | _ => simp_all
  | recovery ht hr =>
    have hp := Input.lt_size_of_getElem? ht
    cases h' with
    | atEnd hp' => omega
    | recovery ht' => simp_all
    | _ => simp_all
  | resumed ht hr hres =>
    have hp := Input.lt_size_of_getElem? ht
    cases h' with
    | atEnd hp' => omega
    | recovery => simp_all
    | resumed ht' _ hres' =>
      obtain ⟨-, rfl⟩ := hres.unique hres'
      simp_all
    | more _ _ hres' => exact absurd (hres.unique hres').1 (by decide)
  | more ht hr hres _ ih =>
    have hp := Input.lt_size_of_getElem? ht
    cases h' with
    | atEnd hp' => omega
    | recovery => simp_all
    | resumed _ _ hres' => exact absurd (hres.unique hres').1 (by decide)
    | more ht' _ hres' hs' =>
      obtain ⟨-, rfl⟩ := hres.unique hres'
      obtain ⟨rfl, rfl, rfl⟩ := ih hs'
      simp_all

theorem Recovers.unique (h : Recovers l input limit p m tree q m')
    (h' : Recovers l input limit p m tree' q' m'') : tree = tree' ∧ q = q' ∧ m' = m'' := by
  cases h with
  | error hs =>
    cases h' with
    | error hs' =>
      obtain ⟨rfl, rfl, rfl⟩ := hs.unique hs'
      exact ⟨rfl, rfl, rfl⟩

theorem Parses.unique (h : Parses l input limit p m ts q m')
    (h' : Parses l input limit p m ts' q' m'') : ts = ts' ∧ q = q' ∧ m' = m'' := by
  induction h generalizing ts' q' m'' with
  | done hx hq =>
    cases h' with
    | done hx' =>
      obtain ⟨rfl, rfl⟩ := hx.unique hx'
      exact ⟨rfl, rfl, rfl⟩
    | again hx' hq' =>
      obtain ⟨rfl, rfl⟩ := hx.unique hx'
      omega
  | again hx hq hr _ ih =>
    cases h' with
    | done hx' hq' =>
      obtain ⟨rfl, rfl⟩ := hx.unique hx'
      omega
    | again hx' _ hr' hs' =>
      obtain ⟨rfl, rfl⟩ := hx.unique hx'
      obtain ⟨rfl, rfl, rfl⟩ := hr.unique hr'
      obtain ⟨rfl, rfl, rfl⟩ := ih hs'
      exact ⟨rfl, rfl, rfl⟩

theorem ParsesRoot.unique (h : ParsesRoot l input limit tree q m)
    (h' : ParsesRoot l input limit tree' q' m') : tree = tree' ∧ q = q' ∧ m = m' := by
  cases h with
  | root _ hs =>
    cases h' with
    | root _ hs' =>
      obtain ⟨rfl, rfl, rfl⟩ := hs.unique hs'
      exact ⟨rfl, rfl, rfl⟩

/-! ## The count at the root -/

theorem Parses.contained (h : Parses l input limit p m ts q m') (hd : m.depth = 0) :
    m'.depth = 0 ∧ m'.deepest ≤ max m.deepest limit := by
  induction h with
  | done hx => exact ⟨hx.depth_eq.trans hd, hx.deepest_le⟩
  | again hx _ hr _ ih =>
    have hd₁ := hx.depth_eq.trans hd
    have hdeepest := hx.deepest_le
    have hdeepest₁ := hr.aside.deepest_le hd₁
    obtain ⟨hd₃, hdeepest₃⟩ := ih (hr.aside.depth_eq.trans hd₁)
    exact ⟨hd₃, by omega⟩

theorem ParsesRoot.contained (h : ParsesRoot l input limit tree q m) :
    m.depth = 0 ∧ m.deepest ≤ limit := by
  cases h with
  | root _ hs =>
    obtain ⟨hd, hdeepest⟩ := hs.contained rfl
    have : m.deepest ≤ max 0 limit := hdeepest
    exact ⟨hd, by omega⟩

/-! ## The loops of a parse -/

namespace Language

-- A rule at the root, where no nonterminal is being evaluated.
theorem rootRule_performs (l : Language) (input : Input) (limit : Nat) (r : Rule) :
    (l.matchRule input (l.nonterminal input limit) r).Performs l input limit 0 (.rule r) :=
  matchRule_performs (nonterminal_performs (Nat.add_zero limit)) r

theorem canResume_resumes (l : Language) (input : Input) (limit p : Nat) (m : Machine) :
    ∃ m', Resumes l input limit p m (l.canResume input limit p) m' := by
  unfold canResume
  by_cases hp : p < input.size
  · obtain ⟨o, e, hm, hx⟩ := l.rootRule_performs (input.take (p + resumeWindow)) limit
      l.rootRule.resumption p [] {} rfl (Run.bounded_empty _)
    refine ⟨m.beside e, ?_⟩
    have hprobe := Resumes.probe (m := m) hp hx
    simp only [if_pos hp]
    rw [hm]
    match o with
    | none => exact hprobe
    | some (q, ts) => simpa [Phrase.Outcome.advances] using hprobe
  · simp only [if_neg hp]
    exact ⟨m, .outside (Nat.not_lt.mp hp)⟩

-- There are enough turns for every token that is left.
theorem skip_skipsOver (l : Language) (limit left p : Nat) (skipped : List Subtree)
    (m : Machine) (enough : input.size - p ≤ left) :
    ∃ ts q m', l.skip input limit left p skipped = (q, ts.reverse ++ skipped) ∧
      SkipsOver l input limit p m ts q m' := by
  induction left generalizing p skipped m with
  | zero => exact ⟨[], p, m, rfl, .atEnd (by omega)⟩
  | succ left ih =>
    unfold skip
    cases ht : input.tokens[p]? with
    | none => exact ⟨[], p, m, rfl, .atEnd (Array.getElem?_eq_none_iff.mp ht)⟩
    | some t =>
      have hskipped : (if t.isError then skipped else .leaf t :: skipped) =
          t.skipped.reverse ++ skipped := by
        unfold Token.skipped
        split <;> rfl
      simp only [hskipped]
      cases hr : l.isRecovery t.symbol with
      | true => exact ⟨t.skipped, p + 1, m, rfl, .recovery ht hr⟩
      | false =>
        obtain ⟨m₁, hres⟩ := l.canResume_resumes input limit (p + 1) m
        cases hc : l.canResume input limit (p + 1) with
        | true =>
          rw [hc] at hres
          exact ⟨t.skipped, p + 1, m₁, rfl, .resumed ht hr hres⟩
        | false =>
          rw [hc] at hres
          obtain ⟨ts, q, m₂, he, hs⟩ := ih (p + 1) (t.skipped.reverse ++ skipped) m₁ (by omega)
          exact ⟨t.skipped ++ ts, q, m₂, by simpa using he, .more ht hr hres hs⟩

theorem recover_recovers (l : Language) (input : Input) (limit p : Nat) (m : Machine) :
    ∃ m', Recovers l input limit p m (l.recover input limit p).1
      (l.recover input limit p).2 m' := by
  obtain ⟨ts, q, m', he, hs⟩ := l.skip_skipsOver limit (input.size - p) p [] m (Nat.le_refl _)
  refine ⟨(m'.lookAt input p).lookAt input (q - 1), ?_⟩
  simpa [recover, he] using Recovers.error hs

theorem applyRoot_executes (l : Language) (limit p : Nat) (built : List Subtree) (m : Machine)
    (hd : m.depth = 0) (hb : m.run.Bounded input) :
    ∃ o m', l.applyRoot input limit p built m.run =
        (((o.orHere p).1, (o.orHere p).2.reverse ++ built), m'.run) ∧
      Executes l input limit (.rule l.rootRule) p m o m' := by
  obtain ⟨o, m', hm, hx⟩ := l.rootRule_performs input limit l.rootRule p built m hd hb
  refine ⟨o, m', ?_, hx⟩
  unfold applyRoot
  rw [hm]
  cases o <;> rfl

-- Each turn takes a token, so that there are enough of them.
theorem parseFrom_parses (l : Language) (limit turns p : Nat) (built : List Subtree) (m : Machine)
    (hd : m.depth = 0) (hb : m.run.Bounded input) (hp : p ≤ input.size)
    (enough : input.size - p < turns) :
    ∃ ts m', l.parseFrom input limit turns p built m.run = (ts.reverse ++ built, m'.run) ∧
      Parses l input limit p m ts input.size m' := by
  induction turns generalizing p built m with
  | zero => omega
  | succ turns ih =>
    obtain ⟨o, m₁, happly, hx⟩ := l.applyRoot_executes limit p built m hd hb
    obtain ⟨hb₁, hwithin⟩ := hx.bounded hb
    have hq : p ≤ (o.orHere p).1 ∧ (o.orHere p).1 ≤ input.size := by
      match o with
      | none => exact ⟨Nat.le_refl p, hp⟩
      | some (q, ts) =>
        have := Phrase.Outcome.bounded_some.mp hwithin
        simp only [Phrase.Outcome.orHere, Option.getD_some]
        omega
    rw [parseFrom_succ]
    simp only [happly]
    by_cases hend : (o.orHere p).1 < input.size
    · obtain ⟨m₂, hr⟩ := l.recover_recovers input limit (o.orHere p).1 m₁
      obtain ⟨hlt, hle⟩ := l.lt_recover limit hend
      have hd₂ : m₂.depth = 0 := hr.aside.depth_eq.trans (hx.depth_eq.trans hd)
      have hb₂ : m₂.run.Bounded input := by rwa [hr.aside.run_eq]
      obtain ⟨ts, m₃, he, hs⟩ := ih (l.recover input limit (o.orHere p).1).2
        ((l.recover input limit (o.orHere p).1).1 :: ((o.orHere p).2.reverse ++ built)) m₂ hd₂ hb₂
        hle (by omega)
      refine ⟨_, m₃, ?_, .again hx hend hr hs⟩
      rw [if_pos hend, ← hr.aside.run_eq, he]
      simp
    · have hlast : (o.orHere p).1 = input.size := by omega
      refine ⟨(o.orHere p).2, m₁, if_neg hend, ?_⟩
      rw [← hlast]
      exact .done hx (Nat.not_lt.mp hend)

end Language

/-! ## Engines with sound runs -/

/-- Every match that a sound run remembers stands within the input. -/
theorem Run.Sound.bounded {run : Run} (h : run.Sound l input) : run.Bounded input := by
  intro g found hg
  obtain ⟨o, he, rfl⟩ := h g found hg
  refine Phrase.Outcome.bounded_toMatch.mpr fun found ho => ?_
  obtain rfl : o = some found := ho
  exact he.bounds

/-- The engine is evaluating no nonterminal, and what it remembers is sound. -/
structure Machine.AtRest (l : Language) (input : Input) (m : Machine) : Prop where
  depth : m.depth = 0
  sound : m.run.Sound l input

theorem Machine.AtRest.empty : Machine.AtRest l input {} :=
  ⟨rfl, Run.sound_empty⟩

theorem Machine.AtRest.aside (h : m.AtRest l input) (hm : m.Aside limit m') : m'.AtRest l input :=
  ⟨hm.depth_eq.trans h.depth, by rw [hm.run_eq]; exact h.sound⟩

-- What an engine at rest gives for a rule is what the grammar says.
theorem Executes.gives {r : Rule} {o : Phrase.Outcome}
    (h : Executes l input limit (.rule r) p m o m') (hm : m.AtRest l input) :
    m.run.Gives l input (.rule r) p o m'.run := by
  obtain ⟨o₁, m₁, he, hx⟩ := l.rootRule_performs input limit r p [] m hm.depth hm.sound.bounded
  obtain ⟨o₂, run', he', hg⟩ :=
    Language.matchRule_follows (l.nonterminal_follows limit) r p [] m.run hm.sound
  obtain ⟨rfl, rfl⟩ := h.unique hx
  obtain ⟨ho, rfl⟩ := Prod.mk.inj (he.symm.trans he')
  rwa [Phrase.Outcome.toMatch_inj.mp ho]

theorem Executes.atRest {r : Rule} {o : Phrase.Outcome}
    (h : Executes l input limit (.rule r) p m o m') (hm : m.AtRest l input) : m'.AtRest l input :=
  ⟨h.depth_eq.trans hm.depth, (h.gives hm).sound⟩

namespace Language

-- What a parse puts below the root is what the loop adds from the start on.
theorem parseRoot_parses (l : Language) (input : Input) (limit : Nat) :
    ∃ m, Parses l input limit 0 {} (l.parseRoot input limit).1.children input.size m ∧
      (l.parseRoot input limit).2 = m.run.truncated := by
  obtain ⟨ts, m, hm, hs⟩ := l.parseFrom_parses limit (turns input) 0 [] {} rfl
    (Run.bounded_empty input) (Nat.zero_le _) (by simp [turns])
  have hm : l.parseFrom input limit (turns input) 0 [] {} = _ := hm
  refine ⟨m, ?_, by simp only [parseRoot, hm]⟩
  simpa only [parseRoot, hm, List.append_nil, List.reverse_reverse] using hs

namespace AtRoot

variable {built : List Subtree} {run : Run}

-- In every state in which the rule of the root is applied there is an engine that has come there.
theorem exists_machine (h : l.AtRoot input limit p built run) :
    ∃ m, m.run = run ∧ m.AtRest l input ∧ p ≤ input.size ∧
      ∀ ts m', Parses l input limit p m ts input.size m' →
        Parses l input limit 0 {} (built.reverse ++ ts) input.size m' := by
  induction h with
  | start => exact ⟨{}, rfl, .empty, Nat.zero_le _, fun ts m' hs => hs⟩
  | @resume p built run q built' run' _ he hq ih =>
    obtain ⟨m, rfl, hm, -, hextend⟩ := ih
    obtain ⟨o, m₁, happly, hx⟩ := l.applyRoot_executes limit p built m hm.depth hm.sound.bounded
    rw [happly] at he
    obtain ⟨⟨rfl, rfl⟩, rfl⟩ := he
    obtain ⟨m₂, hr⟩ := l.recover_recovers input limit (o.orHere p).1 m₁
    refine ⟨m₂, hr.aside.run_eq, (hx.atRest hm).aside hr.aside, (l.lt_recover limit hq).2, ?_⟩
    intro ts m' hs
    simpa using hextend _ m' (.again hx hq hr hs)

-- From there the engine goes on to the end.
theorem exists_parses (h : l.AtRoot input limit p built run) :
    ∃ m ts m', m.run = run ∧ m.AtRest l input ∧ Parses l input limit p m ts input.size m' ∧
      (l.parseRoot input limit).1.children = built.reverse ++ ts ∧
      Parses l input limit 0 {} (l.parseRoot input limit).1.children input.size m' ∧
      (l.parseRoot input limit).2 = m'.run.truncated := by
  obtain ⟨m, rfl, hm, hp, hextend⟩ := h.exists_machine
  obtain ⟨ts, m', -, hs⟩ := l.parseFrom_parses limit (input.size - p + 1) p built m hm.depth
    hm.sound.bounded hp (Nat.lt_succ_self _)
  obtain ⟨m₀, hroot, htruncated⟩ := l.parseRoot_parses input limit
  obtain ⟨hchildren, -, rfl⟩ := hroot.unique (hextend ts m' hs)
  exact ⟨m, ts, m₀, rfl, hm, hs, hchildren, hroot, htruncated⟩

end AtRoot

end Language

/-! ## Everything that is evaluated in a parse -/

-- The matcher of a call does what an engine with as many levels left does.
theorem Call.matcher_performs (l : Language) (input : Input) {levels depth : Nat}
    (hlevels : levels + depth = limit) (c : Call) :
    (c.matcher l input levels).Performs l input limit depth c.phrase := by
  cases c with
  | rule r => exact Language.matchRule_performs (Language.nonterminal_performs hlevels) r
  | nonterminal s floor => exact Language.nonterminal_performs hlevels s floor

namespace Evaluation

/-- The evaluations of a parse and of the engines that find out where it can go on, each with the
tokens that it sees. -/
inductive Occurs (l : Language) (input : Input) (limit : Nat) : Input → Evaluation → Prop
  | root {p : Nat} {built run} :
      Language.AtRoot l input limit p built run →
      Occurs l input limit input ⟨limit, .rule l.rootRule, p, built, run⟩
  | probe {p : Nat} :
      p < input.size →
      Occurs l input limit (input.take (p + resumeWindow))
        ⟨limit, .rule l.rootRule.resumption, p, [], {}⟩
  | inner {seen e e'} :
      Occurs l input limit seen e → Makes l seen e e' → Occurs l input limit seen e'

variable {seen : Input} {e e' : Evaluation} {o : Phrase.Outcome}

theorem Makes.levels_le (h : Makes l input e e') : e'.levels ≤ e.levels := by
  cases h with
  | ruleSymbol => exact Nat.le_succ _
  | expressionSymbol _ _ _ h => cases h <;> exact Nat.le_succ _
  | _ => exact Nat.le_refl _

theorem Occurs.sound (h : Occurs l input limit seen e) : e.run.Sound l seen := by
  induction h with
  | root hroot => exact hroot.sound
  | probe => exact Run.sound_empty
  | inner _ hmakes ih => exact (hmakes.spec ih).1

theorem Occurs.levels_le (h : Occurs l input limit seen e) : e.levels ≤ limit := by
  induction h with
  | root | probe => exact Nat.le_refl limit
  | inner _ hmakes ih => exact Nat.le_trans hmakes.levels_le ih

/-- The engine that starts the evaluation: the levels that are not left are taken. -/
def machine (e : Evaluation) (limit : Nat) : Machine :=
  { run := e.run, depth := limit - e.levels, deepest := limit - e.levels }

/-- The evaluation comes to an end, in one way only. -/
structure Ends (l : Language) (input : Input) (limit : Nat) (e : Evaluation) (o : Phrase.Outcome)
    (m : Machine) : Prop where
  executes_iff : ∀ o' m', Executes l input limit e.call.phrase e.position (e.machine limit) o' m' ↔
    o' = o ∧ m' = m
  result_eq : e.result l input = (o.toMatch e.built, m.run)
  /-- A match that starts within the input does not go back and stays within the input. -/
  within : e.position ≤ input.size → ∀ next trees, o = some (next, trees) →
    e.position ≤ next ∧ next ≤ input.size
  /-- The count is again what it was. -/
  depth_eq : m.depth = (e.machine limit).depth
  deepest_le : m.deepest ≤ limit

theorem Occurs.ends (h : Occurs l input limit seen e) : ∃ o m, e.Ends l seen limit o m := by
  have hlevels : e.levels + (limit - e.levels) = limit := Nat.add_sub_of_le h.levels_le
  have hb := h.sound.bounded
  obtain ⟨o, m, hm, hx⟩ :=
    e.call.matcher_performs l seen hlevels e.position e.built (e.machine limit) rfl hb
  refine ⟨o, m, ?_, hm, ?_, hx.depth_eq, ?_⟩
  · intro o' m'
    constructor
    · intro hx'
      exact hx'.unique hx
    · rintro ⟨rfl, rfl⟩
      exact hx
  · rintro hp next trees rfl
    have := Phrase.Outcome.bounded_some.mp (hx.bounded hb).2
    omega
  · have : m.deepest ≤ max (limit - e.levels) limit := hx.deepest_le
    omega

end Evaluation

/-! ## Whole parses -/

/-- A parse comes to an end, in one way only, and behind all of the tokens. -/
structure Language.Ends (l : Language) (input : Input) (limit : Nat) (tree : Subtree)
    (m : Machine) : Prop where
  parsesRoot_iff : ∀ tree' last m', ParsesRoot l input limit tree' last m' ↔
    tree' = tree ∧ last = input.size ∧ m' = m
  parseRoot_eq : l.parseRoot input limit = (tree, m.run.truncated)
  depth_eq : m.depth = 0
  deepest_le : m.deepest ≤ limit

namespace Language.Loadable

theorem parseRoot_parsesRoot (hl : l.Loadable) (input : Input) (limit : Nat) :
    ∃ m, ParsesRoot l input limit (l.parseRoot input limit).1 input.size m ∧
      (l.parseRoot input limit).2 = m.run.truncated := by
  obtain ⟨m, hs, htruncated⟩ := l.parseRoot_parses input limit
  exact ⟨m, .root hl.definition?_root hs, htruncated⟩

theorem exists_ends (hl : l.Loadable) (input : Input) (limit : Nat) :
    ∃ tree m, l.Ends input limit tree m := by
  obtain ⟨m, hroot, htruncated⟩ := hl.parseRoot_parsesRoot input limit
  refine ⟨_, m, fun tree' last m' => ?_, Prod.ext rfl htruncated, hroot.contained.1,
    hroot.contained.2⟩
  constructor
  · exact fun h' => h'.unique hroot
  · rintro ⟨rfl, rfl, rfl⟩
    exact hroot

/-- **Parsing comes to an end within the limit.**  Nothing bounds the loops of an engine, and still
there is exactly one thing that it does with a loadable language and an input: it takes all of the
tokens, and what comes of it is the parse.  Whatever is evaluated meanwhile, for the tree or to find
out where parsing can go on, ends as well, and a match does not go back and stays within the tokens
that are seen.  Never are more nonterminals being evaluated than the limit allows, and behind
whatever an engine does there are as many as before. -/
theorem parseRoot_ends (hl : l.Loadable) (input : Input) (limit : Nat) :
    (∃ tree m, l.Ends input limit tree m) ∧
      (∀ seen e, Evaluation.Occurs l input limit seen e → ∃ o m, e.Ends l seen limit o m) ∧
      ∀ seen phrase p m o m', Executes l seen limit phrase p m o m' →
        m'.depth = m.depth ∧ m'.deepest ≤ max m.deepest limit :=
  ⟨hl.exists_ends input limit, fun _ _ he => he.ends,
    fun _ _ _ _ _ _ hx => ⟨hx.depth_eq, hx.deepest_le⟩⟩

theorem parseRoot_ends_sums :
    Language.sums.Loadable ∧ (∃ tree m, Language.sums.Ends .sums 8 tree m) ∧
      ∃ o m, (⟨8, .rule Language.sums.rootRule, 0, [], {}⟩ : Evaluation).Ends .sums .sums 8 o m :=
  have h := parseRoot_ends Language.sums_loadable .sums 8
  ⟨Language.sums_loadable, h.1, h.2.1 _ _ (.root .start)⟩

end Language.Loadable

end GrammarKit
