import GrammarKit.Proofs.Performing
import GrammarKit.Proofs.Trace
import GrammarKit.Proofs.Writing

/-!
# Backtracking leaves no trace

Whatever an engine knows and whatever its output holds, a rule that fails leaves the output as it
was, and a match appends to every output the same.  The loops and the alternatives of a grammar rely
on it, for they go on with the output that a failure hands back to them.
-/

namespace GrammarKit

/-! ## Loops -/

section

variable (l : Language) (input : Input) (limit : Nat)

/-- The rounds of a loop over a rule that take at least one token each. -/
inductive Advances (r : Rule) : (position : Nat) → Machine → (out : List Subtree) → (last : Nat) →
    (out' : List Subtree) → Machine → Prop
  | still {p m out} : Advances r p m out p out m
  | step {p m out q out₁ m₁ last out₂ m₂} :
      Writes l input limit (.rule r) p m out (some q) out₁ m₁ → p < q →
      Advances r q m₁ out₁ last out₂ m₂ →
      Advances r p m out last out₂ m₂

end

variable {l : Language} {input : Input} {limit p : Nat} {m m' m₁ : Machine}
  {out out' : List Subtree} {next : Option Nat}

/-- A loop goes through rounds that take tokens and then through one that does not. -/
theorem Writes.advances {r : Rule}
    (h : Writes l input limit (.rule (.zeroOrMore r)) p m out next out' m') :
    ∃ last m₁, next = some last ∧ Advances l input limit r p m out last out' m₁ ∧
      ∃ next' dropped, Writes l input limit (.rule r) last m₁ out' next' dropped m' ∧
        ∀ q ∈ next', q ≤ last := by
  generalize hw : Work.rule (.zeroOrMore r) = w at h
  induction h with
  | repeatMore hround hq _ _ ih =>
    cases hw
    obtain ⟨last, m₁, hlast, hadvances, hend⟩ := ih rfl
    exact ⟨last, m₁, hlast, .step hround hq hadvances, hend⟩
  | @repeatStill _ p m out q written m' hround hq =>
    cases hw
    obtain ⟨ts, -, rfl⟩ := hround.explained
    have htake : (Work.matched out ts (.rule r)).take out.length = out := by simp [Work.matched]
    rw [htake]
    exact ⟨p, m, rfl, .still, some q, _, hround, by simpa using hq⟩
  | @repeatFail _ p m out written m' hround =>
    cases hw
    obtain ⟨-, rfl⟩ := hround.explained
    exact ⟨p, m, rfl, .still, none, _, hround, by simp⟩
  | _ => cases hw

theorem Advances.writes {r : Rule} {last : Nat} {next' : Option Nat} {dropped : List Subtree}
    (h : Advances l input limit r p m out last out' m₁)
    (hround : Writes l input limit (.rule r) last m₁ out' next' dropped m')
    (hq : ∀ q ∈ next', q ≤ last) :
    Writes l input limit (.rule (.zeroOrMore r)) p m out (some last) out' m' := by
  induction h with
  | @still p m out =>
    cases next' with
    | none =>
      obtain ⟨-, rfl⟩ := hround.explained
      exact .repeatFail hround
    | some q =>
      obtain ⟨ts, -, rfl⟩ := hround.explained
      have hstill := Writes.repeatStill hround (hq q rfl)
      simpa [Work.matched] using hstill
  | step hfirst hlt _ ih => exact .repeatMore hfirst hlt (ih hround hq)

/-! ## Matchers only append -/

theorem Match.behind_append (found : Match) (trees built : List Subtree) :
    found.behind (trees ++ built) = (found.behind trees).behind built := by
  match found with
  | none => rfl
  | some (next, ts) => simp

/-- Whatever it knows, the matcher returns behind other trees what it returns behind none. -/
def Matcher.Appends (m : Matcher) : Prop :=
  ∀ (p : Nat) (built : List Subtree) (run : Run),
    m p built run = ((m p [] run).1.behind built, (m p [] run).2)

namespace Matcher.Appends

variable {m first second : Matcher}

theorem fail : Matcher.fail.Appends :=
  fun _ _ _ => rfl

theorem succeed : Matcher.succeed.Appends :=
  fun _ _ _ => rfl

theorem token (tokens : Array Token) (s : Symbol) : (Matcher.token tokens s).Appends := by
  intro p built run
  unfold Matcher.token
  cases tokens[p]? with
  | none => rfl
  | some t =>
    simp only
    split <;> rfl

theorem andThen (h₁ : first.Appends) (h₂ : second.Appends) : (first.andThen second).Appends := by
  intro p built run
  unfold Matcher.andThen
  rw [h₁ p built run]
  match first p [] run with
  | (none, run₁) => rfl
  | (some (q, ts), run₁) =>
    simp only [Match.behind_some]
    rw [h₂ q (ts ++ built), h₂ q ts, Match.behind_append]

theorem orElse (h₁ : first.Appends) (h₂ : second.Appends) : (first.orElse second).Appends := by
  intro p built run
  unfold Matcher.orElse
  rw [h₁ p built run]
  match first p [] run with
  | (none, run₁) => exact h₂ p built run₁
  | (some found, run₁) => rfl

theorem iterate (h : m.Appends) (turns : Nat) : (m.iterate turns).Appends := by
  induction turns with
  | zero => exact succeed
  | succ turns ih =>
    intro p built run
    unfold Matcher.iterate
    rw [h p built run]
    obtain ⟨_ | ⟨q, ts⟩, run₁⟩ := m p [] run
    · rfl
    · simp only [Match.behind_some]
      split
      · rw [ih q (ts ++ built), ih q ts, Match.behind_append]
      · rfl

end Matcher.Appends

namespace Rule

variable {refer : Symbol → Matcher}

mutual

theorem matcher_appends (h : ∀ s, (refer s).Appends) (turns : Nat) :
    ∀ r : Rule, (r.matcher refer turns).Appends
  | .symbol s => h s
  | .seq rules => allMatcher_appends h turns rules
  | .choice rules => anyMatcher_appends h turns rules
  | .zeroOrMore r => (matcher_appends h turns r).iterate turns
  | .oneOrMore r => (matcher_appends h turns r).andThen ((matcher_appends h turns r).iterate turns)
  | .optional r => (matcher_appends h turns r).orElse .succeed

theorem allMatcher_appends (h : ∀ s, (refer s).Appends) (turns : Nat) :
    ∀ rules, (allMatcher refer turns rules).Appends
  | [] => .succeed
  | r :: rules => (matcher_appends h turns r).andThen (allMatcher_appends h turns rules)

theorem anyMatcher_appends (h : ∀ s, (refer s).Appends) (turns : Nat) :
    ∀ rules, (anyMatcher refer turns rules).Appends
  | [] => .fail
  | r :: rules => (matcher_appends h turns r).orElse (anyMatcher_appends h turns rules)

end

end Rule

namespace Language

-- The definition of a nonterminal is matched behind nothing.
theorem nonterminal_appends (l : Language) (input : Input) (levels : Nat) (s : Symbol)
    (floor : Precedence) : (l.nonterminal input levels s floor).Appends := by
  intro p built run
  cases levels <;> unfold nonterminal
  · cases run.memo[Goal.mk s p floor]? with
    | none => rfl
    | some found => simp [← Match.behind_append]
  · cases run.memo[Goal.mk s p floor]? with
    | none =>
      cases l.symbol? s with
      | none => rfl
      | some info => simp [← Match.behind_append]
    | some found => simp [← Match.behind_append]

theorem matchRule_appends (l : Language) (input : Input) (levels : Nat) (r : Rule) :
    (l.matchRule input (l.nonterminal input levels) r).Appends := by
  refine r.matcher_appends (fun s => ?_) (turns input)
  unfold refer
  split
  · exact .token input.tokens s
  · exact .token input.tokens s
  · exact l.nonterminal_appends input levels s .lowest
  · exact l.nonterminal_appends input levels s .lowest
  · exact .fail

end Language

/-! ## No trace of a failure -/

/-- In whatever state and on whatever output an engine matches the rule, it leaves nothing in the
output but the trees of a match. -/
structure Rule.LeavesNoTrace (l : Language) (input : Input) (limit : Nat) (r : Rule) : Prop where
  /-- A failure leaves the output as it was, and every other output as well. -/
  failed : ∀ p m out out' m', Writes l input limit (.rule r) p m out none out' m' →
    out' = out ∧
      ∀ other next other' m₁, Writes l input limit (.rule r) p m other next other' m₁ ↔
        next = none ∧ other' = other ∧ m₁ = m'
  /-- A match only appends to the output, and the same to every other output. -/
  matched : ∀ p m out q out' m', Writes l input limit (.rule r) p m out (some q) out' m' →
    ∃ ts, out' = out ++ ts ∧
      ∀ other next other' m₁, Writes l input limit (.rule r) p m other next other' m₁ ↔
        next = some q ∧ other' = other ++ ts ∧ m₁ = m'
  /-- A loop over the rule leaves what the rounds have written that take tokens, and nothing of the
  round behind them, which takes none. -/
  repeated : ∀ p m out next out' m',
    Writes l input limit (.rule (.zeroOrMore r)) p m out next out' m' ↔
      ∃ last m₁, next = some last ∧ Advances l input limit r p m out last out' m₁ ∧
        ∃ next' dropped, Writes l input limit (.rule r) last m₁ out' next' dropped m' ∧
          ∀ q ∈ next', q ≤ last
  /-- The matcher of the rule returns what has become of the output. -/
  returned : ∀ p m, m.run.Bounded input → m.depth ≤ limit → ∀ out, ∃ next out' m',
    Writes l input limit (.rule r) p m out next out' m' ∧
      l.matchRule input (l.nonterminal input (limit - m.depth)) r p out.reverse m.run =
        (next.map fun q => (q, out'.reverse), m'.run)
  /-- The matcher itself only appends, whatever the run remembers. -/
  appends : ∀ levels, (l.matchRule input (l.nonterminal input levels) r).Appends

/-- **A failed match leaves no trace.**  Whatever an engine knows and whatever its output holds, a
rule that fails leaves the output as it was, and a match only appends to it, to every output the
same.  A loop drops what a round has written that takes no token. -/
theorem Rule.leavesNoTrace (l : Language) (input : Input) (limit : Nat) (r : Rule) :
    r.LeavesNoTrace l input limit where
  failed p m out out' m' h := by
    obtain ⟨hx, rfl⟩ := h.explained
    refine ⟨rfl, fun other next other' m₁ => ?_⟩
    simpa using hx.writes_iff other next other' m₁
  matched p m out q out' m' h := by
    obtain ⟨ts, hx, rfl⟩ := h.explained
    exact ⟨ts, rfl, hx.writes_iff⟩
  repeated p m out next out' m' := by
    constructor
    · exact Writes.advances
    · rintro ⟨last, m₁, rfl, hadvances, next', dropped, hround, hq⟩
      exact hadvances.writes hround hq
  returned p m hb hd out := by
    have hlevels : limit - m.depth + m.depth = limit := Nat.sub_add_cancel hd
    obtain ⟨o, m', hm, hx⟩ := Language.matchRule_performs (Language.nonterminal_performs hlevels)
      r p out.reverse m rfl hb
    refine ⟨o.next, o.addedTo out, m', (hx.writes_iff _ _ _ _).mpr ⟨rfl, rfl, rfl⟩, ?_⟩
    rw [hm, Phrase.Outcome.toMatch_reverse]
  appends levels := l.matchRule_appends input levels r

-- A statement without its semicolon: the sum is written behind the leaf that was there before, and
-- it is cut off again.
theorem Rule.leavesNoTrace_sums :
    ∃ half m',
      Writes .sums (Input.sums.take 3) 8 (.sequence [.symbol 7, .symbol 2]) 0 {}
        [.leaf ⟨2, 0, 0⟩] none half m' ∧
      half.length = 2 ∧
      Writes .sums (Input.sums.take 3) 8 (.rule (.seq [.symbol 7, .symbol 2])) 0 {}
        [.leaf ⟨2, 0, 0⟩] none [.leaf ⟨2, 0, 0⟩] m' := by
  obtain ⟨next, half, m', hsum, hm⟩ :=
    (leavesNoTrace .sums (Input.sums.take 3) 8 (.symbol 7)).returned 0 {}
      (Run.bounded_empty _) (Nat.zero_le 8) [.leaf ⟨2, 0, 0⟩]
  have hfound : some (3, 2) = _ :=
    .trans (by decide) (congrArg (·.1.map fun found => (found.1, found.2.length)) hm)
  obtain ⟨rfl, hlength⟩ : next = some 3 ∧ half.length = 2 := by
    cases next <;> simp_all
  have hmissed : Writes .sums (Input.sums.take 3) 8 (.rule (.symbol 2)) 3 m' half none half m' :=
    .otherToken (by decide) fun t ht => by cases ht
  have hbroken :
      Writes .sums (Input.sums.take 3) 8 (.sequence [.symbol 2]) 3 m' half none half m' :=
    .sequenceFail hmissed
  have hhalf := Writes.sequenceCons hsum hbroken
  have hstatement := Writes.seqFail hhalf
  refine ⟨half, m', hhalf, hlength, ?_⟩
  obtain ⟨hcut, -⟩ := (leavesNoTrace .sums (Input.sums.take 3) 8 _).failed _ _ _ _ _ hstatement
  rwa [hcut] at hstatement

end GrammarKit
