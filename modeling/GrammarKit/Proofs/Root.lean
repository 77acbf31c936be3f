import GrammarKit.Proofs.Memo

/-!
# The loop at the root

A parse applies the rule of the root again and again, each time behind the tokens that were skipped
since the last time.  All these applications, and everything that is matched within them, share one
run.
-/

namespace GrammarKit

namespace Language

variable {l : Language} {input : Input} {depth : Nat}

/-! ## Recovery makes progress -/

theorem skip_bounds (l : Language) (input : Input) (depth left p : Nat)
    (skipped : List Subtree) :
    p ≤ (l.skip input depth left p skipped).1 ∧
      (l.skip input depth left p skipped).1 ≤ max p input.size := by
  induction left generalizing p skipped with
  | zero =>
    simp only [skip]
    omega
  | succ left ih =>
    unfold skip
    cases hp : input.tokens[p]? with
    | none =>
      simp only
      omega
    | some t =>
      have hlt := Input.lt_size_of_getElem? hp
      simp only
      split
      · simp only
        omega
      · have := ih (p + 1) (if t.isError then skipped else .leaf t :: skipped)
        omega

-- Recovery takes at least one token and stays within the input.
theorem lt_recover (l : Language) (depth : Nat) {p : Nat} (hp : p < input.size) :
    p < (l.recover input depth p).2 ∧ (l.recover input depth p).2 ≤ input.size := by
  have hb := l.skip_bounds input depth (input.size - p) p []
  have hlt : p < (l.skip input depth (input.size - p) p []).1 := by
    obtain ⟨left, hleft⟩ : ∃ left, input.size - p = left + 1 := ⟨input.size - p - 1, by omega⟩
    have htok : input.tokens[p]? = some input.tokens[p] := Array.getElem?_eq_getElem hp
    rw [hleft]
    unfold skip
    simp only [htok]
    split
    · exact Nat.lt_succ_self p
    · exact (l.skip_bounds input depth left (p + 1)
        (if input.tokens[p].isError then [] else [.leaf input.tokens[p]])).1
  constructor
  · exact hlt
  · show (l.skip input depth (input.size - p) p []).1 ≤ input.size
    omega

/-! ## One application of the rule of the root -/

/-- How far the rule of the root comes from a position, the trees by then and the run after it. -/
def applyRoot (l : Language) (input : Input) (depth : Nat) (p : Nat) (built : List Subtree)
    (run : Run) : (Nat × List Subtree) × Run :=
  let (found, run) := l.matchRule input (l.nonterminal input depth) l.rootRule p built run
  (found.getD (p, built), run)

theorem parseFrom_succ (l : Language) (input : Input) (depth turns p : Nat)
    (built : List Subtree) (run : Run) :
    l.parseFrom input depth (turns + 1) p built run =
      let ((q, built), run) := l.applyRoot input depth p built run
      if q < input.size then
        let (error, next) := l.recover input depth q
        l.parseFrom input depth turns next (error :: built) run
      else (built, run) := rfl

-- The rule of the root does what it says, or nothing if it fails.
theorem applyRoot_gives (l : Language) (input : Input) (depth p : Nat) (built : List Subtree)
    (run : Run) (hs : run.Sound l input) :
    ∃ o run', run.Gives l input (.rule l.rootRule) p o run' ∧
      l.applyRoot input depth p built run = ((o.toMatch built).getD (p, built), run') := by
  obtain ⟨o, run', hm, h⟩ :=
    matchRule_follows (l.nonterminal_follows depth) l.rootRule p built run hs
  exact ⟨o, run', h, by simp [applyRoot, hm]⟩

-- The rule of the root does not go back and stays within the input.
theorem applyRoot_bounds (l : Language) (input : Input) (depth p : Nat) (built : List Subtree)
    (run : Run) (hs : run.Sound l input) :
    p ≤ (l.applyRoot input depth p built run).1.1 ∧
      (l.applyRoot input depth p built run).1.1 ≤ max p input.size := by
  obtain ⟨o, run', h, he⟩ := l.applyRoot_gives input depth p built run hs
  rw [he]
  match o with
  | none =>
    simp only [Phrase.Outcome.toMatch_none, Option.getD_none]
    omega
  | some (q, ts) => exact h.evaluates.bounds

/-! ## The states of a run -/

/-- The states in which a parse applies the rule of the root: the position, the trees before it and
the run. -/
inductive AtRoot (l : Language) (input : Input) (depth : Nat) :
    (position : Nat) → (built : List Subtree) → Run → Prop
  | start : AtRoot l input depth 0 [] {}
  | resume {p built run q built' run'} :
      AtRoot l input depth p built run →
      l.applyRoot input depth p built run = ((q, built'), run') → q < input.size →
      AtRoot l input depth (l.recover input depth q).2 ((l.recover input depth q).1 :: built') run'

theorem AtRoot.sound {p : Nat} {built : List Subtree} {run : Run}
    (h : AtRoot l input depth p built run) : run.Sound l input := by
  induction h with
  | start => exact Run.sound_empty
  | @resume p built run q built' run' _ he _ ih =>
    obtain ⟨o, run₁, hg, he'⟩ := l.applyRoot_gives input depth p built run ih
    obtain rfl : run' = run₁ := congrArg Prod.snd (he.symm.trans he')
    exact hg.sound

-- What is left of the parse in a state in which it applies the rule of the root.
theorem AtRoot.parseFrom_eq {p : Nat} {built : List Subtree} {run : Run}
    (h : AtRoot l input depth p built run) :
    ∃ turns, input.size - p ≤ turns ∧
      l.parseFrom input depth (turns + 1) p built run =
        l.parseFrom input depth (Language.turns input) 0 [] {} := by
  induction h with
  | start => exact ⟨input.size, by omega, rfl⟩
  | @resume p built run q built' run' hroot he hq ih =>
    obtain ⟨turns, hturns, heq⟩ := ih
    have hb := l.applyRoot_bounds input depth p built run hroot.sound
    simp only [he] at hb
    -- the tokens that were taken and skipped leave room for another turn
    have hr := l.lt_recover depth hq
    obtain ⟨rest, rfl⟩ : ∃ rest, turns = rest + 1 := ⟨turns - 1, by omega⟩
    refine ⟨rest, by omega, ?_⟩
    rw [← heq, l.parseFrom_succ input depth (rest + 1)]
    simp only [he, if_pos hq]

-- A run never forgets that something was refused.
theorem truncated_parseFrom {turns p : Nat} {built : List Subtree} {run : Run}
    (hs : run.Sound l input) (ht : run.truncated = true) :
    (l.parseFrom input depth turns p built run).2.truncated = true := by
  induction turns generalizing p built run with
  | zero => exact ht
  | succ turns ih =>
    obtain ⟨o, run', h, he⟩ := l.applyRoot_gives input depth p built run hs
    rw [parseFrom_succ]
    simp only [he]
    split
    · exact ih h.sound (h.kept ht)
    · exact h.kept ht

-- Nothing is refused when the rule of the root is applied if nothing is refused in the parse.
theorem AtRoot.truncated_eq_false {p : Nat} {built : List Subtree} {run : Run}
    (h : AtRoot l input depth p built run)
    (hparse : (l.parseRoot input depth).2 = false) :
    (l.matchRule input (l.nonterminal input depth) l.rootRule p built run).2.truncated =
      false := by
  cases hne : (l.matchRule input (l.nonterminal input depth) l.rootRule p built run).2.truncated
  · rfl
  obtain ⟨turns, -, heq⟩ := h.parseFrom_eq
  -- what is refused here stays refused until the parse ends
  have hrest : (l.parseFrom input depth (turns + 1) p built run).2.truncated = true := by
    obtain ⟨o, run', hg, he⟩ := l.applyRoot_gives input depth p built run h.sound
    have ht : run'.truncated = true := (congrArg (·.2.truncated) he).symm.trans hne
    rw [parseFrom_succ]
    simp only [he]
    split
    · exact truncated_parseFrom hg.sound ht
    · exact ht
  rw [heq] at hrest
  exact absurd hrest (by simpa [parseRoot] using hparse)

end Language

end GrammarKit
