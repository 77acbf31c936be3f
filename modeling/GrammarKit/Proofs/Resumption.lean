import GrammarKit.Proofs.Uncut
import GrammarKit.Proofs.WellFormed
import Mathlib.Data.List.Chain

/-!
# Where parsing goes on

Behind an error as few tokens are skipped as can be, and where parsing can go on it does go on.  The
engine that finds that out starts from nothing and looks for one match of what the root repeats; the
engine of the parse remembers what it tried before the error and applies the whole rule.  If neither
gives up a nonterminal, both do what the grammar says.
-/

namespace GrammarKit

variable {l : Language} {input : Input} {limit p q : Nat} {m m' : Machine} {ts : List Subtree}

/-! ## Progress -/

/-- What the root repeats, or the rule of the root itself, matches at the position and takes a
token. -/
def Language.MakesProgress (l : Language) (input : Input) (position : Nat) : Prop :=
  ∃ next ts, Evaluates l input False (.rule l.rootRule.resumption) position (some (next, ts)) ∧
    position < next

-- As long as there are few tokens, all of them are looked at.
theorem Input.take_eq_self {count : Nat} (h : input.size ≤ count) : input.take count = input := by
  unfold take
  rw [Array.take_eq_extract, Array.extract_eq_self_of_le h]

/-- Parsing can go on exactly where progress is made. -/
theorem Resumes.eq_true_iff {resumed : Bool} (h : Resumes l input limit p m resumed m')
    (hsize : input.size ≤ resumeWindow) (hc : m'.cutBeside = false) :
    resumed = true ↔ p < input.size ∧ l.MakesProgress input p := by
  cases h with
  | outside hp => simp [Nat.not_lt.mpr hp]
  | @probe o e hp hx =>
    obtain ⟨-, ht⟩ := Bool.or_eq_false_iff.mp hc
    rw [Input.take_eq_self (by omega)] at hx
    have he := hx.evaluates .empty ht
    rw [and_iff_right hp]
    constructor
    · intro hadvances
      match o, he with
      | some (next, ts), he => exact ⟨next, ts, he, of_decide_eq_true hadvances⟩
    · rintro ⟨next, ts, he', hlt⟩
      obtain rfl := he.unique he'
      exact decide_eq_true hlt

-- A repetition cannot fail, and it goes on behind a match that takes a token.
theorem Evaluates.exists_of_zeroOrMore {r : Rule} {o : Phrase.Outcome}
    (h : Evaluates l input False (.rule (.zeroOrMore r)) p o) : ∃ q us, o = some (q, us) := by
  generalize hphrase : Phrase.rule (.zeroOrMore r) = phrase at h
  induction h with
  | repeatFail | repeatStill => exact ⟨_, _, rfl⟩
  | repeatMore _ _ _ _ ih =>
    obtain ⟨q, us, rfl⟩ := ih hphrase
    exact ⟨_, _, rfl⟩
  | _ => cases hphrase

/-- If what a rule repeats makes progress, then so does the rule. -/
theorem Evaluates.advances {r : Rule} {o : Phrase.Outcome} {next : Nat}
    (h : Evaluates l input False (.rule r) p o)
    (hinner : Evaluates l input False (.rule r.resumption) p (some (next, ts))) (hlt : p < next) :
    ∃ q us, o = some (q, us) ∧ p < q := by
  cases r with
  | zeroOrMore r =>
    cases h with
    | repeatFail h => cases h.unique hinner
    | repeatStill h hle =>
      cases h.unique hinner
      omega
    | repeatMore h hq hrest =>
      obtain ⟨q, us, rfl⟩ := hrest.exists_of_zeroOrMore
      have := hrest.bounds.1
      exact ⟨q, _, rfl, by omega⟩
  | oneOrMore r =>
    cases h with
    | oneOrMore h =>
      cases h with
      | seqFail h => cases h.unique hinner
      | seqCons h hrest =>
        cases h.unique hinner
        cases hrest with
        | seqFail h =>
          obtain ⟨q, us, heq⟩ := h.exists_of_zeroOrMore
          cases heq
        | seqCons h hnil =>
          cases hnil
          have := h.bounds.1
          exact ⟨_, _, rfl, by omega⟩
  | _ => exact ⟨next, ts, h.unique hinner, hlt⟩

/-! ## Where skipping ends -/

/-- Tokens are skipped up to the position and no further: behind a recovery token, where parsing can
go on, and at the end. -/
inductive Language.Halts (l : Language) (input : Input) : (next : Nat) → Prop
  | recovery {last t} :
      input.tokens[last]? = some t → l.isRecovery t.symbol = true → Halts l input (last + 1)
  | progress {next} : next < input.size → l.MakesProgress input next → Halts l input next
  | atEnd {next} : next = input.size → Halts l input next

/-- The position is the first one behind a token at which skipping ends. -/
structure Language.SkipsLeast (l : Language) (input : Input) (first next : Nat) : Prop where
  lt : first < next
  le : next ≤ input.size
  halts : l.Halts input next
  least : ∀ q, first < q → q < next → ¬l.Halts input q

-- There is nothing to skip at the end.
theorem SkipsOver.eq_of_size_le (h : SkipsOver l input limit p m ts q m')
    (hp : input.size ≤ p) : q = p := by
  cases h with
  | atEnd => rfl
  | recovery ht | resumed ht | more ht =>
    have := Input.lt_size_of_getElem? ht
    omega

/-- Whether parsing can go on is asked behind every token that is skipped, so that no place is
missed. -/
theorem SkipsOver.skipsLeast (h : SkipsOver l input limit p m ts q m')
    (hsize : input.size ≤ resumeWindow) (hc : m'.cutBeside = false) (hp : p < input.size) :
    l.SkipsLeast input p q := by
  induction h with
  | atEnd hend => omega
  | recovery ht hr =>
    exact ⟨Nat.lt_succ_self _, hp, .recovery ht hr, fun q hlt hgt => by omega⟩
  | resumed ht hr hres =>
    obtain ⟨hlt, hprogress⟩ := (hres.eq_true_iff hsize hc).mp rfl
    exact ⟨Nat.lt_succ_self _, hp, .progress hlt hprogress, fun q hlt hgt => by omega⟩
  | @more p m t m₁ ts q m₂ ht hr hres hs ih =>
    have hc₁ := (hs.relax (Nat.le_refl limit) hc).1
    have hstill : ¬(p + 1 < input.size ∧ l.MakesProgress input (p + 1)) :=
      fun h => by cases (hres.eq_true_iff hsize hc₁).mpr h
    by_cases hnext : p + 1 < input.size
    · obtain ⟨hlt, hle, hhalts, hleast⟩ := ih hc hnext
      refine ⟨by omega, hle, hhalts, fun q' hlt' hgt' => ?_⟩
      rcases Nat.lt_or_eq_of_le hlt' with hlt' | rfl
      · exact hleast q' hlt' hgt'
      · rintro (⟨ht', hr'⟩ | ⟨hq, hprogress⟩ | hend)
        · obtain rfl := Option.some.inj (ht.symm.trans ht')
          simp [hr] at hr'
        · exact hstill ⟨hq, hprogress⟩
        · omega
    · obtain rfl := hs.eq_of_size_le (Nat.not_lt.mp hnext)
      exact ⟨Nat.lt_succ_self p, hp, .atEnd (by omega), fun q' hlt' hgt' => by omega⟩

theorem Recovers.skipsLeast {error : Subtree} (h : Recovers l input limit p m error q m')
    (hsize : input.size ≤ resumeWindow) (hc : m'.cutBeside = false) (hp : p < input.size) :
    l.SkipsLeast input p q := by
  cases h with
  | error hs => exact hs.skipsLeast hsize (by simpa using hc) hp

/-! ## The engine of the parse goes on -/

/-- Where progress is made, the rule of the root takes a token, whatever the run of the parse
remembers there. -/
theorem Language.AtRoot.lt_applyRoot {built : List Subtree} {run : Run}
    (h : l.AtRoot input limit p built run) (hfound : (l.parseRoot input limit).2 = false)
    (hprogress : l.MakesProgress input p) :
    p < (l.applyRoot input limit p built run).1.1 := by
  obtain ⟨next, ts, hinner, hlt⟩ := hprogress
  obtain ⟨o, run', hgives, happly⟩ := l.applyRoot_gives input limit p built run h.sound
  have ht : run'.truncated = false :=
    (congrArg (·.2.truncated) happly).symm.trans (h.truncated_eq_false hfound)
  have he : Evaluates l input False (.rule l.rootRule) p o :=
    hgives.evaluates.mono (by simp [ht])
  obtain ⟨q, us, rfl, hq⟩ := he.advances hinner hlt
  simpa [happly] using hq

-- What a rule of a loadable language matches is no error.
theorem Executes.isError_eq_false (hl : l.Loadable) {r : Rule} {o : Phrase.Outcome}
    (h : Executes l input limit (.rule r) p m o m') (hm : m.AtRest l input) :
    ∀ t ∈ (o.orHere p).2, t.isError = false := by
  intro t ht
  match o, (h.gives hm).evaluates with
  | none, _ => cases ht
  | some (next, ts), he =>
    have hclean := he.justifies.anyError_eq_false hl trivial
    exact (Subtree.hasError_eq_false_iff.mp (Subtree.hasError_eq_false_of_mem hclean ht)).1

-- Tokens that a rule takes stand in its trees.
theorem Evaluates.ne_nil_of_lt (hl : l.Loadable) {r : Rule} {next : Nat}
    (h : Evaluates l input False (.rule r) p (some (next, ts))) (hlt : p < next) : ts ≠ [] := by
  have hb := h.bounds
  obtain ⟨t, ht⟩ := input.exists_getElem? (show p < input.size by omega)
  have hleaves := h.justifies.leaves_eq hl trivial
  rw [Input.between_eq_cons ht hlt] at hleaves
  rintro rfl
  cases hleaves

/-! ## Neighbouring errors -/

/-- The last of the tokens that were skipped is a recovery token. -/
def Subtree.EndsInRecovery (l : Language) (e : Subtree) : Prop :=
  ∃ t : Token, e.children.getLast? = some (.leaf t) ∧ e.stop = t.stop ∧
    l.isRecovery t.symbol = true

theorem Language.Loadable.isToken_of_isRecovery (hl : l.Loadable) {s : Symbol}
    (h : l.isRecovery s = true) : l.artifact.isToken s = true :=
  have ⟨_, hwell⟩ := hl.wellFormed
  Artifact.isToken_iff.mpr (hwell.tokens s (.inr (List.contains_iff_mem.mp h)))

theorem Subtree.Skips.endsInRecovery (hl : l.Loadable) {e : Subtree} {t : Token}
    (h : e.Skips input p (q + 1)) (ht : input.tokens[q]? = some t)
    (hr : l.isRecovery t.symbol = true) : e.EndsInRecovery l := by
  refine ⟨t, ?_, ?_, hr⟩
  · have hclean : t.isError = false := by
      have := hl.ne_errorSymbol_of_isToken (hl.isToken_of_isRecovery hr)
      simpa [Token.isError] using this
    obtain ⟨init, hbetween⟩ := List.getLast?_eq_some_iff.mp (Input.getLast?_between ht h.lt)
    simp [h.children, hbetween, hclean]
  · have hstop := h.stop
    rw [Nat.add_sub_cancel, ht] at hstop
    exact (Option.some.inj hstop).symm

theorem Recovers.skips {error : Subtree} (h : Recovers l input limit p m error q m')
    (hp : p < input.size) : error.Skips input p q := by
  obtain ⟨m'', hr⟩ := l.recover_recovers input limit p m
  obtain ⟨rfl, rfl, -⟩ := h.unique hr
  exact l.recover_skips limit hp

-- Where progress is made, and at the end, no error comes first.
theorem Parses.isError_head (hl : l.Loadable) (h : Parses l input limit p m ts q m')
    (hm : m.AtRest l input) (ht : m'.run.truncated = false)
    (hp : p = input.size ∨ l.MakesProgress input p) : ∀ t ∈ ts.head?, t.isError = false := by
  cases h with
  | done hx => exact fun t ht => hx.isError_eq_false hl hm t (List.mem_of_mem_head? ht)
  | @again p m o m₁ error next m₂ ts last m₃ hx hq hr hs =>
    have he := hx.evaluates hm (hr.aside.run_eq ▸ hs.truncated_eq_false ht)
    obtain rfl | ⟨inner, us, hinner, hlt⟩ := hp
    · -- nothing is left to be skipped at the end
      match o, he with
      | none, _ => exact absurd hq (Nat.lt_irrefl _)
      | some (next, us), he => exact absurd hq (Nat.not_lt.mpr he.bounds.1)
    · obtain ⟨next, us, rfl, hlt⟩ := he.advances hinner hlt
      obtain ⟨u, us, rfl⟩ := List.exists_cons_of_ne_nil (he.ne_nil_of_lt hl hlt)
      intro t ht
      obtain rfl := Option.some.inj ht
      exact hx.isError_eq_false hl hm u List.mem_cons_self

/-- Of two errors side by side the first one ends with a recovery token. -/
theorem Parses.isChain (hl : l.Loadable) (hsize : input.size ≤ resumeWindow)
    (h : Parses l input limit p m ts q m') (hm : m.AtRest l input)
    (ht : m'.run.truncated = false) (hc : m'.cutBeside = false) :
    ts.IsChain fun e e' => e.isError = true → e'.isError = true → e.EndsInRecovery l := by
  -- a tree of the grammar before another tree
  have hclean {us : List Subtree} (hus : ∀ t ∈ us, t.isError = false) :
      us.IsChain fun e e' => e.isError = true → e'.isError = true → e.EndsInRecovery l :=
    (List.pairwise_of_forall_mem_list fun e he e' _ herror => by
      rw [hus e he] at herror
      cases herror).isChain
  induction h with
  | done hx => exact hclean (hx.isError_eq_false hl hm)
  | @again p m o m₁ error next m₂ rest last m₃ hx hq hr hs ih =>
    have hm₂ := (hx.atRest hm).aside hr.aside
    have hc₂ := (hs.relax (Nat.le_refl limit) ht hc).2.1
    have hus := hx.isError_eq_false hl hm
    refine List.isChain_append.mpr ⟨hclean hus, List.isChain_cons.mpr ⟨?_, ih hm₂ ht hc⟩, ?_⟩
    · intro e' he' _ herror'
      -- the parse did not go on right away
      have hstill (hnext : next = input.size ∨ l.MakesProgress input next) : False := by
        rw [hs.isError_head hl hm₂ ht hnext e' he'] at herror'
        cases herror'
      cases (hr.skipsLeast hsize hc₂ hq).halts with
      | recovery htoken hrecovery => exact (hr.skips hq).endsInRecovery hl htoken hrecovery
      | progress _ hprogress => exact (hstill (.inr hprogress)).elim
      | atEnd hend => exact (hstill (.inl hend)).elim
    · intro e he e' _ herror
      rw [hus e (List.mem_of_getLast? he)] at herror
      cases herror

/-! ## Whole parses -/

/-- What is skipped in a parse is skipped up to the first place at which it can end. -/
theorem Language.AtRoot.skipsLeast (hl : l.Loadable) {s : Nat} {built built' : List Subtree}
    {run run' : Run} (h : l.AtRoot input limit p built run)
    (he : l.applyRoot input limit p built run = ((s, built'), run')) (hs : s < input.size)
    (hsize : input.size ≤ resumeWindow) (hfound : (l.parseRoot input limit).2 = false)
    (hprobes : l.ProbesUncut input limit) :
    l.SkipsLeast input s (l.recover input limit s).2 := by
  obtain ⟨m, ts, m', rfl, hm, hparses, -, hroot, htruncated⟩ := h.exists_parses
  have hc : m'.cutBeside = false := hprobes _ _ _ (.root hl.definition?_root hroot)
  obtain ⟨o, m₁, happly, hx⟩ := l.applyRoot_executes limit p built m hm.depth hm.sound.bounded
  rw [happly] at he
  obtain ⟨⟨rfl, rfl⟩, rfl⟩ := he
  generalize input.size = last at hparses
  cases hparses with
  | done hx' hend =>
    obtain ⟨rfl, rfl⟩ := hx.unique hx'
    omega
  | again hx' hq hr hrest =>
    obtain ⟨rfl, rfl⟩ := hx.unique hx'
    have hc₂ := (hrest.relax (Nat.le_refl limit) (htruncated ▸ hfound) hc).2.1
    obtain ⟨m₂, hr'⟩ := l.recover_recovers input limit (o.orHere p).1 m₁
    obtain ⟨-, rfl, -⟩ := hr.unique hr'
    exact hr.skipsLeast hsize hc₂ hq

/-- **Skipping ends as soon as it can, and then parsing goes on.**  If there are few enough tokens
to look at all of them, and if neither the engine of the parse nor one that finds out where it can
go on gives up a nonterminal, then tokens are always skipped up to the first place at which skipping
can end.  If progress is made there, the next application of the rule of the root takes a token.  So
two errors stand side by side only if the first one ends with a recovery token. -/
theorem Language.Loadable.recover_resumes (hl : l.Loadable) (hsize : input.size ≤ resumeWindow)
    (hfound : (l.parseRoot input limit).2 = false) (hprobes : l.ProbesUncut input limit) :
    (∀ p built run s built' run', l.AtRoot input limit p built run →
      l.applyRoot input limit p built run = ((s, built'), run') → s < input.size →
      l.SkipsLeast input s (l.recover input limit s).2 ∧
        (l.MakesProgress input (l.recover input limit s).2 →
          (l.recover input limit s).2 <
            (l.applyRoot input limit (l.recover input limit s).2
              ((l.recover input limit s).1 :: built') run').1.1)) ∧
      (l.parseRoot input limit).1.children.IsChain fun e e' =>
        e.isError = true → e'.isError = true → e.EndsInRecovery l := by
  constructor
  · intro p built run s built' run' h he hs
    exact ⟨h.skipsLeast hl he hs hsize hfound hprobes, (h.resume he hs).lt_applyRoot hfound⟩
  · obtain ⟨m, hparses, htruncated⟩ := l.parseRoot_parses input limit
    exact hparses.isChain hl hsize .empty (htruncated ▸ hfound)
      (hprobes _ _ _ (.root hl.definition?_root hparses))

-- In `+;+1;` the first token is skipped with the recovery token behind it, then the next one, since
-- parsing can go on behind it.
theorem Language.Loadable.recover_resumes_sums :
    (Language.sums.inputOf "+;+1;").size ≤ resumeWindow ∧
      (Language.sums.parseRoot (Language.sums.inputOf "+;+1;") 8).2 = false ∧
      Language.sums.ProbesUncut (Language.sums.inputOf "+;+1;") 8 ∧
      Language.sums.SkipsLeast (Language.sums.inputOf "+;+1;") 0 2 ∧
      Language.sums.SkipsLeast (Language.sums.inputOf "+;+1;") 2 3 ∧
      (Language.sums.parseRoot (Language.sums.inputOf "+;+1;") 8).1.children.length = 3 ∧
      (Language.sums.parseRoot (Language.sums.inputOf "+;+1;") 8).1.children.IsChain fun e e' =>
        e.isError = true → e'.isError = true → e.EndsInRecovery .sums := by
  have hprobes : Language.sums.ProbesUncut (Language.sums.inputOf "+;+1;") 8 :=
    Language.probesUncut_of_probeRun (by decide)
  have hstart : Language.sums.AtRoot (Language.sums.inputOf "+;+1;") 8 0 [] {} := .start
  have hfirst : 0 < (Language.sums.inputOf "+;+1;").size := by decide
  have hsecond : 2 < (Language.sums.inputOf "+;+1;").size := by decide
  obtain ⟨hskips, hchain⟩ := recover_resumes Language.sums_loadable (by decide) (by decide) hprobes
  exact ⟨by decide, by decide, hprobes, (hskips 0 [] {} 0 [] _ hstart rfl hfirst).1,
    (hskips 2 _ _ 2 _ _ (hstart.resume rfl hfirst) rfl hsecond).1, by decide, hchain⟩

end GrammarKit
