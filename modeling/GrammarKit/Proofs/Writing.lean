import GrammarKit.Proofs.Execution

/-!
# Writing to an output

An engine writes what it matches at the end of an output, and a rule writes to the output that its
caller is writing to. Alternatives hand the output on as a failure has left it; only a sequence
that breaks off and a loop whose body takes no token cut it back. Here every write and every cut
is a step of its own, so that nothing keeps the trees of a failed match out of an output but the
steps themselves. What is written is then compared with the executions, which know no output.
-/

namespace GrammarKit

/-! ## Outcomes on an output -/

namespace Phrase.Outcome

/-- The position behind the match, if it is one. -/
def next (o : Outcome) : Option Nat :=
  o.map (·.1)

/-- The output with the trees of the match, if it is one, at its end. -/
def addedTo (o : Outcome) (out : List Subtree) : List Subtree :=
  out ++ (o.map (·.2)).getD []

variable {o : Outcome} {q : Nat} {ts out : List Subtree}

@[simp] theorem next_none : next none = none := rfl

@[simp] theorem next_some : next (some (q, ts)) = some q := rfl

@[simp] theorem addedTo_none : addedTo none out = out :=
  List.append_nil out

@[simp] theorem addedTo_some : addedTo (some (q, ts)) out = out ++ ts := rfl

@[simp] theorem next_mapTrees {f : List Subtree → List Subtree} : (o.mapTrees f).next = o.next := by
  cases o <;> rfl

-- A matcher puts the last tree first.
theorem toMatch_reverse :
    o.toMatch out.reverse = o.next.map fun q => (q, (o.addedTo out).reverse) := by
  match o with
  | none => rfl
  | some (q, ts) => simp

end Phrase.Outcome

/-! ## Writing -/

/-- What an engine works at with a list of trees in hand. -/
inductive Work where
  | rule (rule : Rule)
  /-- The rules of a sequence, one after the other. -/
  | sequence (rules : List Rule)
  | nonterminal (symbol : Symbol) (floor : Precedence)
  | expression (symbol : Symbol) (table : ExpressionTable) (floor : Precedence)
  | operand (symbol : Symbol) (table : ExpressionTable)
  /-- The first of the postfix rules that applies to the expression in hand. -/
  | application (floor : Precedence) (ops : List PostfixRule)
  /-- All operators that extend the expression in hand, one after the other. -/
  | extension (symbol : Symbol) (table : ExpressionTable) (floor : Precedence)

/-- How a symbol with the definition is matched. -/
def Definition.work? (s : Symbol) (floor : Precedence) : Definition → Option Work
  | .rule r => some (.rule r)
  | .expression table => some (.expression s table floor)
  | _ => none

/-- What a nonterminal makes of the list that its definition has written from nothing. -/
def SymbolInfo.result (info : SymbolInfo) (s : Symbol) (place : Nat) (next : Option Nat)
    (written : List Subtree) : Phrase.Outcome :=
  next.map fun q => (q, info.enclose s place written)

section

variable (l : Language) (input : Input) (limit : Nat)

/-- What becomes of the list `out` when an engine works at a position, and the position behind the
match if there is one. -/
inductive Writes : Work → (position : Nat) → Machine → (out : List Subtree) → (next : Option Nat) →
    (out' : List Subtree) → Machine → Prop
  | token {s p m out t} :
      l.artifact.isToken s = true → input.tokens[p]? = some t → t.symbol = s →
      Writes (.rule (.symbol s)) p m out (some (p + 1)) (out ++ [.leaf t]) m
  | otherToken {s p m out} :
      l.artifact.isToken s = true → (∀ t, input.tokens[p]? = some t → t.symbol ≠ s) →
      Writes (.rule (.symbol s)) p m out none out m
  | call {s p m out next out' m'} :
      l.artifact.isNonterminal s = true →
      Writes (.nonterminal s .lowest) p m out next out' m' →
      Writes (.rule (.symbol s)) p m out next out' m'
  | unparseable {s p m out} :
      l.artifact.isToken s = false → l.artifact.isNonterminal s = false →
      Writes (.rule (.symbol s)) p m out none out m.stray
  | seq {rs p m out q out' m'} :
      Writes (.sequence rs) p m out (some q) out' m' →
      Writes (.rule (.seq rs)) p m out (some q) out' m'
  -- what the rules before the failure have written is cut off
  | seqFail {rs p m out out' m'} :
      Writes (.sequence rs) p m out none out' m' →
      Writes (.rule (.seq rs)) p m out none (out'.take out.length) m'
  | sequenceNil {p m out} : Writes (.sequence []) p m out (some p) out m
  | sequenceCons {r rs p m out q out₁ m₁ next out₂ m₂} :
      Writes (.rule r) p m out (some q) out₁ m₁ →
      Writes (.sequence rs) q m₁ out₁ next out₂ m₂ →
      Writes (.sequence (r :: rs)) p m out next out₂ m₂
  | sequenceFail {r rs p m out out' m'} :
      Writes (.rule r) p m out none out' m' →
      Writes (.sequence (r :: rs)) p m out none out' m'
  | choiceNil {p m out} : Writes (.rule (.choice [])) p m out none out m
  | choiceFirst {r rs p m out q out' m'} :
      Writes (.rule r) p m out (some q) out' m' →
      Writes (.rule (.choice (r :: rs))) p m out (some q) out' m'
  -- nothing is cut off here, nor where a rule is optional or a loop ends with a failure
  | choiceLater {r rs p m out out₁ m₁ next out₂ m₂} :
      Writes (.rule r) p m out none out₁ m₁ →
      Writes (.rule (.choice rs)) p m₁ out₁ next out₂ m₂ →
      Writes (.rule (.choice (r :: rs))) p m out next out₂ m₂
  | optional {r p m out next out' m'} :
      Writes (.rule r) p m out next out' m' →
      Writes (.rule (.optional r)) p m out (some (next.getD p)) out' m'
  | repeatMore {r p m out q out₁ m₁ last out₂ m₂} :
      Writes (.rule r) p m out (some q) out₁ m₁ → p < q →
      Writes (.rule (.zeroOrMore r)) q m₁ out₁ (some last) out₂ m₂ →
      Writes (.rule (.zeroOrMore r)) p m out (some last) out₂ m₂
  -- what a round without progress has written is cut off
  | repeatStill {r p m out q out' m'} :
      Writes (.rule r) p m out (some q) out' m' → q ≤ p →
      Writes (.rule (.zeroOrMore r)) p m out (some p) (out'.take out.length) m'
  | repeatFail {r p m out out' m'} :
      Writes (.rule r) p m out none out' m' →
      Writes (.rule (.zeroOrMore r)) p m out (some p) out' m'
  | oneOrMore {r p m out q out₁ m₁ last out₂ m₂} :
      Writes (.rule r) p m out (some q) out₁ m₁ →
      Writes (.rule (.zeroOrMore r)) q m₁ out₁ (some last) out₂ m₂ →
      Writes (.rule (.oneOrMore r)) p m out (some last) out₂ m₂
  | oneOrMoreFail {r p m out out' m'} :
      Writes (.rule r) p m out none out' m' →
      Writes (.rule (.oneOrMore r)) p m out none out' m'
  | remembered {s floor p m out} {o : Phrase.Outcome} :
      m.run.memo[Goal.mk s p floor]? = some (o.toMatch []) →
      Writes (.nonterminal s floor) p m out o.next (o.addedTo out) m
  | refused {s floor p m out} :
      m.run.memo[Goal.mk s p floor]? = none → limit ≤ m.depth →
      Writes (.nonterminal s floor) p m out none out m.refuse
  | unknown {s floor p m out} :
      m.run.memo[Goal.mk s p floor]? = none → m.depth < limit → l.symbol? s = none →
      Writes (.nonterminal s floor) p m out none out m.stray
  | undefined {s floor p m out info} :
      m.run.memo[Goal.mk s p floor]? = none → m.depth < limit → l.symbol? s = some info →
      info.definition.work? s floor = none →
      Writes (.nonterminal s floor) p m out none out (m.enter.stray.leave ⟨s, p, floor⟩ none)
  -- the definition writes to a list of its own
  | defined {s floor p m out info w next written m'} :
      m.run.memo[Goal.mk s p floor]? = none → m.depth < limit → l.symbol? s = some info →
      info.definition.work? s floor = some w →
      Writes w p m.enter [] next written m' →
      Writes (.nonterminal s floor) p m out next
        ((info.result s (input.offset p) next written).addedTo out)
        (m'.leave ⟨s, p, floor⟩ ((info.result s (input.offset p) next written).toMatch []))
  | noOperand {s table floor p m out left m'} :
      Writes (.operand s table) p m [] none left m' →
      Writes (.expression s table floor) p m out none out m'
  | expression {s table floor p m out q left m₁ last left' m₂} :
      Writes (.operand s table) p m [] (some q) left m₁ →
      Writes (.extension s table floor) q m₁ left (some last) left' m₂ →
      Writes (.expression s table floor) p m out (some last) (out ++ left') m₂
  | prefixed {s table p m t op q written m'} :
      input.tokens[p]? = some t → table.prefixOperator? t = some op →
      Writes (.nonterminal s op.precedence) (p + 1) m [.leaf t] (some q) written m' →
      Writes (.operand s table) p m [] (some q) [.node op.node written (input.offset p)] m'
  | prefixFail {s table p m t op written m'} :
      input.tokens[p]? = some t → table.prefixOperator? t = some op →
      Writes (.nonterminal s op.precedence) (p + 1) m [.leaf t] none written m' →
      Writes (.operand s table) p m [] none written m'
  | operand {s table p m next written m'} :
      input.tokens[p]?.bind table.prefixOperator? = none →
      Writes (.rule table.operand) p m [] next written m' →
      Writes (.operand s table) p m [] next written m'
  | applyNone {floor p m left} : Writes (.application floor []) p m left none left m
  | applyWeak {floor op ops p m left next left' m'} :
      op.precedence < floor →
      Writes (.application floor ops) p m left next left' m' →
      Writes (.application floor (op :: ops)) p m left next left' m'
  | apply {floor op ops p m left q written m'} :
      floor ≤ op.precedence →
      Writes (.rule op.rule) p m [] (some q) written m' → p < q →
      Writes (.application floor (op :: ops)) p m left (some q)
        [.node op.node (left ++ written) (input.offset p)] m'
  | applyLater {floor op ops p m left tried written m₁ next left' m₂} :
      floor ≤ op.precedence →
      Writes (.rule op.rule) p m [] tried written m₁ → (∀ q ∈ tried, q ≤ p) →
      Writes (.application floor ops) p m₁ left next left' m₂ →
      Writes (.application floor (op :: ops)) p m left next left' m₂
  | applied {s table floor p m left q left₁ m₁ last left₂ m₂} :
      Writes (.application floor table.postfixOps) p m left (some q) left₁ m₁ →
      Writes (.extension s table floor) q m₁ left₁ (some last) left₂ m₂ →
      Writes (.extension s table floor) p m left (some last) left₂ m₂
  | joined {s table floor p m left left₁ m₁ t op q right m₂ last left₂ m₃} :
      Writes (.application floor table.postfixOps) p m left none left₁ m₁ →
      input.tokens[p]? = some t → table.infixOperator? floor t = some op →
      Writes (.nonterminal s op.rightFloor) (p + 1) m₁ [] (some q) right m₂ →
      Writes (.extension s table floor) q m₂
        [.node op.node (left₁ ++ .leaf t :: right) (input.offset p)] (some last) left₂ m₃ →
      Writes (.extension s table floor) p m left (some last) left₂ m₃
  | noRight {s table floor p m left left₁ m₁ t op right m₂} :
      Writes (.application floor table.postfixOps) p m left none left₁ m₁ →
      input.tokens[p]? = some t → table.infixOperator? floor t = some op →
      Writes (.nonterminal s op.rightFloor) (p + 1) m₁ [] none right m₂ →
      Writes (.extension s table floor) p m left (some p) left₁ m₂
  | noOperator {s table floor p m left left₁ m₁} :
      Writes (.application floor table.postfixOps) p m left none left₁ m₁ →
      input.tokens[p]?.bind (table.infixOperator? floor) = none →
      Writes (.extension s table floor) p m left (some p) left₁ m₁

end

/-! ## What is written comes of an execution -/

namespace Work

/-- What the work is about when the list `out` is in hand. -/
def phrase (out : List Subtree) : Work → Phrase
  | .rule r => .rule r
  | .sequence rs => .rule (.seq rs)
  | .nonterminal s floor => .nonterminal s floor
  | .expression s table floor => .expression s table floor
  | .operand s table => .operand s table
  | .application floor ops => .application floor ops out
  | .extension s table floor => .extension s table floor out

/-- The list behind a match with the trees `trees`. -/
def matched (out trees : List Subtree) : Work → List Subtree
  | .application _ _ | .extension _ _ _ => trees
  | _ => out ++ trees

/-- What a failure leaves of the list `out`.  Sequences and operands break off with what they have
written so far, and their callers have to cut it off. -/
def Failed (out out' : List Subtree) : Work → Prop
  | .sequence _ | .operand _ _ => out <+: out'
  | _ => out' = out

variable (l : Language) (input : Input) (limit : Nat)

/-- What has become of the list `out` is what comes of an execution. -/
def Explained (w : Work) (p : Nat) (m : Machine) (out : List Subtree) :
    (next : Option Nat) → (out' : List Subtree) → Machine → Prop
  | some q, out', m' => ∃ ts, Executes l input limit (w.phrase out) p m (some (q, ts)) m' ∧
      out' = w.matched out ts
  | none, out', m' => Executes l input limit (w.phrase out) p m none m' ∧ w.Failed out out'

end Work

variable {l : Language} {input : Input} {limit : Nat} {w w' : Work} {p p' : Nat}
  {m m' m₁ : Machine} {out out' : List Subtree} {next : Option Nat}

-- Work that is done by way of other work on the same list.
theorem Work.Explained.map (h : w.Explained l input limit p m out next out' m')
    (hmatched : ∀ ts, w.matched out ts = w'.matched out ts)
    (hfailed : w.Failed out out' → w'.Failed out out')
    (hx : ∀ o, Executes l input limit (w.phrase out) p m o m' →
      Executes l input limit (w'.phrase out) p' m₁ o m') :
    w'.Explained l input limit p' m₁ out next out' m' := by
  cases next with
  | none => exact h.imp (hx none) hfailed
  | some q =>
    obtain ⟨ts, hinner, rfl⟩ := h
    exact ⟨ts, hx _ hinner, hmatched ts⟩

-- A nonterminal is matched by what defines it.
theorem Executes.defined {s : Symbol} {floor : Precedence} {info : SymbolInfo} {o : Phrase.Outcome}
    (hmemo : m.run.memo[Goal.mk s p floor]? = none) (hlt : m.depth < limit)
    (hs : l.symbol? s = some info) (hd : info.definition.work? s floor = some w)
    (h : Executes l input limit (w.phrase []) p m.enter o m') :
    Executes l input limit (.nonterminal s floor) p m
      (o.mapTrees (info.enclose s (input.offset p)))
      (m'.leave ⟨s, p, floor⟩ ((o.mapTrees (info.enclose s (input.offset p))).toMatch [])) := by
  cases hdef : info.definition with
  | rule r =>
    rw [hdef] at hd
    cases hd
    exact .ruleSymbol hmemo hlt hs hdef h
  | expression table =>
    rw [hdef] at hd
    cases hd
    exact .expressionSymbol hmemo hlt hs hdef h
  | literal | pattern | endOfInput | derived =>
    rw [hdef] at hd
    cases hd

namespace Writes

theorem explained (h : Writes l input limit w p m out next out' m') :
    w.Explained l input limit p m out next out' m' := by
  induction h with
  | @token s p m out t ht hp hs =>
    have hleaf : input.leafAt s p = some (p + 1, [.leaf t]) := by
      simp [Input.leafAt, hp, hs, Option.filter]
    exact ⟨_, hleaf ▸ .token ht, rfl⟩
  | @otherToken s p m out ht hp =>
    have hleaf : input.leafAt s p = none := by
      simpa [Input.leafAt, Option.filter_eq_none_iff] using hp
    exact ⟨hleaf ▸ .token ht, rfl⟩
  | call hs _ ih => exact ih.map (fun _ => rfl) id fun _ => .call hs
  | unparseable ht hs => exact ⟨.unparseable ht hs, rfl⟩
  | seq _ ih => exact ih
  | seqFail _ ih =>
    -- what was there before stands in front of what was written of the sequence
    exact ih.imp_right fun hout => (List.prefix_iff_eq_take.mp hout).symm
  | sequenceNil => exact ⟨[], .seqNil, (List.append_nil _).symm⟩
  | @sequenceCons r rs p m out q out₁ m₁ next out₂ m₂ _ _ ih₁ ih₂ =>
    obtain ⟨ts, hx₁, rfl⟩ := ih₁
    cases next with
    | none =>
      obtain ⟨hx₂, hout⟩ := ih₂
      exact ⟨.seqCons hx₁ hx₂, (List.prefix_append out ts).trans hout⟩
    | some q' =>
      obtain ⟨ts', hx₂, rfl⟩ := ih₂
      exact ⟨ts ++ ts', .seqCons hx₁ hx₂, List.append_assoc out ts ts'⟩
  | sequenceFail _ ih =>
    obtain ⟨hx, rfl⟩ := ih
    exact ⟨.seqFail hx, List.prefix_refl _⟩
  | choiceNil => exact ⟨.choiceNil, rfl⟩
  | choiceFirst _ ih => exact ih.imp fun _ => .imp_left .choiceFirst
  | choiceLater _ _ ih₁ ih₂ =>
    -- the alternative that failed has left nothing for the later ones
    obtain ⟨hx₁, rfl⟩ := ih₁
    exact ih₂.map (fun _ => rfl) id fun _ => .choiceLater hx₁
  | @optional r p m out next out' m' _ ih =>
    cases next with
    | none =>
      obtain ⟨hx, rfl⟩ := ih
      exact ⟨[], .optional (.choiceLater hx (.choiceFirst .seqNil)), (List.append_nil _).symm⟩
    | some q => exact ih.imp fun _ => .imp_left fun hx => .optional (.choiceFirst hx)
  | @repeatMore r p m out q out₁ m₁ last out₂ m₂ _ hq _ ih₁ ih₂ =>
    obtain ⟨ts, hx₁, rfl⟩ := ih₁
    obtain ⟨ts', hx₂, rfl⟩ := ih₂
    exact ⟨ts ++ ts', .repeatMore hx₁ hq hx₂, List.append_assoc out ts ts'⟩
  | @repeatStill r p m out q out' m' _ hq ih =>
    obtain ⟨ts, hx, rfl⟩ := ih
    have hstill : Phrase.Outcome.advances (some (q, ts)) p = false := by
      simpa [Phrase.Outcome.advances] using hq
    exact ⟨[], .repeatEnd hx hstill, by simp [Work.matched]⟩
  | repeatFail _ ih =>
    obtain ⟨hx, rfl⟩ := ih
    exact ⟨[], .repeatEnd hx rfl, (List.append_nil _).symm⟩
  | @oneOrMore r p m out q out₁ m₁ last out₂ m₂ _ _ ih₁ ih₂ =>
    obtain ⟨ts, hx₁, rfl⟩ := ih₁
    obtain ⟨ts', hx₂, rfl⟩ := ih₂
    have hseq := Executes.seqCons hx₁ (.seqCons hx₂ .seqNil)
    exact ⟨_, .oneOrMore hseq, by simp [Work.matched]⟩
  | oneOrMoreFail _ ih => exact ih.imp_left fun hx => .oneOrMore (.seqFail hx)
  | @remembered s floor p m out o hmemo =>
    obtain _ | ⟨q, ts⟩ := o
    · exact ⟨.remembered hmemo, List.append_nil out⟩
    · exact ⟨ts, .remembered hmemo, rfl⟩
  | refused hmemo hlt => exact ⟨.refused hmemo hlt, rfl⟩
  | unknown hmemo hlt hs => exact ⟨.unknown hmemo hlt hs, rfl⟩
  | @undefined s floor p m out info hmemo hlt hs hd =>
    refine ⟨.undefined hmemo hlt hs ?_, rfl⟩
    cases hdef : info.definition <;> simp_all [Definition.work?, Definition.isNonterminal]
  | @defined s floor p m out info w next written m' hmemo hlt hs hd _ ih =>
    cases next with
    | none => exact ⟨.defined hmemo hlt hs hd ih.1, List.append_nil out⟩
    | some q =>
      obtain ⟨ts, hx, hwritten⟩ := ih
      obtain rfl : written = ts := hwritten.trans (by cases w <;> rfl)
      exact ⟨_, .defined hmemo hlt hs hd hx, rfl⟩
  | noOperand _ ih => exact ⟨.noOperand ih.1, rfl⟩
  | expression _ _ ih₁ ih₂ =>
    obtain ⟨left, hx₁, rfl⟩ := ih₁
    obtain ⟨_, hx₂, rfl⟩ := ih₂
    exact ⟨_, .expression hx₁ hx₂, rfl⟩
  | prefixed ht hop _ ih =>
    obtain ⟨ts, hx, rfl⟩ := ih
    exact ⟨_, .prefixed ht hop hx, rfl⟩
  | prefixFail ht hop _ ih => exact ⟨.prefixed ht hop ih.1, List.nil_prefix⟩
  | operand hop _ ih => exact ih.map (fun _ => rfl) (fun _ => List.nil_prefix) fun _ => .operand hop
  | applyNone => exact ⟨.applyNone, rfl⟩
  | applyWeak hw _ ih => exact ih.map (fun _ => rfl) id fun _ => .applyWeak hw
  | apply hf _ hq ih =>
    obtain ⟨ts, hx, rfl⟩ := ih
    exact ⟨_, .apply hf hx hq, rfl⟩
  | @applyLater floor op ops p m left tried written m₁ next left' m₂ hf _ hq _ ih₁ ih₂ =>
    obtain ⟨o, hx₁, hstill⟩ : ∃ o, Executes l input limit (.rule op.rule) p m o m₁ ∧
        o.advances p = false := by
      cases tried with
      | none => exact ⟨none, ih₁.1, rfl⟩
      | some q =>
        obtain ⟨ts, hx, -⟩ := ih₁
        exact ⟨_, hx, by simpa [Phrase.Outcome.advances] using hq⟩
    exact ih₂.map (fun _ => rfl) id fun _ => .applyLater hf hx₁ hstill
  | applied _ _ ih₁ ih₂ =>
    obtain ⟨left₁, hx₁, rfl⟩ := ih₁
    exact ih₂.imp fun _ => .imp_left (.applied hx₁)
  | joined _ ht hop _ _ ih₁ ih₂ ih₃ =>
    obtain ⟨hx₁, rfl⟩ := ih₁
    obtain ⟨right, hx₂, rfl⟩ := ih₂
    exact ih₃.imp fun _ => .imp_left (.joined hx₁ ht hop hx₂)
  | noRight _ ht hop _ ih₁ ih₂ =>
    obtain ⟨hx₁, rfl⟩ := ih₁
    exact ⟨_, .noRight hx₁ ht hop ih₂.1, rfl⟩
  | noOperator _ hop ih =>
    obtain ⟨hx, rfl⟩ := ih
    exact ⟨_, .noOperator hx hop, rfl⟩

-- Whoever knows what comes of the work knows what has become of the list.
theorem eq_of_executes {o : Phrase.Outcome} (h : Writes l input limit w p m out next out' m')
    (hx : Executes l input limit (w.phrase out) p m o m₁) :
    next = o.next ∧ m' = m₁ ∧ ∀ found ∈ o, out' = w.matched out found.2 := by
  cases next with
  | none =>
    obtain ⟨rfl, rfl⟩ := h.explained.1.unique hx
    exact ⟨rfl, rfl, by simp⟩
  | some q =>
    obtain ⟨ts, hx', rfl⟩ := h.explained
    obtain ⟨rfl, rfl⟩ := hx'.unique hx
    exact ⟨rfl, rfl, by simp⟩

end Writes

/-! ## Every execution can be written -/

section

variable (l : Language) (input : Input) (limit : Nat)

/-- The phrase is written at a position, whatever is in hand, from one state to another. -/
def Phrase.Written (p : Nat) (m : Machine) (next : Option Nat) (m' : Machine) : Phrase → Prop
  | .rule r => ∀ out, ∃ out', Writes l input limit (.rule r) p m out next out' m'
  | .nonterminal s floor =>
    ∀ out, ∃ out', Writes l input limit (.nonterminal s floor) p m out next out' m'
  | .expression s table floor =>
    ∀ out, ∃ out', Writes l input limit (.expression s table floor) p m out next out' m'
  | .operand s table => ∃ out', Writes l input limit (.operand s table) p m [] next out' m'
  | .application floor ops left =>
    ∃ out', Writes l input limit (.application floor ops) p m left next out' m'
  | .extension s table floor left =>
    ∃ out', Writes l input limit (.extension s table floor) p m left next out' m'

end

namespace Writes

variable {r : Rule} {rs : List Rule}

theorem exists_sequence (h : Writes l input limit (.rule (.seq rs)) p m out next out' m') :
    ∃ written, Writes l input limit (.sequence rs) p m out next written m' := by
  cases h with
  | seq h => exact ⟨_, h⟩
  | seqFail h => exact ⟨_, h⟩

theorem exists_seq (h : Writes l input limit (.sequence rs) p m out next out' m') :
    ∃ left, Writes l input limit (.rule (.seq rs)) p m out next left m' := by
  cases next with
  | none => exact ⟨_, .seqFail h⟩
  | some q => exact ⟨_, .seq h⟩

-- Loops never fail.
theorem exists_last (h : Writes l input limit (.rule (.zeroOrMore r)) p m out next out' m') :
    ∃ last, next = some last := by
  cases h <;> exact ⟨_, rfl⟩

theorem exists_last_of_extension {s : Symbol} {table : ExpressionTable} {floor : Precedence}
    (h : Writes l input limit (.extension s table floor) p m out next out' m') :
    ∃ last, next = some last := by
  cases h <;> exact ⟨_, rfl⟩

theorem exists_oneOrMore
    (h : Writes l input limit (.rule (.seq [r, .zeroOrMore r])) p m out next out' m') :
    ∃ left, Writes l input limit (.rule (.oneOrMore r)) p m out next left m' := by
  obtain ⟨written, h⟩ := h.exists_sequence
  cases h with
  | sequenceFail hfirst => exact ⟨_, .oneOrMoreFail hfirst⟩
  | sequenceCons hfirst hrest =>
    cases hrest with
    | sequenceFail hloop => cases hloop
    | sequenceCons hloop hnil =>
      cases hnil
      exact ⟨_, .oneOrMore hfirst hloop⟩

theorem exists_optional
    (h : Writes l input limit (.rule (.choice [r, .seq []])) p m out next out' m') :
    ∃ left, Writes l input limit (.rule (.optional r)) p m out next left m' := by
  cases h with
  | choiceFirst hfirst => exact ⟨_, .optional hfirst⟩
  | choiceLater hfirst hrest =>
    cases hrest with
    | choiceFirst hnil =>
      cases hnil with
      | seq hnil =>
        cases hnil
        exact ⟨_, .optional hfirst⟩
    | choiceLater hnil =>
      cases hnil with
      | seqFail hnil => cases hnil

-- The table of results keeps what comes of the definition.
theorem exists_defined {s : Symbol} {floor : Precedence} {info : SymbolInfo} {o : Phrase.Outcome}
    {written : List Subtree} (h : Writes l input limit w p m.enter [] o.next written m')
    (hmemo : m.run.memo[Goal.mk s p floor]? = none) (hlt : m.depth < limit)
    (hs : l.symbol? s = some info) (hd : info.definition.work? s floor = some w)
    (hx : Executes l input limit (w.phrase []) p m.enter o m') (out : List Subtree) :
    ∃ out', Writes l input limit (.nonterminal s floor) p m out
      (o.mapTrees (info.enclose s (input.offset p))).next out'
      (m'.leave ⟨s, p, floor⟩ ((o.mapTrees (info.enclose s (input.offset p))).toMatch [])) := by
  have hresult : info.result s (input.offset p) o.next written =
      o.mapTrees (info.enclose s (input.offset p)) := by
    match o with
    | none => rfl
    | some (q, ts) =>
      obtain rfl : written = ts := ((h.eq_of_executes hx).2.2 _ rfl).trans (by cases w <;> rfl)
      rfl
  rw [Phrase.Outcome.next_mapTrees, ← hresult]
  exact ⟨_, .defined hmemo hlt hs hd h⟩

end Writes

-- Every step of an execution is a step of writing, or a few for those that stand for other rules.
theorem Executes.written {phrase : Phrase} {o : Phrase.Outcome}
    (h : Executes l input limit phrase p m o m') : phrase.Written l input limit p m o.next m' := by
  induction h with
  | @token s p m ht =>
    intro out
    cases hp : input.leafAt s p with
    | none =>
      refine ⟨out, .otherToken ht ?_⟩
      simpa [Input.leafAt, Option.filter_eq_none_iff] using hp
    | some found =>
      obtain ⟨t, htoken, rfl⟩ := Option.map_eq_some_iff.mp hp
      obtain ⟨htoken, hs⟩ := Option.filter_eq_some_iff.mp htoken
      exact ⟨_, .token ht htoken (beq_iff_eq.mp hs)⟩
  | call hs _ ih => exact fun out => (ih out).imp fun _ => .call hs
  | unparseable ht hs => exact fun out => ⟨out, .unparseable ht hs⟩
  | seqNil => exact fun out => ⟨out, .seq .sequenceNil⟩
  | seqCons _ _ ih₁ ih₂ =>
    intro out
    obtain ⟨out₁, h₁⟩ := ih₁ out
    obtain ⟨_, h₂⟩ := ih₂ out₁
    obtain ⟨_, h₂⟩ := h₂.exists_sequence
    rw [Phrase.Outcome.next_mapTrees]
    exact (Writes.sequenceCons h₁ h₂).exists_seq
  | seqFail _ ih =>
    intro out
    obtain ⟨_, h⟩ := ih out
    exact (Writes.sequenceFail h).exists_seq
  | choiceNil => exact fun out => ⟨out, .choiceNil⟩
  | choiceFirst _ ih => exact fun out => (ih out).imp fun _ => .choiceFirst
  | choiceLater _ _ ih₁ ih₂ =>
    intro out
    obtain ⟨out₁, h₁⟩ := ih₁ out
    exact (ih₂ out₁).imp fun _ => .choiceLater h₁
  | repeatMore _ hq _ ih₁ ih₂ =>
    intro out
    obtain ⟨out₁, h₁⟩ := ih₁ out
    obtain ⟨out₂, h₂⟩ := ih₂ out₁
    rw [Phrase.Outcome.next_mapTrees]
    obtain ⟨last, hlast⟩ := h₂.exists_last
    rw [hlast] at h₂ ⊢
    exact ⟨out₂, .repeatMore h₁ hq h₂⟩
  | @repeatEnd r p m o m' _ hstill ih =>
    intro out
    obtain ⟨out', h⟩ := ih out
    obtain _ | ⟨q, ts⟩ := o
    · exact ⟨_, .repeatFail h⟩
    · exact ⟨_, .repeatStill h (by simpa [Phrase.Outcome.advances] using hstill)⟩
  | oneOrMore _ ih =>
    intro out
    obtain ⟨_, h⟩ := ih out
    exact h.exists_oneOrMore
  | optional _ ih =>
    intro out
    obtain ⟨_, h⟩ := ih out
    exact h.exists_optional
  | remembered hmemo => exact fun out => ⟨_, .remembered hmemo⟩
  | refused hmemo hlt => exact fun out => ⟨out, .refused hmemo hlt⟩
  | unknown hmemo hlt hs => exact fun out => ⟨out, .unknown hmemo hlt hs⟩
  | @undefined s floor p m info hmemo hlt hs hd =>
    refine fun out => ⟨out, .undefined hmemo hlt hs ?_⟩
    cases hdef : info.definition <;> simp_all [Definition.work?, Definition.isNonterminal]
  | @ruleSymbol s floor p m info r o m' hmemo hlt hs hd hx ih =>
    have hw : info.definition.work? s floor = some (.rule r) := by rw [hd]; rfl
    obtain ⟨_, h⟩ := ih []
    exact h.exists_defined hmemo hlt hs hw hx
  | @expressionSymbol s floor p m info table o m' hmemo hlt hs hd hx ih =>
    have hw : info.definition.work? s floor = some (.expression s table floor) := by rw [hd]; rfl
    obtain ⟨_, h⟩ := ih []
    exact h.exists_defined hmemo hlt hs hw hx
  | noOperand _ ih =>
    obtain ⟨_, h⟩ := ih
    exact fun out => ⟨out, .noOperand h⟩
  | expression hx _ ih₁ ih₂ =>
    intro out
    obtain ⟨left, h₁⟩ := ih₁
    obtain rfl := (h₁.eq_of_executes hx).2.2 _ rfl
    obtain ⟨_, h₂⟩ := ih₂
    obtain ⟨last, hlast⟩ := h₂.exists_last_of_extension
    rw [hlast] at h₂ ⊢
    exact ⟨_, .expression h₁ h₂⟩
  | @prefixed s table p m t op o m' ht hop _ ih =>
    obtain ⟨_, h⟩ := ih [.leaf t]
    obtain _ | ⟨q, ts⟩ := o
    · exact ⟨_, .prefixFail ht hop h⟩
    · exact ⟨_, .prefixed ht hop h⟩
  | operand hop _ ih => exact (ih []).imp fun _ => .operand hop
  | applyNone => exact ⟨_, .applyNone⟩
  | applyWeak hw _ ih => exact ih.imp fun _ => .applyWeak hw
  | apply hf _ hq ih =>
    obtain ⟨_, h⟩ := ih []
    exact ⟨_, .apply hf h hq⟩
  | @applyLater floor op ops left p m o m₁ o' m₂ hf _ hstill _ ih₁ ih₂ =>
    obtain ⟨_, h₁⟩ := ih₁ []
    refine ih₂.imp fun _ => .applyLater hf h₁ ?_
    obtain _ | ⟨q, ts⟩ := o
    · simp
    · simpa [Phrase.Outcome.advances] using hstill
  | applied hx _ ih₁ ih₂ =>
    obtain ⟨left₁, h₁⟩ := ih₁
    obtain rfl := (h₁.eq_of_executes hx).2.2 _ rfl
    obtain ⟨left₂, h₂⟩ := ih₂
    obtain ⟨last, hlast⟩ := h₂.exists_last_of_extension
    rw [hlast] at h₂ ⊢
    exact ⟨left₂, .applied h₁ h₂⟩
  | joined hx₁ ht hop hx₂ _ ih₁ ih₂ ih₃ =>
    obtain ⟨left₁, h₁⟩ := ih₁
    obtain rfl := h₁.explained.2
    obtain ⟨right, h₂⟩ := ih₂ []
    obtain rfl := (h₂.eq_of_executes hx₂).2.2 _ rfl
    obtain ⟨left₂, h₃⟩ := ih₃
    obtain ⟨last, hlast⟩ := h₃.exists_last_of_extension
    rw [hlast] at h₃ ⊢
    exact ⟨left₂, .joined h₁ ht hop h₂ h₃⟩
  | noRight _ ht hop _ ih₁ ih₂ =>
    obtain ⟨_, h₁⟩ := ih₁
    obtain ⟨_, h₂⟩ := ih₂ []
    exact ⟨_, .noRight h₁ ht hop h₂⟩
  | noOperator _ hop ih =>
    obtain ⟨_, h⟩ := ih
    exact ⟨_, .noOperator h hop⟩

-- What is written of a rule is what comes of it, and on every output the same.
theorem Executes.writes_iff {r : Rule} {o : Phrase.Outcome}
    (hx : Executes l input limit (.rule r) p m o m') (out : List Subtree) (next : Option Nat)
    (left : List Subtree) (m₁ : Machine) :
    Writes l input limit (.rule r) p m out next left m₁ ↔
      next = o.next ∧ left = o.addedTo out ∧ m₁ = m' := by
  have determined {next left m₁} (h : Writes l input limit (.rule r) p m out next left m₁) :
      next = o.next ∧ left = o.addedTo out ∧ m₁ = m' := by
    obtain ⟨rfl, rfl, hmatch⟩ := h.eq_of_executes hx
    match o with
    | none => exact ⟨rfl, h.explained.2.trans (List.append_nil out).symm, rfl⟩
    | some (q, ts) => exact ⟨rfl, hmatch _ rfl, rfl⟩
  refine ⟨determined, ?_⟩
  rintro ⟨rfl, rfl, rfl⟩
  obtain ⟨left, h⟩ := hx.written out
  obtain ⟨-, rfl, -⟩ := determined h
  exact h

end GrammarKit
