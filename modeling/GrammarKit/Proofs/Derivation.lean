import GrammarKit.Proofs.Root
import GrammarKit.Proofs.Walk

/-!
# Derivations

Which trees a grammar allows, without any order of preference: rules have their meaning as regular
expressions, and the operators of a table apply at any precedence.  Every match of a parse is a
derivation, whatever was refused on the way.
-/

namespace GrammarKit

/-- What is derived: the trees for a rule, or for the expressions of a symbol with a table. -/
inductive Constituent where
  | rule (rule : Rule)
  | expression (symbol : Symbol) (table : ExpressionTable)

section

variable (l : Language) (input : Input)

/-- The trees that the grammar allows for the tokens from one position to another. -/
inductive Derives : Constituent → (first next : Nat) → List Subtree → Prop
  | token {s p t} :
      l.artifact.isToken s = true → input.tokens[p]? = some t → t.symbol = s →
      Derives (.rule (.symbol s)) p (p + 1) [.leaf t]
  | ruleSymbol {s p q info r ts us} :
      l.symbol? s = some info → info.definition = .rule r → Derives (.rule r) p q ts →
      info.Encloses s (input.offset p) ts us → Derives (.rule (.symbol s)) p q us
  | expressionSymbol {s p q info table ts us} :
      l.symbol? s = some info → info.definition = .expression table →
      Derives (.expression s table) p q ts → info.Encloses s (input.offset p) ts us →
      Derives (.rule (.symbol s)) p q us
  | seqNil {p} : Derives (.rule (.seq [])) p p []
  | seqCons {r rs p q n ts us} :
      Derives (.rule r) p q ts → Derives (.rule (.seq rs)) q n us →
      Derives (.rule (.seq (r :: rs))) p n (ts ++ us)
  | choice {r rs p q ts} :
      r ∈ rs → Derives (.rule r) p q ts → Derives (.rule (.choice rs)) p q ts
  | optionalNone {r p} : Derives (.rule (.optional r)) p p []
  | optionalSome {r p q ts} :
      Derives (.rule r) p q ts → Derives (.rule (.optional r)) p q ts
  | repeatNil {r p} : Derives (.rule (.zeroOrMore r)) p p []
  | repeatCons {r p q n ts us} :
      Derives (.rule r) p q ts → Derives (.rule (.zeroOrMore r)) q n us →
      Derives (.rule (.zeroOrMore r)) p n (ts ++ us)
  | oneOrMore {r p q n ts us} :
      Derives (.rule r) p q ts → Derives (.rule (.zeroOrMore r)) q n us →
      Derives (.rule (.oneOrMore r)) p n (ts ++ us)
  | operand {s table p q ts} :
      Derives (.rule table.operand) p q ts → Derives (.expression s table) p q ts
  /-- A prefix operator before an expression, which is matched as a whole. -/
  | prefixed {s table p q op t ts node} :
      op ∈ table.prefixOps → input.tokens[p]? = some t → t.symbol = op.operator →
      Derives (.rule (.symbol s)) (p + 1) q ts →
      Subtree.IsNode node op.node (.leaf t :: ts) (input.offset p) →
      Derives (.expression s table) p q [node]
  /-- An infix operator between two expressions.  The one on the left was being extended, the one
  on the right is matched as a whole. -/
  | joined {s table p q n op t left right node} :
      op ∈ table.infixOps → Derives (.expression s table) p q left →
      input.tokens[q]? = some t → t.symbol = op.operator →
      Derives (.rule (.symbol s)) (q + 1) n right →
      Subtree.IsNode node op.node (left ++ .leaf t :: right) (input.offset q) →
      Derives (.expression s table) p n [node]
  /-- A postfix rule, which takes a token at least, after an expression. -/
  | applied {s table p q n op left ts node} :
      op ∈ table.postfixOps → Derives (.expression s table) p q left →
      Derives (.rule op.rule) q n ts → q < n →
      Subtree.IsNode node op.node (left ++ ts) (input.offset q) →
      Derives (.expression s table) p n [node]

/-- What a match of a phrase is good for. -/
def Phrase.Justifies : Phrase → (first next : Nat) → List Subtree → Prop
  | .rule r, p, q, ts => Derives l input (.rule r) p q ts
  | .nonterminal s _, p, q, ts => Derives l input (.rule (.symbol s)) p q ts
  | .expression s table _, p, q, ts => Derives l input (.expression s table) p q ts
  | .operand s table, p, q, ts => Derives l input (.expression s table) p q ts
  | .application _ ops left, p, q, ts =>
    ∀ s table p₀, (∀ op ∈ ops, op ∈ table.postfixOps) →
      Derives l input (.expression s table) p₀ p left →
      Derives l input (.expression s table) p₀ q ts
  | .extension s table _ left, p, q, ts =>
    ∀ p₀, Derives l input (.expression s table) p₀ p left →
      Derives l input (.expression s table) p₀ q ts

end

variable {l : Language} {input : Input}

theorem Derives.oneOrMore_of_seq {r : Rule} {p q : Nat} {ts : List Subtree}
    (h : Derives l input (.rule (.seq [r, .zeroOrMore r])) p q ts) :
    Derives l input (.rule (.oneOrMore r)) p q ts := by
  cases h with
  | seqCons hfirst hrest =>
    cases hrest with
    | seqCons hloop hnil =>
      cases hnil
      rw [List.append_nil]
      exact .oneOrMore hfirst hloop

theorem Derives.optional_of_choice {r : Rule} {p q : Nat} {ts : List Subtree}
    (h : Derives l input (.rule (.choice [r, .seq []])) p q ts) :
    Derives l input (.rule (.optional r)) p q ts := by
  cases h with
  | choice hm h =>
    simp only [List.mem_cons, List.not_mem_nil, or_false] at hm
    obtain rfl | rfl := hm
    · exact .optionalSome h
    · cases h
      exact .optionalNone

/-- Every match is a derivation. -/
theorem Evaluates.justifies {refusing : Prop} {phrase : Phrase} {p next : Nat}
    {trees : List Subtree} (h : Evaluates l input refusing phrase p (some (next, trees))) :
    phrase.Justifies l input p next trees := by
  -- matches only: every outcome that is a failure is dismissed by the last case
  generalize ho : some (next, trees) = o at h
  induction h generalizing next trees with
  | token ht hp hs =>
    cases ho
    exact .token ht hp hs
  | call _ _ ih => exact ih ho
  | seqNil =>
    cases ho
    exact .seqNil
  | seqCons _ _ ih₁ ih₂ =>
    obtain ⟨us, rfl, rfl⟩ := Phrase.Outcome.mapTrees_eq_some.mp ho.symm
    exact .seqCons (ih₁ rfl) (ih₂ rfl)
  | choiceFirst _ ih => exact .choice List.mem_cons_self (ih ho)
  | choiceLater _ _ _ ih =>
    cases ih ho with
    | choice hm h => exact .choice (List.mem_cons_of_mem _ hm) h
  | repeatFail =>
    cases ho
    exact .repeatNil
  | repeatStill =>
    cases ho
    exact .repeatNil
  | repeatMore _ _ _ ih₁ ih₂ =>
    obtain ⟨us, rfl, rfl⟩ := Phrase.Outcome.mapTrees_eq_some.mp ho.symm
    exact .repeatCons (ih₁ rfl) (ih₂ rfl)
  | oneOrMore _ ih => exact (ih ho).oneOrMore_of_seq
  | optional _ ih => exact (ih ho).optional_of_choice
  | ruleSymbol hs hd _ hmatch ih =>
    cases ho
    cases hmatch with
    | matched hencloses => exact .ruleSymbol hs hd (ih rfl) hencloses
  | expressionSymbol hs hd _ hmatch ih =>
    cases ho
    cases hmatch with
    | matched hencloses => exact .expressionSymbol hs hd (ih rfl) hencloses
  | expression _ _ ih₁ ih₂ => exact ih₂ ho _ (ih₁ rfl)
  | prefixed ht hop _ hnode ih =>
    cases ho
    have hsym := List.find?_some hop
    simp only [beq_iff_eq] at hsym
    exact .prefixed (List.mem_of_find?_eq_some hop) ht hsym.symm (ih rfl) hnode
  | operand _ _ ih => exact .operand (ih ho)
  | applyWeak _ _ ih =>
    intro s table p₀ hops hleft
    exact ih ho s table p₀ (fun op hop => hops op (List.mem_cons_of_mem _ hop)) hleft
  | applyFail _ _ _ _ ih =>
    intro s table p₀ hops hleft
    exact ih ho s table p₀ (fun op hop => hops op (List.mem_cons_of_mem _ hop)) hleft
  | applyStill _ _ _ _ _ ih =>
    intro s table p₀ hops hleft
    exact ih ho s table p₀ (fun op hop => hops op (List.mem_cons_of_mem _ hop)) hleft
  | apply _ _ hq hnode ih =>
    cases ho
    intro s table p₀ hops hleft
    exact .applied (hops _ List.mem_cons_self) hleft (ih rfl) hq hnode
  | applied _ _ ih₁ ih₂ =>
    intro p₀ hleft
    exact ih₂ ho p₀ (ih₁ rfl _ _ p₀ (fun _ hop => hop) hleft)
  | joined _ ht hop _ hnode _ _ ih₂ ih₃ =>
    -- the joined expression is the left one of what follows
    intro p₀ hleft
    have hsym := List.find?_some hop
    simp only [Bool.and_eq_true, beq_iff_eq] at hsym
    exact ih₃ ho p₀
      (.joined (List.mem_of_find?_eq_some hop) hleft ht hsym.1.symm (ih₂ rfl) hnode)
  | noRight =>
    cases ho
    exact fun _ hleft => hleft
  | noOperator =>
    cases ho
    exact fun _ hleft => hleft
  | _ => cases ho

-- A derivation does not go back, and not past the end of the input.
theorem Derives.bounds {c : Constituent} {p q : Nat} {ts : List Subtree}
    (h : Derives l input c p q ts) : p ≤ q ∧ q ≤ max p input.size := by
  induction h with
  | token _ ht _ =>
    have := Input.lt_size_of_getElem? ht
    omega
  | prefixed _ ht _ _ _ ih =>
    have := Input.lt_size_of_getElem? ht
    omega
  | joined _ _ ht _ _ _ ih₁ ih₂ =>
    have := Input.lt_size_of_getElem? ht
    omega
  | ruleSymbol _ _ _ _ ih | expressionSymbol _ _ _ _ ih | choice _ _ ih | optionalSome _ ih
  | operand _ ih => exact ih
  | seqNil | optionalNone | repeatNil => omega
  | seqCons _ _ ih₁ ih₂ | repeatCons _ _ ih₁ ih₂ | oneOrMore _ _ ih₁ ih₂ => omega
  | applied _ _ _ _ _ ih₁ ih₂ => omega

/-! ## What derivations are made of -/

/-- The table is the one that the grammar has for the symbol. -/
def Constituent.InGrammar (l : Language) : Constituent → Prop
  | .rule _ => True
  | .expression s table => ∃ info, l.symbol? s = some info ∧ info.definition = .expression table

theorem Constituent.InGrammar.admits (hl : l.Loadable) {s : Symbol} {table : ExpressionTable}
    (h : (Constituent.expression s table).InGrammar l) : l.artifact.Admits table := by
  obtain ⟨info, hs, hd⟩ := h
  exact hl.admits hs hd

/-- A table builds nodes of kinds that can be seen. -/
theorem Language.isVisible_of_isNodeKind {s : Symbol} (h : l.artifact.isNodeKind s = true) :
    l.isVisible s = true := by
  unfold Artifact.isNodeKind at h
  unfold isVisible symbol?
  cases hs : l.artifact.symbols[s]? with
  | none => simp [hs] at h
  | some info =>
    rw [hs] at h
    simp only [Option.any_some, Bool.and_eq_true] at h
    simp [h]

-- A rule and a table are no end of the input.
theorem Language.isVisible_of_symbol? {s : Symbol} {info : SymbolInfo}
    (hs : l.symbol? s = some info) (hhidden : info.hidden = false)
    (hend : info.definition.isEnd = false) : l.isVisible s = true := by
  simp [isVisible, hs, hhidden, hend]

/-- What holds of leaves for tokens, and passes to lists of trees and to nodes over them that can be
seen, holds of whatever the grammar of a loadable language allows. -/
theorem Derives.forest (hl : l.Loadable) {Q : List Subtree → Prop} (nil : Q [])
    (append : ∀ ts us, Q ts → Q us → Q (ts ++ us))
    (leaf : ∀ t : Token, l.artifact.isToken t.symbol = true → Q [.leaf t])
    (node : ∀ s ts place, s < l.kindCount → l.isVisible s = true → Q ts → Q [.node s ts place])
    {c : Constituent} {p q : Nat} {ts : List Subtree} (h : Derives l input c p q ts)
    (hc : c.InGrammar l) : Q ts := by
  have enclose {s : Symbol} {info : SymbolInfo} (hs : l.symbol? s = some info)
      (hend : info.definition.isEnd = false) {place : Nat} {ts us : List Subtree}
      (hencloses : info.Encloses s place ts us) (hts : Q ts) : Q us := by
    cases hencloses with
    | hidden => exact hts
    | visible hvisible hnode =>
      rw [hnode.eq_node]
      exact node s ts place (Language.lt_kindCount hs)
        (Language.isVisible_of_symbol? hs hvisible hend) hts
  have operator {s : Symbol} (hs : l.artifact.isNodeKind s = true) {t : Subtree}
      {ts : List Subtree} {place : Nat} (hnode : t.IsNode s ts place) (hts : Q ts) : Q [t] := by
    rw [hnode.eq_node]
    exact node s ts place (Language.lt_kindCount_of_isNodeKind hs)
      (Language.isVisible_of_isNodeKind hs) hts
  induction h with
  | token ht _ hs => exact leaf _ (hs ▸ ht)
  | ruleSymbol hs hd _ hencloses ih => exact enclose hs (by rw [hd]; rfl) hencloses (ih trivial)
  | expressionSymbol hs hd _ hencloses ih =>
    exact enclose hs (by rw [hd]; rfl) hencloses (ih ⟨_, hs, hd⟩)
  | seqNil | optionalNone | repeatNil => exact nil
  | seqCons _ _ ih₁ ih₂ | repeatCons _ _ ih₁ ih₂ | oneOrMore _ _ ih₁ ih₂ =>
    exact append _ _ (ih₁ trivial) (ih₂ trivial)
  | choice _ _ ih | optionalSome _ ih | operand _ ih => exact ih trivial
  | prefixed hop _ hsym _ hnode ih =>
    obtain ⟨htoken, hkind⟩ := (hc.admits hl).prefixOps _ hop
    exact operator hkind hnode (append _ _ (leaf _ (hsym ▸ htoken)) (ih trivial))
  | joined hop _ _ hsym _ hnode ih₁ ih₂ =>
    obtain ⟨htoken, hkind⟩ := (hc.admits hl).infixOps _ hop
    have hright := append _ _ (leaf _ (hsym ▸ htoken)) (ih₂ trivial)
    exact operator hkind hnode (append _ _ (ih₁ hc) hright)
  | applied hop _ _ _ hnode ih₁ ih₂ =>
    have hkind := (hc.admits hl).postfixOps _ hop
    exact operator hkind hnode (append _ _ (ih₁ hc) (ih₂ trivial))

/-! ## No errors within a derivation -/

namespace Subtree

@[simp] theorem anyError_append (ts us : List Subtree) :
    anyError (ts ++ us) = (anyError ts || anyError us) := by
  induction ts with
  | nil => rfl
  | cons t ts ih => simp only [List.cons_append, anyError, ih, Bool.or_assoc]

theorem hasError_eq_false_of_mem {t : Subtree} {ts : List Subtree} (h : anyError ts = false)
    (ht : t ∈ ts) : t.hasError = false := by
  obtain ⟨before, after, rfl⟩ := List.append_of_mem ht
  simp only [anyError_append, anyError, Bool.or_eq_false_iff] at h
  exact h.2.1

-- A tree without errors is no error and has none below it.
theorem hasError_eq_false_iff {t : Subtree} :
    t.hasError = false ↔ t.isError = false ∧ anyError t.children = false := by
  rw [hasError_eq, Bool.or_eq_false_iff]

@[simp] theorem hasError_leaf (t : Token) : (leaf t).hasError = t.isError := by
  simp [leaf, hasError, anyError, Token.isError]

@[simp] theorem hasError_node (s : Symbol) (ts : List Subtree) (place : Nat) :
    (node s ts place).hasError = (s == errorSymbol || anyError ts) := rfl

end Subtree

-- The grammar of a loadable language allows no trees with errors.
theorem Derives.anyError_eq_false (hl : l.Loadable) {c : Constituent} {p q : Nat}
    {ts : List Subtree} (h : Derives l input c p q ts) (hc : c.InGrammar l) :
    Subtree.anyError ts = false := by
  refine Derives.forest hl (Q := fun ts => Subtree.anyError ts = false) rfl ?_ ?_ ?_ h hc
  · intro ts us hts hus
    rw [Subtree.anyError_append, hts, hus, Bool.or_false]
  · intro t ht
    have hne := hl.ne_errorSymbol_of_isToken ht
    simp [Subtree.anyError, Token.isError, hne]
  · intro s ts place hs _ hts
    simp [Subtree.anyError, hts, hl.ne_errorSymbol_of_lt hs]

end GrammarKit
