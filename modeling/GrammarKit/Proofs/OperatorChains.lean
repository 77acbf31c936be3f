import GrammarKit.Proofs.Height
import GrammarKit.Proofs.ParsedTree
import GrammarKit.Proofs.Unfolding

/-!
# Chains of operators

The nesting limit does not bound the height of trees.  Each operator behind an operand puts one more
node around the expression before it, and no symbol is nested for that.  So a text with enough
operators has a tree as high as one likes, even where only one symbol may be nested.
-/

namespace GrammarKit

open Subtree

/-- An operand with any number of marks behind it, each the operator of what stands before it. -/
def ExpressionTable.marks : ExpressionTable :=
  { operand := .symbol 1, prefixOps := [], infixOps := [], postfixOps := [⟨.symbol 2, .lowest, 5⟩] }

def Artifact.marks : Artifact :=
  { version := 1
    name := "marks"
    symbols :=
      #[.endOfInput, .literal "x", .literal "!", .rule "file" (.symbol 4),
        .expression "_marked" .marks, .derived "marked"]
    root := 3
    extras := []
    recovery := [] }

namespace Language

def marks : Language :=
  (ofArtifact Pattern.compile .marks 0).toOption.get rfl

theorem marks_loadable : marks.Loadable :=
  ⟨Pattern.compile, .marks, 0, rfl⟩

end Language

/-! ## The tokens -/

/-- The mark at a place of the text. -/
def Token.markAt (place : Nat) : Token :=
  { symbol := 2, start := place, stop := place + 1 }

/-- The operand at the start of the text. -/
def Token.operand : Token :=
  { symbol := 1, start := 0, stop := 1 }

/-- An operand with `count` marks behind it. -/
def markedText (count : Nat) : String :=
  String.ofList ('x' :: List.replicate count '!')

def markedTokens (count : Nat) : List Token :=
  .operand :: (List.range' 1 count).map .markAt

theorem scan_marks (offset count : Nat) :
    Language.marks.lexer.scan 0 offset (List.replicate count '!') =
      { tokens := (List.range' offset count).map .markAt } := by
  induction count generalizing offset with
  | zero => rfl
  | succ count ih =>
    have hlongest : Language.marks.lexer.longest ('!' :: List.replicate count '!') =
        some ⟨2, 1⟩ := rfl
    rw [List.replicate_succ, Lexer.scan, if_neg (by decide), hlongest]
    change (Language.marks.lexer.scan 0 (offset + 1) _).cons false (.markAt offset) = _
    rw [ih]
    rfl

theorem tokenize_markedText (count : Nat) :
    Language.marks.lexer.tokenize (markedText count) = { tokens := markedTokens count } := by
  have hlongest : Language.marks.lexer.longest ('x' :: List.replicate count '!') =
      some ⟨1, 1⟩ := rfl
  rw [Lexer.tokenize, markedText, String.toList_ofList, Lexer.scan, if_neg (by decide), hlongest]
  change (Language.marks.lexer.scan 0 1 _).cons false .operand = _
  rw [scan_marks]
  rfl

theorem getElem?_markedTokens (count place : Nat) :
    (markedTokens count)[place + 1]? =
      if place < count then some (.markAt (place + 1)) else none := by
  rw [markedTokens, List.getElem?_cons_succ, List.getElem?_map]
  split
  next h => rw [List.getElem?_range' h, Nat.one_mul, Nat.add_comm 1 place]; rfl
  next h => rw [List.getElem?_eq_none (by simpa using h)]; rfl

/-! ## The loop over the operators -/

section

variable {input : Input} {count place : Nat} (call : Symbol → Precedence → Matcher)

/-- How the operands and operators are matched when `call` matches the symbols. -/
def marksContext (input : Input) (call : Symbol → Precedence → Matcher) :
    ExpressionTable.Context :=
  ⟨input, Language.marks.matchRule input call, call 4⟩

theorem firstPostfix_markAt (h : input.tokens[place]? = some (.markAt place)) (run : Run) :
    ExpressionTable.firstPostfix (marksContext input call) .lowest place
      ExpressionTable.marks.postfixOps run =
        (some (5, place + 1, [.leaf (.markAt place)]), run) := by
  have hmatch : (marksContext input call).matchRule (.symbol 2) place [] run =
      (some (place + 1, [.leaf (.markAt place)]), run) := by
    change Matcher.token input.tokens 2 place [] run = _
    rw [Matcher.token, h]
    rfl
  rw [ExpressionTable.marks, ExpressionTable.firstPostfix, if_neg (by decide)]
  simp only [hmatch, if_pos (Nat.lt_succ_self place)]

theorem firstPostfix_end (h : input.tokens[place]? = none) (run : Run) :
    ExpressionTable.firstPostfix (marksContext input call) .lowest place
      ExpressionTable.marks.postfixOps run = (none, run) := by
  have hmatch : (marksContext input call).matchRule (.symbol 2) place [] run = (none, run) := by
    change Matcher.token input.tokens 2 place [] run = _
    rw [Matcher.token, h]
  rw [ExpressionTable.marks, ExpressionTable.firstPostfix, if_neg (by decide)]
  simp only [hmatch]
  rfl

-- Each turn of the loop takes one mark and puts one node around the tree so far.
theorem climb_marks {left turns : Nat} (hinput : input.tokens = (markedTokens count).toArray)
    (hplace : place + left = count) (hturns : left ≤ turns) (t : Subtree) (run : Run) :
    ∃ t', ExpressionTable.marks.climb (marksContext input call) .lowest turns (place + 1) [t] run =
        ((count + 1, [t']), run) ∧
      t'.height = t.height + left := by
  have htokens := getElem?_markedTokens count place
  rw [← List.getElem?_toArray, ← hinput] at htokens
  induction left generalizing place turns t with
  | zero =>
    obtain rfl : place = count := hplace
    rw [if_neg (Nat.lt_irrefl place)] at htokens
    refine ⟨t, ?_, rfl⟩
    cases turns with
    | zero => rfl
    | succ turns =>
      have hnone : ExpressionTable.marks.infixAt (marksContext input call) .lowest (place + 1) =
          none := by
        rw [ExpressionTable.infixAt, marksContext, htokens]
        rfl
      rw [ExpressionTable.climb, firstPostfix_end call htokens]
      simp only [hnone]
  | succ left ih =>
    rw [if_pos (by omega)] at htokens
    obtain ⟨turns, rfl⟩ : ∃ more, turns = more + 1 := ⟨turns - 1, by omega⟩
    have hnext := getElem?_markedTokens count (place + 1)
    rw [← List.getElem?_toArray, ← hinput] at hnext
    obtain ⟨t', hclimb, hheight⟩ := @ih (place + 1) turns (by omega) (by omega)
      (.node 5 [t, .leaf (.markAt (place + 1))] (input.offset (place + 1))) hnext
    refine ⟨t', ?_, ?_⟩
    · rw [ExpressionTable.climb, firstPostfix_markAt call htokens]
      exact hclimb
    · have := t.height_eq
      rw [hheight, height_node, maxHeight_cons, maxHeight_cons, height_leaf, maxHeight_nil]
      omega

theorem matcher_marks (hinput : input.tokens = (markedTokens count).toArray) (run : Run) :
    ∃ t, ExpressionTable.marks.matcher (marksContext input call) .lowest (Language.turns input) 0 []
        run = (some (count + 1, [t]), run) ∧
      t.height = count + 1 := by
  have hturns : count ≤ Language.turns input := by
    rw [Language.turns, Input.size, hinput]
    simp [markedTokens]
    omega
  obtain ⟨t, hclimb, hheight⟩ :=
    climb_marks call hinput (Nat.zero_add count) hturns (.leaf .operand) run
  have hfirst : input.tokens[0]? = some .operand := by
    rw [hinput]
    rfl
  have hoperand : ExpressionTable.marks.operandMatcher (marksContext input call) 0 [] run =
      (some (1, [.leaf .operand]), run) := by
    have hplain : ExpressionTable.marks.prefixAt (marksContext input call) 0 = none := by
      rw [ExpressionTable.prefixAt, marksContext, hfirst]
      rfl
    rw [ExpressionTable.operandMatcher, hplain]
    change Matcher.token input.tokens 1 0 [] run = _
    rw [Matcher.token, hfirst]
    rfl
  refine ⟨t, ?_, hheight.trans (Nat.add_comm 1 count)⟩
  rw [ExpressionTable.matcher, hoperand]
  simp only [Nat.zero_add] at hclimb ⊢
  rw [hclimb]
  rfl

theorem nonterminal_marks (hinput : input.tokens = (markedTokens count).toArray) (depth : Nat) :
    ∃ t run, Language.marks.nonterminal input (depth + 1) 4 .lowest 0 [] {} =
        (some (count + 1, [t]), run) ∧
      t.height = count + 1 := by
  obtain ⟨t, hmatcher, hheight⟩ :=
    matcher_marks (Language.marks.nonterminal input depth) hinput {}
  have hmemo : ({} : Run).memo[Goal.mk 4 0 .lowest]? = none := by simp
  have hsymbol : Language.marks.symbol? 4 = some (.expression "_marked" .marks) := rfl
  have hdefinition : Language.marks.matchDefinition input (Language.marks.nonterminal input depth) 4
      .lowest (.expression .marks) 0 [] {} = (some (count + 1, [t]), {}) := hmatcher
  rw [Language.nonterminal, hmemo, hsymbol]
  simp only [SymbolInfo.expression, hdefinition]
  exact ⟨t, _, rfl, hheight⟩

end

/-! ## Whole texts -/

-- One symbol nested is enough for all of the marks.
theorem Language.parse_markedText_height (depth count : Nat) :
    (marks.parse (depth + 1) (markedText count)).tree.root.unfolded.height = count + 2 := by
  obtain ⟨input, hdef⟩ : ∃ input, input = marks.inputOf (markedText count) := ⟨_, rfl⟩
  have hinput : input.tokens = (markedTokens count).toArray := by
    rw [hdef, inputOf, tokenize_markedText]
  have hsize : input.size = count + 1 := by
    rw [Input.size, hinput]
    simp [markedTokens]
  obtain ⟨t, run, hmatch, hheight⟩ := nonterminal_marks hinput depth
  have hroot : marks.matchRule input (marks.nonterminal input (depth + 1)) marks.rootRule 0 [] {} =
      (some (count + 1, [t]), run) := hmatch
  have hparse : marks.parseFrom input (depth + 1) (turns input) 0 [] {} = ([t], run) := by
    rw [turns, parseFrom, hroot]
    simp only [Option.getD_some, hsize, if_neg (Nat.lt_irrefl _)]
  rw [parse_tree, Node.unfolded_eq, Node.subtree_root, textTree, tokenize_markedText, ruleTree,
    ← hdef, parseRoot, hparse]
  change maxHeight [t] + 1 = _
  simp [hheight]

/-- **Trees may be of any height.**  There are a language and a nesting limit for which no bound
holds for the trees of all texts. -/
theorem Parser.parse_height_unbounded :
    ¬ ∀ (l : Language), l.Loadable → ∀ parser : Parser, parser.language = some l →
      ∃ bound, ∀ (text : String) (result : Parse), parser.parse text = some result →
        result.tree.root.unfolded.height ≤ bound := by
  intro h
  obtain ⟨bound, hbound⟩ := h .marks Language.marks_loadable
    { language := some .marks, maxDepth := 1 } rfl
  have hle := hbound (markedText bound) _ rfl
  rw [Language.parse_markedText_height 0 bound] at hle
  omega

end GrammarKit
