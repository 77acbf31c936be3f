import GrammarKit.Language
import GrammarKit.Matcher

/-!
# Matching rules and expressions

Rules match by ordered choice with backtracking: once an alternative has matched, the later ones
are not tried.  Expression tables match by climbing precedences.  A symbol is given up when more
symbols than the limit allows are nested.
-/

namespace GrammarKit

/-- The tokens that are matched and the length of their text in bytes. -/
structure Input where
  tokens : Array Token
  length : Nat

namespace Input

def size (input : Input) : Nat :=
  input.tokens.size

/-- The byte at which the token at a position starts, or the end of the text. -/
def offset (input : Input) (position : Nat) : Nat :=
  (input.tokens[position]?.map (·.start)).getD input.length

/-- The input cut off after `size` tokens. -/
def take (input : Input) (size : Nat) : Input :=
  { input with tokens := input.tokens.take size }

end Input

namespace Rule

mutual

/-- Matches the rule; `refer` matches the symbols that it refers to.  A loop makes progress at most
`turns` times. -/
def matcher (refer : Symbol → Matcher) (turns : Nat) : Rule → Matcher
  | .symbol s => refer s
  | .seq rules => allMatcher refer turns rules
  | .choice rules => anyMatcher refer turns rules
  | .zeroOrMore rule => (rule.matcher refer turns).iterate turns
  | .oneOrMore rule =>
    (rule.matcher refer turns).andThen ((rule.matcher refer turns).iterate turns)
  | .optional rule => (rule.matcher refer turns).optional

/-- Matches all of the rules, one after the other. -/
def allMatcher (refer : Symbol → Matcher) (turns : Nat) : List Rule → Matcher
  | [] => .succeed
  | rule :: rules => (rule.matcher refer turns).andThen (allMatcher refer turns rules)

/-- Matches the first of the rules that can be matched. -/
def anyMatcher (refer : Symbol → Matcher) (turns : Nat) : List Rule → Matcher
  | [] => .fail
  | rule :: rules => (rule.matcher refer turns).orElse (anyMatcher refer turns rules)

end

end Rule

namespace ExpressionTable

/-- How an expression table is matched: the input, how rules are matched, and how the expression
itself is matched again with another floor. -/
structure Context where
  input : Input
  matchRule : Rule → Matcher
  again : Precedence → Matcher

def prefixAt (table : ExpressionTable) (ctx : Context) (position : Nat) :
    Option (Token × PrefixOperator) := do
  let t ← ctx.input.tokens[position]?
  let op ← table.prefixOps.find? fun op => op.operator == t.symbol
  return (t, op)

/-- Matches an operand: a prefix operator with its own operand, or what the table says. -/
def operandMatcher (table : ExpressionTable) (ctx : Context) : Matcher := fun position built run =>
  match table.prefixAt ctx position with
  | some (t, op) =>
    match ctx.again op.precedence (position + 1) [.leaf t] run with
    | (some (next, trees), run) =>
      (some (next, .node op.node trees.reverse (ctx.input.offset position) :: built), run)
    | (none, run) => (none, run)
  | none => ctx.matchRule table.operand position built run

/-- The first of the postfix rules that binds at least as strongly as `floor` and makes progress:
its kind of node, the position behind it and its trees. -/
def firstPostfix (ctx : Context) (floor : Precedence) (position : Nat) :
    List PostfixRule → Run → Option (Symbol × Nat × List Subtree) × Run
  | [], run => (none, run)
  | op :: ops, run =>
    if op.precedence < floor then firstPostfix ctx floor position ops run
    else
      match ctx.matchRule op.rule position [] run with
      | (some (next, trees), run) =>
        if position < next then (some (op.node, next, trees), run)
        else firstPostfix ctx floor position ops run
      | (none, run) => firstPostfix ctx floor position ops run

/-- The infix operator that a token is, if it binds at least as strongly as `floor`. -/
def infixAt (table : ExpressionTable) (ctx : Context) (floor : Precedence) (position : Nat) :
    Option (Token × InfixOperator) := do
  let t ← ctx.input.tokens[position]?
  let op ← table.infixOps.find? fun op => op.operator == t.symbol && floor ≤ op.precedence
  return (t, op)

/-- Extends the expression `left`, whose trees come last one first, by one operator after the
other, at most `turns` times.  Postfix rules come before infix operators. -/
def climb (table : ExpressionTable) (ctx : Context) (floor : Precedence) :
    (turns : Nat) → (position : Nat) → (left : List Subtree) → Run →
      (Nat × List Subtree) × Run
  | 0, position, left, run => ((position, left), run)
  | turns + 1, position, left, run =>
    match firstPostfix ctx floor position table.postfixOps run with
    | (some (kind, next, trees), run) =>
      let tree := Subtree.node kind (trees ++ left).reverse (ctx.input.offset position)
      climb table ctx floor turns next [tree] run
    | (none, run) =>
      match table.infixAt ctx floor position with
      | none => ((position, left), run)
      | some (t, op) =>
        match ctx.again op.rightFloor (position + 1) [] run with
        | (none, run) => ((position, left), run)
        | (some (next, right), run) =>
          let tree := Subtree.node op.node (right ++ .leaf t :: left).reverse
            (ctx.input.offset position)
          climb table ctx floor turns next [tree] run

/-- Matches an expression with operators that bind at least as strongly as `floor`. -/
def matcher (table : ExpressionTable) (ctx : Context) (floor : Precedence) (turns : Nat) :
    Matcher := fun position built run =>
  match table.operandMatcher ctx position [] run with
  | (none, run) => (none, run)
  | (some (next, left), run) =>
    let ((next, trees), run) := table.climb ctx floor turns next left run
    (some (next, trees ++ built), run)

end ExpressionTable

namespace Language

/-- Matches the symbol that a rule refers to: a token, or a nonterminal by way of `call`. -/
def refer (l : Language) (input : Input) (call : Symbol → Precedence → Matcher) (s : Symbol) :
    Matcher :=
  match l.artifact.definition? s with
  | some (.literal _) => .token input.tokens s
  | some (.pattern _) => .token input.tokens s
  | some (.rule _) => call s .lowest
  | some (.expression _) => call s .lowest
  | _ => .fail

/-- How often a loop over the input can make progress, and once more. -/
def turns (input : Input) : Nat :=
  input.size + 1

/-- Matches a rule; `call` matches the nonterminals that it refers to. -/
def matchRule (l : Language) (input : Input) (call : Symbol → Precedence → Matcher)
    (rule : Rule) : Matcher :=
  rule.matcher (l.refer input call) (turns input)

/-- Matches what defines a nonterminal; `call` matches the nonterminals within. -/
def matchDefinition (l : Language) (input : Input) (call : Symbol → Precedence → Matcher)
    (s : Symbol) (floor : Precedence) : Definition → Matcher
  | .rule rule => l.matchRule input call rule
  | .expression table =>
    table.matcher ⟨input, l.matchRule input call, call s⟩ floor (turns input)
  | _ => .fail

/-- The trees that a nonterminal leaves: those of its definition if it is hidden, else one node
over them. -/
def wrap (input : Input) (s : Symbol) (hidden : Bool) (position : Nat) (m : Match) : Match :=
  m.map fun (next, trees) =>
    (next, if hidden then trees else [.node s trees.reverse (input.offset position)])

/-- Matches a nonterminal in which `depth` more may be nested, itself counted.  What the run has
found out before is used again, even when no more may be nested. -/
def nonterminal (l : Language) (input : Input) : (depth : Nat) → Symbol → Precedence → Matcher
  | 0, s, floor, position, built, run =>
    match run.memo[Goal.mk s position floor]? with
    | some found => (found.behind built, run)
    | none => (none, { run with truncated := true })
  | depth + 1, s, floor, position, built, run =>
    match run.memo[Goal.mk s position floor]? with
    | some found => (found.behind built, run)
    | none =>
      match l.symbol? s with
      | none => (none, run)
      | some info =>
        let (found, run) := l.matchDefinition input (l.nonterminal input depth) s floor
          info.definition position [] run
        let found := wrap input s info.hidden position found
        (found.behind built, { run with memo := run.memo.insert ⟨s, position, floor⟩ found })

end Language

end GrammarKit
