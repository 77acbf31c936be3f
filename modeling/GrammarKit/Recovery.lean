import GrammarKit.Evaluation

/-!
# Parsing a whole text

A text is matched with the rule of the root.  Where that stops short of the end, tokens are skipped
into an error node until a recovery token has been skipped or the rule can make progress again.
-/

namespace GrammarKit

/-- How many tokens behind a position are looked at to see whether parsing can go on there. -/
def resumeWindow : Nat := 512

/-- The rule that must make progress for parsing to go on: what the root repeats, or the rule of
the root itself. -/
def Rule.resumption : Rule → Rule
  | .zeroOrMore rule => rule
  | .oneOrMore rule => rule
  | rule => rule

namespace Language

/-- Whether parsing can go on at a position: the rule matches there and makes progress within the
window.  The run that finds out is separate from every other. -/
def canResume (l : Language) (input : Input) (depth : Nat) (position : Nat) : Bool :=
  if position < input.size then
    let window := input.take (position + resumeWindow)
    let matcher := l.matchRule window (l.nonterminal window depth) l.rootRule.resumption
    match (matcher position [] {}).1 with
    | some (next, _) => position < next
    | none => false
  else false

/-- Skips `left` tokens from a position on, or fewer if parsing can go on sooner: the position
behind them and the leaves for them, the last one first.  What no symbol accounts for leaves
nothing. -/
def skip (l : Language) (input : Input) (depth : Nat) :
    (left : Nat) → (position : Nat) → (skipped : List Subtree) → Nat × List Subtree
  | 0, position, skipped => (position, skipped)
  | left + 1, position, skipped =>
    match input.tokens[position]? with
    | none => (position, skipped)
    | some t =>
      let skipped := if t.isError then skipped else .leaf t :: skipped
      if l.isRecovery t.symbol || l.canResume input depth (position + 1) then
        (position + 1, skipped)
      else l.skip input depth left (position + 1) skipped

/-- Skips tokens after an error at a position: the error node over them and the position behind
them. -/
def recover (l : Language) (input : Input) (depth : Nat) (position : Nat) : Subtree × Nat :=
  let (next, skipped) := l.skip input depth (input.size - position) position []
  let error : Subtree :=
    { symbol := errorSymbol
      start := input.offset position
      stop := (input.tokens[next - 1]?.map (·.stop)).getD input.length
      children := skipped.reverse
      extra := false }
  (error, next)

/-- The trees below the root, the last one first, when `built` stand before `position`.  Each of
the `turns` takes at least one token. -/
def parseFrom (l : Language) (input : Input) (depth : Nat) :
    (turns : Nat) → (position : Nat) → (built : List Subtree) → Run → List Subtree × Run
  | 0, _, built, run => (built, run)
  | turns + 1, position, built, run =>
    let (found, run) := l.matchRule input (l.nonterminal input depth) l.rootRule position built run
    let (position, built) := found.getD (position, built)
    if position < input.size then
      let (error, next) := l.recover input depth position
      l.parseFrom input depth turns next (error :: built) run
    else (built, run)

/-- The tree of a whole input, over all of its text, and whether a symbol was given up because it
was nested too deeply. -/
def parseRoot (l : Language) (input : Input) (depth : Nat) : Subtree × Bool :=
  let (built, run) := l.parseFrom input depth (turns input) 0 [] {}
  let root : Subtree :=
    { symbol := l.artifact.root
      start := 0
      stop := input.length
      children := built.reverse
      extra := false }
  (root, run.truncated)

end Language

end GrammarKit
