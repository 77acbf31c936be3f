/-!
# Rules

A grammar is a table of symbols.  Each symbol is known by its index, and the rules and expression
tables that define some of them refer to others by those indexes.
-/

namespace GrammarKit

/-- The index of a symbol in a grammar's table. -/
abbrev Symbol := Nat

/-- The symbol of what no grammar accounts for.  Every table is shorter than this. -/
def errorSymbol : Symbol := 65535

inductive Rule where
  | symbol (symbol : Symbol)
  | seq (rules : List Rule)
  | choice (rules : List Rule)
  | zeroOrMore (rule : Rule)
  | oneOrMore (rule : Rule)
  | optional (rule : Rule)
deriving Repr

abbrev Precedence := Fin 256

namespace Precedence

def lowest : Precedence := ⟨0, by decide⟩

/-- The next stronger binding, or the strongest one after itself. -/
def next (p : Precedence) : Precedence :=
  if h : p.val + 1 < 256 then ⟨p.val + 1, h⟩ else p

end Precedence

/-- On which side operators of the same precedence nest. -/
inductive Associativity where
  | left
  | right
deriving DecidableEq, Repr

structure PrefixOperator where
  operator : Symbol
  precedence : Precedence
  node : Symbol
deriving Repr

structure InfixOperator where
  operator : Symbol
  precedence : Precedence
  associativity : Associativity
  node : Symbol
deriving Repr

/-- The precedence that the operators in the right operand must at least have. -/
def InfixOperator.rightFloor (op : InfixOperator) : Precedence :=
  match op.associativity with
  | .left => op.precedence.next
  | .right => op.precedence

/-- A rule that applies to the operand before it. -/
structure PostfixRule where
  rule : Rule
  precedence : Precedence
  node : Symbol
deriving Repr

structure ExpressionTable where
  operand : Rule
  prefixOps : List PrefixOperator
  infixOps : List InfixOperator
  postfixOps : List PostfixRule
deriving Repr

end GrammarKit
