import GrammarKit.Rule

/-!
# Tokens

A token is a symbol together with the bytes of the text that it takes.
-/

namespace GrammarKit

/-- A stretch of the text, from byte `start` up to byte `stop`, that was read as a symbol. -/
structure Token where
  symbol : Symbol
  start : Nat
  stop : Nat
deriving DecidableEq, Repr

/-- Whether the token is a run of characters that no symbol accounts for. -/
def Token.isError (t : Token) : Bool :=
  t.symbol == errorSymbol

/-- A text cut into tokens.  The tokens that may stand anywhere are kept apart from those that the
rules see. -/
structure Lexed where
  tokens : List Token := []
  extras : List Token := []
deriving DecidableEq, Repr

namespace Lexed

def cons (isExtra : Bool) (t : Token) (rest : Lexed) : Lexed :=
  if isExtra then { rest with extras := t :: rest.extras }
  else { rest with tokens := t :: rest.tokens }

/-- Puts a character that no symbol accounts for in front; it joins such a run that starts where
the character stops. -/
def consUnknown (start stop : Nat) (rest : Lexed) : Lexed :=
  match rest.tokens with
  | t :: others =>
    if t.isError ∧ t.start = stop then { rest with tokens := { t with start } :: others }
    else { rest with tokens := ⟨errorSymbol, start, stop⟩ :: t :: others }
  | [] => { rest with tokens := [⟨errorSymbol, start, stop⟩] }

end Lexed

end GrammarKit
