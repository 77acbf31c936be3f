import GrammarKit.Text.Blank
import GrammarKit.Text.CaseFold
import GrammarKit.Text.Digit
import GrammarKit.Text.Word
import GrammarKit.Text.XidContinue
import GrammarKit.Text.XidStart

/-!
# Patterns

Regular expressions over characters with preferences: of two alternatives the first is tried
first, and a loop prefers another turn, or prefers to leave when it is lazy.
-/

namespace GrammarKit

/-- A property of characters that a pattern can name. -/
inductive CharProperty where
  | digit
  | word
  | space
  | xidStart
  | xidContinue
deriving DecidableEq, Repr

def CharProperty.holds : CharProperty → Char → Bool
  | .digit => Text.isDigit
  | .word => Text.isWord
  | .space => Text.isBlank
  | .xidStart => Text.isXidStart
  | .xidContinue => Text.isXidContinue

inductive ClassItem where
  /-- The characters from `first` to `last`. -/
  | range (first last : Char)
  /-- The characters that have the property, or, if `absent`, those that lack it. -/
  | property (property : CharProperty) (absent : Bool)
deriving DecidableEq, Repr

def ClassItem.covers : ClassItem → Char → Bool
  | .range first last, c => first ≤ c && c ≤ last
  | .property p absent, c => p.holds c != absent

/-- Whether the item covers a character or one that differs from it in case only.  What lacks a
property lacks it in either case. -/
def ClassItem.coversAnyCase : ClassItem → Char → Bool
  | .range first last, c => (c :: Text.caseOrbit c).any fun d => first ≤ d && d ≤ last
  | .property p absent, c => (c :: Text.caseOrbit c).any p.holds != absent

structure CharClass where
  items : List ClassItem
  /-- The set is that of the characters no item covers. -/
  negated : Bool := false
  /-- Case makes no difference to what an item covers. -/
  anyCase : Bool := false
deriving DecidableEq, Repr

namespace CharClass

def contains (s : CharClass) (c : Char) : Bool :=
  let covered :=
    if s.anyCase then s.items.any (·.coversAnyCase c) else s.items.any (·.covers c)
  covered != s.negated

def single (c : Char) (anyCase : Bool) : CharClass :=
  { items := [.range c c], anyCase }

def exceptNewline : CharClass :=
  { items := [.range '\n' '\n'], negated := true }

end CharClass

inductive Assertion where
  | textStart
  | textEnd
  | wordBoundary
  | noWordBoundary
deriving DecidableEq, Repr

/-- The characters on both sides of a place in a text. -/
structure Place where
  before : Option Char
  after : Option Char
deriving DecidableEq, Repr

/-- Whether a word begins or ends at the place. -/
def Place.atWordBoundary (place : Place) : Bool :=
  place.before.any Text.isWord != place.after.any Text.isWord

def Assertion.holds : Assertion → Place → Bool
  | .textStart, place => place.before.isNone
  | .textEnd, place => place.after.isNone
  | .wordBoundary, place => place.atWordBoundary
  | .noWordBoundary, place => !place.atWordBoundary

inductive Pattern where
  | empty
  | chars (set : CharClass)
  /-- The empty text, at a place that meets the condition. -/
  | assertion (condition : Assertion)
  /-- A match of `first` and then one of `second`. -/
  | seq (first second : Pattern)
  /-- A match of `first`, or else one of `second`. -/
  | alt (first second : Pattern)
  /-- Any number of matches of `body`; as many as possible if `greedy`. -/
  | loop (body : Pattern) (greedy : Bool)
deriving DecidableEq, Repr

namespace Pattern

def nullable : Pattern → Bool
  | .empty => true
  | .chars _ => false
  | .assertion _ => true
  | .seq p q => p.nullable && q.nullable
  | .alt p q => p.nullable || q.nullable
  | .loop _ _ => true

/-- Whether the pattern asks for the start of the text before all else. -/
def anchored : Pattern → Bool
  | .seq (.assertion .textStart) _ => true
  | _ => false

def size : Pattern → Nat
  | .seq p q => p.size + q.size + 1
  | .alt p q => p.size + q.size + 1
  | .loop p _ => p.size + 1
  | _ => 1

/-- `p` or nothing. -/
def optional (p : Pattern) (greedy : Bool) : Pattern :=
  if greedy then .alt p .empty else .alt .empty p

/-- At least one `p`. -/
def oneOrMore (p : Pattern) (greedy : Bool) : Pattern :=
  .seq p (.loop p greedy)

/-- Any number of `p`.  A body that can match without a character is given one whole turn before
the loop is asked to leave. -/
def zeroOrMore (p : Pattern) (greedy : Bool) : Pattern :=
  if p.nullable then optional (oneOrMore p greedy) greedy else .loop p greedy

/-- Exactly `n` times `p`. -/
def times (p : Pattern) : Nat → Pattern
  | 0 => .empty
  | 1 => p
  | n + 1 => .seq p (times p n)

/-- At most `n` times `p`. -/
def atMost (p : Pattern) (greedy : Bool) : Nat → Pattern
  | 0 => .empty
  | n + 1 => optional (.seq p (atMost p greedy n)) greedy

/-- At least `least` times `p`, and at most `most` times if a bound is given. -/
def bounded (p : Pattern) (least : Nat) (most : Option Nat) (greedy : Bool) : Pattern :=
  match most with
  | some most => .seq (times p least) (atMost p greedy (most - least))
  | none =>
    match least with
    | 0 => zeroOrMore p greedy
    | n + 1 => .seq (times p n) (oneOrMore p greedy)

def concat : List Pattern → Pattern
  | [] => .empty
  | [p] => p
  | p :: ps => .seq p (concat ps)

def choose : List Pattern → Pattern
  | [] => .empty
  | [p] => p
  | p :: ps => .alt p (choose ps)

end Pattern

end GrammarKit
