import GrammarKit.Subtree
import Std.Data.TreeMap

/-!
# Matchers

A matcher tries to match tokens from a position on.  It is handed the trees that were built before
it, the last one first, and on success returns the position behind the match and the trees with its
own in front.  On failure it returns nothing, and its caller goes on with the trees it has.

All the matchers of a run share a table of what was matched where, so that no symbol is matched at
one place twice.
-/

namespace GrammarKit

/-- A symbol to match from a position on; of its operators only those that bind at least as
strongly as `floor` are to be used. -/
structure Goal where
  symbol : Symbol
  position : Nat
  floor : Precedence
deriving DecidableEq, Repr

def Goal.order : Goal → Goal → Ordering :=
  compareLex (compareOn (·.position)) (compareLex (compareOn (·.symbol)) (compareOn (·.floor)))

instance : Std.TransCmp Goal.order :=
  inferInstanceAs (Std.TransCmp (compareLex _ _))

instance : Std.LawfulEqCmp Goal.order where
  compare_self := by
    intro g
    simp [Goal.order, compareLex, compareOn]
  eq_of_compare := by
    intro g h same
    obtain ⟨symbol, position, floor⟩ := g
    obtain ⟨symbol', position', floor'⟩ := h
    simp [Goal.order, compareLex_eq_eq, compareOn] at same
    simp [same]

/-- The outcome of a match: the position behind it and the trees, the last one first. -/
abbrev Match := Option (Nat × List Subtree)

structure Run where
  memo : Std.TreeMap Goal Match Goal.order := ∅
  /-- Whether a symbol was given up because it was nested too deeply. -/
  truncated : Bool := false

/-- Matches from a position on, behind the given trees. -/
abbrev Matcher := (position : Nat) → (built : List Subtree) → Run → Match × Run

namespace Match

/-- Puts the trees of a match behind those that were built before it. -/
def behind (m : Match) (built : List Subtree) : Match :=
  m.map fun (next, trees) => (next, trees ++ built)

@[simp] theorem behind_none (built : List Subtree) : behind none built = none := rfl

@[simp] theorem behind_some (next : Nat) (trees built : List Subtree) :
    behind (some (next, trees)) built = some (next, trees ++ built) := rfl

end Match

namespace Matcher

def fail : Matcher :=
  fun _ _ run => (none, run)

def token (tokens : Array Token) (s : Symbol) : Matcher := fun position built run =>
  match tokens[position]? with
  | some t =>
    if t.symbol = s then (some (position + 1, .leaf t :: built), run) else (none, run)
  | none => (none, run)

/-- Matches `first` and then `second`. -/
def andThen (first second : Matcher) : Matcher := fun position built run =>
  match first position built run with
  | (some (next, built), run) => second next built run
  | (none, run) => (none, run)

/-- Matches `first`, or else `second`. -/
def orElse (first second : Matcher) : Matcher := fun position built run =>
  match first position built run with
  | (some found, run) => (some found, run)
  | (none, run) => second position built run

def succeed : Matcher :=
  fun position built run => (some (position, built), run)

/-- Matches `m`, or else nothing at all. -/
def optional (m : Matcher) : Matcher :=
  m.orElse succeed

/-- Matches `m` again and again as long as that makes progress, `turns` times at most. -/
def iterate (m : Matcher) : (turns : Nat) → Matcher
  | 0 => succeed
  | turns + 1 => fun position built run =>
    match m position built run with
    | (some (next, built'), run) =>
      if position < next then iterate m turns next built' run else (some (position, built), run)
    | (none, run) => (some (position, built), run)

end Matcher

end GrammarKit
