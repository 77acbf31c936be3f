import GrammarKit.Pattern.Basic
import GrammarKit.Regex

/-!
# Searching a text for a pattern

A search reads the text once and carries along, in order of preference, what remains to be matched
on each way through the pattern.  Two ways that have the same remainder are one: the less preferred
is dropped.  When a way reaches its end, every way less preferred than it is dropped too, so the
last end recorded is the end of the preferred match.
-/

namespace GrammarKit.Pattern

/-- What remains to be matched: the patterns in this order. -/
abbrev Remainder := List Pattern

/-- A way that waits for a character of the set. -/
structure Waiting where
  set : CharClass
  rest : Remainder

/-- The ways that wait for a character, in order of preference down to the first way that has
reached its end, and whether one has.  `seen` holds the remainders met before at this place; each
is followed once, so `steps` is never used up when it covers the pattern. -/
def waiting (place : Place) : (steps : Nat) → List Remainder → (seen : List Remainder) →
    List Waiting × Bool
  | 0, _, _ => ([], false)
  | _ + 1, [], _ => ([], false)
  | steps + 1, way :: ways, seen =>
    if seen.contains way then waiting place steps ways seen
    else
      match way with
      | [] => ([], true)
      | .empty :: rest => waiting place steps (rest :: ways) (way :: seen)
      | .chars set :: rest =>
        let (others, ended) := waiting place steps ways (way :: seen)
        (⟨set, rest⟩ :: others, ended)
      | .assertion a :: rest =>
        waiting place steps (if a.holds place then rest :: ways else ways) (way :: seen)
      | .seq p q :: rest => waiting place steps ((p :: q :: rest) :: ways) (way :: seen)
      | .alt p q :: rest => waiting place steps ((p :: rest) :: (q :: rest) :: ways) (way :: seen)
      | .loop p greedy :: rest =>
        let turn := p :: .loop p greedy :: rest
        waiting place steps (if greedy then turn :: rest :: ways else rest :: turn :: ways)
          (way :: seen)

def steps (p : Pattern) : Nat :=
  3 * p.size + 4

/-- Reads the text with the given ways, `taken` characters into the match; `best` is the length
of the match that is preferred so far. -/
def advance (steps : Nat) : (before : Option Char) → (text : List Char) → List Remainder →
    (taken : Nat) → (best : Option Nat) → Option Nat
  | before, [], ways, taken, best =>
    if (waiting ⟨before, none⟩ steps ways []).2 then some taken else best
  | before, c :: text, ways, taken, best =>
    let (threads, ended) := waiting ⟨before, some c⟩ steps ways []
    let best := if ended then some taken else best
    match threads.filterMap fun w => if w.set.contains c then some w.rest else none with
    | [] => best
    | ways => advance steps (some c) text ways (taken + 1) best

/-- The length, in characters, of the preferred match at the start of `text`, which follows the
character `before`. -/
def matchAt (p : Pattern) (before : Option Char) (text : List Char) : Option Nat :=
  advance p.steps before text [[p]] 0 none

/-- The match that begins first; `skipped` characters were passed over. -/
def findFrom (p : Pattern) : (before : Option Char) → (text : List Char) → (skipped : Nat) →
    Option Stretch
  | before, [], skipped => (p.matchAt before []).map fun n => ⟨skipped, skipped + n⟩
  | before, c :: text, skipped =>
    match p.matchAt before (c :: text) with
    | some n => some ⟨skipped, skipped + n⟩
    | none => p.findFrom (some c) text (skipped + 1)

/-- Searches a text from its start for the leftmost match.  A pattern that asks for the start of
the text has no match further on. -/
def find (p : Pattern) (text : List Char) : Option Stretch :=
  if p.anchored then (p.matchAt none text).map (⟨0, ·⟩) else p.findFrom none text 0

end GrammarKit.Pattern
