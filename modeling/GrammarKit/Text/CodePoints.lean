/-!
# Sets of code points

A property of characters is stored as a table of closed ranges of code points, sorted and
disjoint, and read by bisection.
-/

namespace GrammarKit.Text

/-- Closed ranges of code points in increasing order, no two of them touching. -/
abbrev CodePoints := Array (Nat × Nat)

namespace CodePoints

/-- Looks for the range that holds `n` between the indexes `lo` and `hi`, which are at most
`2 ^ steps` apart. -/
def containsWithin (table : CodePoints) (n : Nat) : (steps lo hi : Nat) → Bool
  | 0, lo, hi => lo < hi && holds lo
  | steps + 1, lo, hi =>
    if lo < hi then
      let mid := (lo + hi) / 2
      match table[mid]? with
      | none => false
      | some (first, last) =>
        if n < first then containsWithin table n steps lo mid
        else if last < n then containsWithin table n steps (mid + 1) hi
        else true
    else false
where
  holds (i : Nat) : Bool :=
    match table[i]? with
    | none => false
    | some (first, last) => first ≤ n && n ≤ last

/-- Whether a range of the table holds the character. -/
def contains (table : CodePoints) (c : Char) : Bool :=
  containsWithin table c.toNat (table.size.log2 + 1) 0 table.size

end CodePoints

end GrammarKit.Text
