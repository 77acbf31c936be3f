/-!
# Positions

A place in a text is known by its byte offset, or by its row and the bytes before it in that row.
-/

namespace GrammarKit.Text

/-- A row and a column in bytes, both counted from zero. -/
structure Point where
  row : Nat := 0
  column : Nat := 0
deriving DecidableEq, Repr

namespace Point

/-- The order of the text: by rows, then by columns. -/
def le (p q : Point) : Bool :=
  p.row < q.row || (p.row == q.row && p.column ≤ q.column)

/-- The row and the column with a colon between them. -/
def render (p : Point) : String :=
  s!"{p.row}:{p.column}"

end Point

/-- The bytes behind each newline of a text that starts at byte `offset`. -/
def lineStartsFrom (offset : Nat) : List Char → List Nat
  | [] => []
  | c :: text =>
    let next := offset + c.utf8Size
    if c = '\n' then next :: lineStartsFrom next text else lineStartsFrom next text

/-- The bytes at which the lines of a text start. -/
def lineStarts (text : List Char) : List Nat :=
  0 :: lineStartsFrom 0 text

/-- The position of a byte in a text whose lines start at `starts`. -/
def pointAt (starts : List Nat) (byte : Nat) : Point :=
  let reached := starts.takeWhile (· ≤ byte)
  { row := reached.length - 1, column := byte - reached.getLast?.getD 0 }

/-- The characters that start at a byte from `start` up to `stop`, in a text that starts at byte
`offset`. -/
def sliceFrom (offset start stop : Nat) : List Char → List Char
  | [] => []
  | c :: text =>
    let rest := sliceFrom (offset + c.utf8Size) start stop text
    if start ≤ offset && offset < stop then c :: rest else rest

def slice (text : List Char) (start stop : Nat) : List Char :=
  sliceFrom 0 start stop text

end GrammarKit.Text
