import GrammarKit.Parser
import GrammarKit.Sexp
import GrammarKit.Text.Lines

/-!
# Corpus files

A corpus file is a list of cases.  A case has a name between two lines of equals signs, an input,
a line of dashes and the tree that is expected for the input, as an S-expression.
-/

namespace GrammarKit

inductive CorpusFault where
  | expectedHeader
  | unterminatedHeader
  | missingName
  | missingSeparator
  | missingTree
deriving DecidableEq, Repr

def CorpusFault.message : CorpusFault → String
  | .expectedHeader => "expected a `===` header"
  | .unterminatedHeader => "unterminated header"
  | .missingName => "test has no name"
  | .missingSeparator => "missing `---` separator"
  | .missingTree => "missing expected tree"

/-- A fault of a corpus file and the line that has it, counted from one. -/
structure CorpusError where
  line : Nat
  fault : CorpusFault
deriving DecidableEq, Repr

def CorpusError.message (e : CorpusError) : String :=
  s!"line {e.line}: " ++ e.fault.message

structure CorpusCase where
  name : String
  input : String
  /-- The tree that is expected, with its white space reduced. -/
  expected : String
  /-- The line that opens the case, counted from one. -/
  line : Nat
deriving DecidableEq, Repr

namespace CorpusCase

/-- Whether a line is made of at least three marks, white space behind them not counted. -/
def isRule (mark : Char) (line : List Char) : Bool :=
  let marks := Text.trimEnd line
  3 ≤ marks.length && marks.all (· == mark)

/-- The lines without the blank ones at either end. -/
def trimBlankLines (lines : List (List Char)) : List (List Char) :=
  ((lines.dropWhile Text.isBlankLine).reverse.dropWhile Text.isBlankLine).reverse

/-- The words of a name that may take several lines. -/
def joinName (lines : List (List Char)) : List Char :=
  [' '].intercalate ((lines.map Text.trim).filter (!·.isEmpty))

/-- Reads the case whose opening line has the number `line`, from the lines behind that: the case
and the lines behind it. -/
def read (line : Nat) (lines : List (List Char)) :
    Except CorpusError (CorpusCase × List (List Char)) := do
  let (nameLines, rest) := lines.span (!isRule '=' ·)
  if rest.isEmpty then throw ⟨line, .unterminatedHeader⟩
  let name := joinName nameLines
  if name.isEmpty then throw ⟨line, .missingName⟩
  let (inputLines, behind) := (rest.drop 1).span fun l => !isRule '-' l && !isRule '=' l
  match behind with
  | [] => throw ⟨line, .missingSeparator⟩
  | separator :: behind =>
    if isRule '=' separator then
      throw ⟨line + nameLines.length + inputLines.length + 2, .missingSeparator⟩
    let (treeLines, behind) := behind.span (!isRule '=' ·)
    let expected := Sexp.normalize (Text.joinLines treeLines)
    if expected.isEmpty then throw ⟨line, .missingTree⟩
    let case : CorpusCase :=
      { name := String.ofList name
        input := String.ofList (Text.joinLines (trimBlankLines inputLines))
        expected := String.ofList expected
        line }
    return (case, behind)

/-- Reads the cases in the lines from the number `line` on.  Each of the `turns` takes a line. -/
def readAll : (turns line : Nat) → List (List Char) → Except CorpusError (List CorpusCase)
  | 0, _, _ => .ok []
  | _ + 1, _, [] => .ok []
  | turns + 1, line, first :: lines =>
    if Text.isBlankLine first then readAll turns (line + 1) lines
    else if isRule '=' first then do
      let (case, rest) ← read line lines
      let cases ← readAll turns (line + 1 + (lines.length - rest.length)) rest
      return case :: cases
    else .error ⟨line, .expectedHeader⟩

def ofText (text : String) : Except CorpusError (List CorpusCase) :=
  let lines := Text.lines text.toList
  readAll (lines.length + 1) 1 lines

end CorpusCase

inductive CaseOutcome where
  | pass
  | fail (expected actual : String)
deriving DecidableEq, Repr

def CaseOutcome.isPass : CaseOutcome → Bool
  | .pass => true
  | .fail _ _ => false

namespace CorpusCase

/-- Compares the tree of a parse of the input with the expected one.  A parser that is bound to no
language yields no tree. -/
def judge (case : CorpusCase) (parse? : Option Parse) : CaseOutcome :=
  let actual := (parse?.map (·.sexp)).getD ""
  if actual = case.expected then .pass else .fail case.expected actual

def run (case : CorpusCase) (parser : Parser) : CaseOutcome :=
  case.judge (parser.parse case.input)

end CorpusCase

end GrammarKit
