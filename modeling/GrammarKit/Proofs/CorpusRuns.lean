import GrammarKit.Proofs.Acceptance
import Mathlib.Data.List.Sort
import Mathlib.Data.String.Basic

/-!
# Runs of corpus files

The command that tests a directory takes the corpus files in the order of their paths, however the
directory lists them, and reports each case of each file once.  A file that cannot be used ends the
run behind the lines on the files before it.
-/

namespace GrammarKit

/-! ## Lines -/

/-- The lines on a case that ends in this way. -/
def CorpusCase.lines (case : CorpusCase) : CaseOutcome → List String
  | .pass => ["  ✓ " ++ case.name]
  | .fail expected actual =>
    [s!"  ✗ {case.name} (line {case.line})", "    expected: " ++ expected,
      "    actual:   " ++ actual]

/-- A corpus file with the cases in it. -/
structure CorpusFile where
  path : String
  cases : List CorpusCase

namespace CorpusFile

/-- The line with the path, and behind it the lines on the cases. -/
def lines (parser : Parser) (file : CorpusFile) : List String :=
  (file.path ++ ":") :: file.cases.flatMap fun case => case.lines (case.run parser)

def actions (parser : Parser) (file : CorpusFile) : List Action :=
  (Command.corpusActions parser file.path file.cases).1

/-- Whether each of the cases passes. -/
def passes (parser : Parser) (file : CorpusFile) : List Bool :=
  file.cases.map fun case => (case.run parser).isPass

end CorpusFile

namespace Command

variable {parser : Parser} {file : CorpusFile}

end Command

/-! ## Reading -/

namespace Command

variable {m : Type → Type} [Monad m] {files : FileAccess m} {parser : Parser}
  {read : String → Except ReadFault String} {passes : List Bool} {paths rest : List String}
  {path : String} {file : CorpusFile} {corpora : List CorpusFile} {failure : CommandFailure}

/-- The paths are those of the corpus files among the names in the directory, in order. -/
structure ListsCorpora (dir : String) (names paths : List String) : Prop where
  perm : paths.Perm ((names.filter (Path.hasExtension "txt")).map (Path.join dir))
  sorted : paths.Pairwise (· ≤ ·)

variable {dir : String} {names names' paths' : List String}

/-- There is one such list only, in whatever order the directory holds the names. -/
theorem ListsCorpora.unique (h : ListsCorpora dir names paths)
    (h' : ListsCorpora dir names' paths') (hnames : names.Perm names') : paths = paths' := by
  have hfiles := (hnames.filter (Path.hasExtension "txt")).map (Path.join dir)
  exact ((h.perm.trans hfiles).trans h'.perm.symm).eq_of_pairwise' h.sorted h'.sorted

/-! ## Reports -/

end Command

end GrammarKit
