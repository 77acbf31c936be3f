import GrammarKit.Program
import GrammarKit.Proofs.ErrorMarks
import GrammarKit.Proofs.NestingLimit
import GrammarKit.Proofs.Spacing
import GrammarKit.Proofs.Unfolding

/-!
# Accepted texts

A tree has no error node exactly if the rule of the root takes all tokens when it is first applied.
This is what the command that parses a file reports, with a line for each of the error nodes.
-/

namespace GrammarKit

/-! ## Trees with errors -/

namespace Node

variable {l : Language} {t : Subtree} {text : List Char}

end Node

/-- The nodes are the error nodes of the tree, each of them once, in the order of reading, and the
root is marked if there is one. -/
structure Tree.ListsErrors (tree : Tree) (errors : List (Node tree)) : Prop where
  mem : ∀ n : Node tree, n ∈ errors ↔ n.isError = true
  nodup : errors.Nodup
  order : errors.Pairwise Node.Before
  marked : errors.isEmpty = !tree.root.hasError

namespace Language

variable {l : Language} {input : Input} {depth : Nat}

end Language

/-! ## The report on a file -/

namespace Command

variable {m : Type → Type} [Monad m]

/-- The report tells whether the parse of a file has errors, and so does the code with which the
program ends.  Behind the tree, unless only errors are asked for, there is a line with the ends of
each error node. -/
structure Reports (path : String) (quiet : Bool) (p : Parse) (report : Report) : Prop where
  succeeded : report.verdict = .succeeded ↔ p.tree.root.hasError = false
  rejected : report.verdict = .rejected ↔ p.tree.root.hasError = true
  code : ∀ filter, (ProgramRun.reportOutcome filter report).code =
    if p.tree.root.hasError then 1 else 0
  output : ∃ errors, p.tree.ListsErrors errors ∧
    report.output = (if quiet then "" else p.sexp ++ "\n") ++
      String.join (errors.map fun n =>
        path ++ "\tERROR " ++ n.startPoint.render ++ " - " ++ n.stopPoint.render ++ "\n")

section

variable {l : Language} {events : List Event}

end

end Command

end GrammarKit
