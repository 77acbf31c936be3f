import GrammarKit.Files.Tree
import GrammarKit.Main
import GrammarKit.Proofs.Acceptance
import GrammarKit.Proofs.Anchoring
import GrammarKit.Proofs.Associativity
import GrammarKit.Proofs.Attachment
import GrammarKit.Proofs.Backtracking
import GrammarKit.Proofs.CorpusFiles
import GrammarKit.Proofs.CorpusLayout
import GrammarKit.Proofs.CorpusRuns
import GrammarKit.Proofs.Coverage
import GrammarKit.Proofs.HeightBound
import GrammarKit.Proofs.Highlighting
import GrammarKit.Proofs.KindNames
import GrammarKit.Proofs.Locality
import GrammarKit.Proofs.LongestMatch
import GrammarKit.Proofs.Navigation
import GrammarKit.Proofs.NestingLimit
import GrammarKit.Proofs.OperatorChains
import GrammarKit.Proofs.Positions
import GrammarKit.Proofs.Precedence
import GrammarKit.Proofs.QueryExactness
import GrammarKit.Proofs.QueryKinds
import GrammarKit.Proofs.ReducedForm
import GrammarKit.Proofs.Respacing
import GrammarKit.Proofs.Resumption
import GrammarKit.Proofs.Safety
import GrammarKit.Proofs.Skeletons
import GrammarKit.Proofs.Spacing
import GrammarKit.Workspace
