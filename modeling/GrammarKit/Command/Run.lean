import GrammarKit.Command.Basic
import GrammarKit.Command.Report
import GrammarKit.Highlight
import GrammarKit.Ponos.Highlights
import GrammarKit.Settings
import GrammarKit.Text.JsonString

/-!
# Running commands

Every command loads the Ponos grammar first.  What is read is read in a fixed order, so that of two
files that are missing the same one is always named.
-/

namespace GrammarKit.Command

variable {m : Type → Type} [Monad m]

def line (text : String) : Action :=
  .write (text ++ "\n")

/-- The Ponos language, and what the log tells about loading it. -/
def loadPonos : Except LoadFailure Language × List Event :=
  Language.verify Ponos.grammarName Ponos.artifact 0

/-- The report of work that needs the Ponos language. -/
def withPonos (work : Language → m Report) : m Report := do
  let (loaded, events) := loadPonos
  match loaded with
  | .error failure =>
    return { actions := events.map .log, verdict := .failed (.grammarRefused failure) }
  | .ok l => return (← work l).after (events.map .log)

def verifyReport : Report :=
  let (loaded, events) := loadPonos
  match loaded with
  | .error failure =>
    { actions := events.map .log ++ [line (failure.message ++ ": " ++ failure.cause.message)]
      verdict := .rejected }
  | .ok l =>
    { actions := events.map .log ++
        [line s!"{l.name} grammar loaded: ABI {l.version}, {l.kindCount} node kinds"]
      verdict := .succeeded }

/-- A parser as the settings say, bound to a language. -/
def parserFor (settings : Settings) (l : Language) : Except LanguageError Parser :=
  (Parser.withMaxDepth settings.maxDepth).setLanguage l

/-- Reads and parses a file: its text and the parse. -/
def parseFile (files : FileAccess m) (settings : Settings) (l : Language) (path : String) :
    m (Except CommandFailure (String × Parse)) := do
  match ← files.readText path with
  | .error _ => return .error (.unreadableFile path)
  | .ok text =>
    match parserFor settings l with
    | .error e => return .error (.languageRefused e)
    | .ok parser => return .ok (text, l.parse parser.maxDepth text)

/-- The line for an error node of a file. -/
def errorLine (path : String) {tree : Tree} (n : Node tree) : Action :=
  line (path ++ "\tERROR " ++ n.startPoint.render ++ " - " ++ n.stopPoint.render)

def parseReport (path : String) (quiet : Bool) (p : Parse) : Report :=
  let errors := p.tree.walk.filter (·.isError)
  { actions := p.events.map .log ++ (if quiet then [] else [line p.sexp])
      ++ errors.map (errorLine path) ++ [.log (.fileParsed path errors.length)]
    verdict := .ofBool errors.isEmpty }

def runParse (files : FileAccess m) (settings : Settings) (path : String) (quiet : Bool)
    (l : Language) : m Report := do
  match ← parseFile files settings l path with
  | .error failure => return { verdict := .failed failure }
  | .ok (_, p) => return parseReport path quiet p

def readQuery (files : FileAccess m) (settings : Settings) : m (Except CommandFailure String) := do
  match settings.query with
  | none => return .ok Ponos.highlights
  | some path =>
    match ← files.readText path with
    | .error _ => return .error (.unreadableQuery path)
    | .ok text => return .ok text

def spanLine (s : HighlightedText) : Action :=
  line (s!"{s.start}-{s.stop} {s.name} " ++ Text.quote s.text)

def runHighlight (files : FileAccess m) (settings : Settings) (path : String) (l : Language) :
    m Report := do
  match ← readQuery files settings with
  | .error failure => return { verdict := .failed failure }
  | .ok query =>
    match Highlighter.ofText l query with
    | .error e => return { verdict := .failed (.invalidQuery e) }
    | .ok h =>
      match ← parseFile files settings l path with
      | .error failure => return { verdict := .failed failure }
      | .ok (text, p) =>
        return { actions := (p.events ++ h.events p.tree).map .log
                   ++ (h.report text p.tree).map spanLine
                 verdict := .succeeded }

/-- A kind of node as an object in JSON. -/
def kindObject (name : String) (named : Bool) : String :=
  "  \x7b\n    \"type\": " ++ Text.jsonString name ++ ",\n    \"named\": " ++ toString named ++
    "\n  \x7d"

/-- The kinds of node that can appear in trees, in JSON. -/
def kindList (l : Language) : String :=
  let kinds := (List.range l.kindCount).filter l.isVisible
  match kinds.filterMap fun s => (l.kindName? s).map (kindObject · (l.isNamed s)) with
  | [] => "[]"
  | objects => "[\n" ++ ",\n".intercalate objects ++ "\n]"

/-! ## Corpus files -/

def caseActions (case : CorpusCase) (parse? : Option Parse) : List Action :=
  ((parse?.map (·.events)).getD []).map .log ++
    match case.judge parse? with
    | .pass => [line ("  ✓ " ++ case.name)]
    | .fail expected actual =>
      [line (s!"  ✗ {case.name} (line {case.line})"), line ("    expected: " ++ expected),
        line ("    actual:   " ++ actual)]

/-- Runs the cases of a file: what is written and logged, and whether each case passed. -/
def corpusActions (parser : Parser) (path : String) (cases : List CorpusCase) :
    List Action × List Bool :=
  let judged := cases.map fun case => (case, parser.parse case.input)
  (line (path ++ ":") :: judged.flatMap fun (case, parse?) => caseActions case parse?,
    judged.map fun (case, parse?) => (case.judge parse?).isPass)

/-- The end of a run of corpus files, from whether each case passed. -/
def corpusSummary (passes : List Bool) : Report :=
  let passed := passes.count true
  let failed := passes.count false
  { actions := [line s!"\n{passed} passed, {failed} failed", .log (.corpusFinished passed failed)]
    verdict := .ofBool (failed == 0) }

/-- Runs corpus files one after the other; `passes` holds the cases of the files before.  A file
that cannot be used ends the run. -/
def runCorpora (files : FileAccess m) (parser : Parser) (passes : List Bool) :
    (paths : List String) → m Report
  | [] => return corpusSummary passes
  | path :: paths => do
    match ← files.readText path with
    | .error _ => return { verdict := .failed (.unreadableFile path) }
    | .ok text =>
      match CorpusCase.ofText text with
      | .error e => return { verdict := .failed (.malformedCorpus path e) }
      | .ok cases =>
        let (actions, own) := corpusActions parser path cases
        return (← runCorpora files parser (passes ++ own) paths).after actions

/-- The paths of the corpus files among the names in a directory, in order. -/
def corpusPaths (dir : String) (names : List String) : List String :=
  ((names.filter (Path.hasExtension "txt")).map (Path.join dir)).mergeSort (· ≤ ·)

def runTest (files : FileAccess m) (settings : Settings) (dir : String) (l : Language) :
    m Report := do
  match parserFor settings l with
  | .error e => return { verdict := .failed (.languageRefused e) }
  | .ok parser =>
    match ← files.listDirectory dir with
    | .error _ => return { verdict := .failed (.unreadableCorpus dir) }
    | .ok names => runCorpora files parser [] (corpusPaths dir names)

def run (files : FileAccess m) (settings : Settings) : Command → m Report
  | .verify => return verifyReport
  | .parse file quiet => withPonos (runParse files settings file quiet)
  | .highlight file => withPonos (runHighlight files settings file)
  | .nodeTypes => withPonos fun l =>
    return { actions := [line (kindList l)], verdict := .succeeded }
  | .test dir => withPonos (runTest files settings dir)

end GrammarKit.Command
