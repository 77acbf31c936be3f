import GrammarKit.Corpus
import GrammarKit.Highlight
import GrammarKit.Load

/-!
# Workspaces

A workspace holds a parser and, under names, languages, trees with their texts, and highlighters.
A step that fails leaves it as it was.
-/

namespace GrammarKit

inductive GrammarSource where
  | ponos
  | artifact (artifact : Artifact)

namespace GrammarSource

def toArtifact : GrammarSource → Artifact
  | .ponos => Ponos.artifact
  | .artifact a => a

/-- Loads the grammar.  The Ponos grammar is one and the same each time; another artifact is told
apart from those before it by the number `fresh`. -/
def load (source : GrammarSource) (fresh : Nat) : Except LanguageError Language :=
  match source with
  | .ponos => Language.ponos
  | .artifact a => Language.ofArtifact Pattern.compile a fresh

end GrammarSource

/-- A tree with the text it was made from. -/
structure Document where
  tree : Tree
  source : String

structure Workspace where
  parser : Parser := {}
  languages : List (String × Language) := []
  documents : List (String × Document) := []
  highlighters : List (String × Highlighter) := []
  /-- Tells the next artifact that is loaded apart from those before it. -/
  fresh : Nat := 1

namespace Workspace

inductive Step where
  | load (source : GrammarSource) (slot : String)
  | clone (language slot : String)
  | sameLanguage (a b : String)
  /-- Starts over with a parser that is bound to no language. -/
  | newParser (maxDepth : Option Nat)
  | setMaxDepth (maxDepth : Nat)
  | maxDepth
  | setLanguage (language : String)
  | language
  /-- Parses a text and keeps the tree under a name if one is given. -/
  | parse (text : String) (slot : Option String)
  | showTree (tree : String)
  | newHighlighter (language query slot : String)
  | highlight (highlighter tree : String)
  | matches (highlighter tree : String)
  | runCorpus (text : String)

inductive Answer where
  | done
  | text (s : String)
  | flag (b : Bool)
  | number (n : Nat)
  | nothing
  | parsed (parse : Parse)
  | tree (tree : Tree)
  | names (names : List String)
  | spans (spans : List HighlightedText) (events : List Event)
  | matches (reports : List MatchReport)
  | cases (cases : List (CorpusCase × CaseOutcome))
  | languageError (e : LanguageError)
  | queryError (e : QueryError)
  | corpusError (e : CorpusError)
  /-- Nothing is kept under a name that the step uses. -/
  | noSlot

/-- The highlighter and the document that are kept under two names. -/
def highlighterAndDocument? (w : Workspace) (highlighter tree : String) :
    Option (Highlighter × Document) := do
  return (← w.highlighters.lookup highlighter, ← w.documents.lookup tree)

/-- Loads a grammar and keeps the language under a name. -/
def load (w : Workspace) (source : GrammarSource) (slot : String) : Workspace × Answer :=
  match source.load w.fresh with
  | .error e => (w, .languageError e)
  | .ok l => ({ w with languages := (slot, l) :: w.languages, fresh := w.fresh + 1 }, .text l.name)

/-- Parses a text with the parser of the workspace. -/
def parse (w : Workspace) (text : String) (slot : Option String) : Workspace × Answer :=
  match w.parser.parse text with
  | none => (w, .nothing)
  | some p =>
    let kept := (slot.map (·, { tree := p.tree, source := text })).toList
    ({ w with documents := kept ++ w.documents }, .parsed p)

def withParser (w : Workspace) (parser : Parser) : Workspace × Answer :=
  ({ w with parser }, .number parser.maxDepth)

def step (w : Workspace) : Step → Workspace × Answer
  | .load source slot => w.load source slot
  | .clone language slot =>
    match w.languages.lookup language with
    | none => (w, .noSlot)
    | some l => ({ w with languages := (slot, l) :: w.languages }, .done)
  | .sameLanguage a b =>
    match w.languages.lookup a, w.languages.lookup b with
    | some l, some m => (w, .flag (l.sameAs m))
    | _, _ => (w, .noSlot)
  | .newParser maxDepth => w.withParser ((maxDepth.map Parser.withMaxDepth).getD {})
  | .setMaxDepth maxDepth => w.withParser (w.parser.setMaxDepth maxDepth)
  | .maxDepth => (w, .number w.parser.maxDepth)
  | .setLanguage language =>
    match w.languages.lookup language with
    | none => (w, .noSlot)
    | some l =>
      match w.parser.setLanguage l with
      | .error e => (w, .languageError e)
      | .ok parser => ({ w with parser }, .done)
  | .language => (w, (w.parser.language.map fun l => Answer.text l.name).getD .nothing)
  | .parse text slot => w.parse text slot
  | .showTree tree =>
    match w.documents.lookup tree with
    | none => (w, .noSlot)
    | some d => (w, .tree d.tree)
  | .newHighlighter language query slot =>
    match w.languages.lookup language with
    | none => (w, .noSlot)
    | some l =>
      match Highlighter.ofText l query with
      | .error e => (w, .queryError e)
      | .ok h => ({ w with highlighters := (slot, h) :: w.highlighters }, .names h.names)
  | .highlight highlighter tree =>
    match w.highlighterAndDocument? highlighter tree with
    | none => (w, .noSlot)
    | some (h, d) => (w, .spans (h.report d.source d.tree) (h.events d.tree))
  | .matches highlighter tree =>
    match w.highlighterAndDocument? highlighter tree with
    | none => (w, .noSlot)
    | some (h, d) => (w, .matches (h.query.report d.source d.tree.root))
  | .runCorpus text =>
    match CorpusCase.ofText text with
    | .error e => (w, .corpusError e)
    | .ok cases => (w, .cases (cases.map fun c => (c, c.run w.parser)))

def run (w : Workspace) : List Step → List Answer
  | [] => []
  | s :: steps =>
    let (w, answer) := w.step s
    answer :: w.run steps

end Workspace

end GrammarKit
