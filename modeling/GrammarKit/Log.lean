import GrammarKit.Text.Blank
import GrammarKit.Text.Quoted

/-!
# Log events

What is worth telling about a run, and the filters that select what is told.
-/

namespace GrammarKit

/-- How much an event matters; a filter admits the levels up to one of them. -/
inductive Level where
  | off
  | error
  | warn
  | info
  | debug
  | trace
deriving DecidableEq, Repr

namespace Level

/-- The place of a level from the quietest to the most talkative. -/
def rank : Level → Nat
  | .off => 0
  | .error => 1
  | .warn => 2
  | .info => 3
  | .debug => 4
  | .trace => 5

def label : Level → String
  | .off => "OFF"
  | .error => "ERROR"
  | .warn => "WARN"
  | .info => "INFO"
  | .debug => "DEBUG"
  | .trace => "TRACE"

def all : List Level :=
  [.off, .error, .warn, .info, .debug, .trace]

/-- The level with the given name, in capitals or not, or with the given rank. -/
def ofName? (name : String) : Option Level :=
  all.find? fun level => level.label == name.toUpper || toString level.rank == name

end Level

inductive Event where
  | languageLoaded (language : String) (version symbols : Nat)
  /-- A language was loaded under the name of its grammar. -/
  | grammarLoaded (grammar : String) (version kinds : Nat)
  | grammarRefused (grammar : String)
  /-- A parse gave up a symbol because it was nested too deeply. -/
  | nestingLimitHit (language : String) (maxDepth : Nat)
  | textParsed (language : String) (bytes tokens : Nat)
  /-- A tree was to be highlighted with the query of another language. -/
  | languagesDiffer (expected actual : String)
  | fileParsed (path : String) (errors : Nat)
  | corpusFinished (passed failed : Nat)
deriving DecidableEq, Repr

inductive FieldValue where
  | text (s : String)
  | path (s : String)
  | number (n : Nat)
deriving DecidableEq, Repr

def FieldValue.render : FieldValue → String
  | .text s => Text.quote s
  | .path s => s
  | .number n => toString n

namespace Event

def level : Event → Level
  | .languageLoaded .. => .debug
  | .grammarLoaded .. => .debug
  | .grammarRefused .. => .warn
  | .nestingLimitHit .. => .warn
  | .textParsed .. => .trace
  | .languagesDiffer .. => .warn
  | .fileParsed .. => .debug
  | .corpusFinished .. => .info

/-- The part of the program that the event belongs to, by the name that filters know it by. -/
def target : Event → String
  | .languageLoaded .. => "ponos_language::language"
  | .grammarLoaded .. => "ponos_language::grammar"
  | .grammarRefused .. => "ponos_language::grammar"
  | .nestingLimitHit .. => "ponos_language::syntax"
  | .textParsed .. => "ponos_language::syntax"
  | .languagesDiffer .. => "ponos_language::highlight"
  | .fileParsed .. => "ponos::commands"
  | .corpusFinished .. => "ponos::commands"

def message : Event → String
  | .languageLoaded .. => "Loaded language"
  | .grammarLoaded .. => "Grammar loaded"
  | .grammarRefused .. => "Grammar failed to load"
  | .nestingLimitHit .. => "Parse hit the nesting limit"
  | .textParsed .. => "Parsed"
  | .languagesDiffer .. => "Tree language does not match highlight configuration"
  | .fileParsed .. => "Parsed file"
  | .corpusFinished .. => "Corpus run finished"

def fields : Event → List (String × FieldValue)
  | .languageLoaded language version symbols =>
    [("language", .text language), ("version", .number version), ("symbols", .number symbols)]
  | .grammarLoaded grammar version kinds =>
    [("grammar", .text grammar), ("version", .number version), ("kinds", .number kinds)]
  | .grammarRefused grammar => [("grammar", .text grammar)]
  | .nestingLimitHit language maxDepth =>
    [("language", .text language), ("max_depth", .number maxDepth)]
  | .textParsed language bytes tokens =>
    [("language", .text language), ("bytes", .number bytes), ("tokens", .number tokens)]
  | .languagesDiffer expected actual =>
    [("expected", .text expected), ("actual", .text actual)]
  | .fileParsed path errors => [("path", .path path), ("errors", .number errors)]
  | .corpusFinished passed failed => [("passed", .number passed), ("failed", .number failed)]

def line (e : Event) : String :=
  e.fields.foldl (fun line field => line ++ " " ++ field.1 ++ "=" ++ field.2.render)
    (e.level.label ++ " " ++ e.message)

def isWarning (e : Event) : Bool :=
  e.level == .warn

end Event

/-! ## Filters -/

/-- One rule of a filter: the level up to which the events of some targets are shown. -/
structure Directive where
  /-- The targets that start with this text; all of them if it is empty. -/
  target : List Char
  level : Level
deriving DecidableEq, Repr

namespace Directive

/-- Reads `level`, `target=level`, or `target` or `target=`, which stand for every event of the
target. -/
def ofText? (text : List Char) : Option Directive :=
  let target := text.takeWhile (· != '=')
  match text.drop target.length with
  | ['='] => if target.isEmpty then none else some ⟨target, .trace⟩
  | _ :: name =>
    if target.isEmpty then none else (Level.ofName? (String.ofList name)).map (⟨target, ·⟩)
  | [] =>
    match Level.ofName? (String.ofList text) with
    | some level => some ⟨[], level⟩
    | none => some ⟨text, .trace⟩

end Directive

abbrev Filter := List Directive

namespace Filter

def splitAtCommas (text : List Char) : List (List Char) :=
  match text with
  | [] => [[]]
  | c :: rest =>
    match splitAtCommas rest with
    | [] => [[c]]
    | part :: parts => if c = ',' then [] :: part :: parts else (c :: part) :: parts

/-- Reads a filter; parts that are no directive are passed over.  Without any directive only errors
are shown. -/
def ofText (text : String) : Filter :=
  let parts := ((splitAtCommas text.toList).map Text.trim).filter (!·.isEmpty)
  match parts.filterMap Directive.ofText? with
  | [] => [⟨[], .error⟩]
  | directives => directives

/-- The rule for a target: of those that apply the one with the longest target, and of these the
last. -/
def directiveFor? (filter : Filter) (target : List Char) : Option Directive :=
  (filter.filter (·.target.isPrefixOf target)).foldl (fun best d =>
    match best with
    | none => some d
    | some b => if b.target.length ≤ d.target.length then some d else some b) none

def admits (filter : Filter) (e : Event) : Bool :=
  (filter.directiveFor? e.target.toList).any fun d => e.level.rank ≤ d.level.rank

end Filter

end GrammarKit
