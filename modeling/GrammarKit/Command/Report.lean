import GrammarKit.Corpus
import GrammarKit.Load
import GrammarKit.Log
import GrammarKit.Query.Error

/-!
# Reports

What a command writes and logs, in the order in which it happens, and how it ends.
-/

namespace GrammarKit

inductive CommandFailure where
  | grammarRefused (failure : LoadFailure)
  | languageRefused (e : LanguageError)
  | unreadableFile (path : String)
  | unreadableQuery (path : String)
  | unreadableCorpus (directory : String)
  | invalidQuery (e : QueryError)
  | malformedCorpus (path : String) (e : CorpusError)
  | outputClosed
deriving DecidableEq, Repr

namespace CommandFailure

def message : CommandFailure → String
  | .grammarRefused failure => failure.message
  | .languageRefused e => e.message
  | .unreadableFile path => s!"failed to read {path}"
  | .unreadableQuery path => s!"failed to read highlight query {path}"
  | .unreadableCorpus directory => s!"failed to read corpus directory {directory}"
  | .invalidQuery _ => "invalid highlight query"
  | .malformedCorpus path _ => s!"malformed corpus file {path}"
  | .outputClosed => "output closed"

/-- What lies behind the failure, where that is a fault in a text or a grammar. -/
def cause? : CommandFailure → Option String
  | .grammarRefused failure => some failure.cause.message
  | .invalidQuery e => some e.message
  | .malformedCorpus _ e => some e.message
  | _ => none

end CommandFailure

inductive Action where
  | write (text : String)
  | log (event : Event)
deriving DecidableEq, Repr

inductive Verdict where
  | succeeded
  /-- The work was done, and what it was done on is not in order. -/
  | rejected
  | failed (failure : CommandFailure)
deriving DecidableEq, Repr

def Verdict.ofBool (inOrder : Bool) : Verdict :=
  if inOrder then .succeeded else .rejected

structure Report where
  actions : List Action := []
  verdict : Verdict
deriving DecidableEq, Repr

namespace Report

def output (r : Report) : String :=
  String.join (r.actions.filterMap fun
    | .write text => some text
    | .log _ => none)

def events (r : Report) : List Event :=
  r.actions.filterMap fun
    | .write _ => none
    | .log event => some event

def after (r : Report) (actions : List Action) : Report :=
  { r with actions := actions ++ r.actions }

/-- The characters from the start of a text that take no more than `room` bytes. -/
def charsWithin : (room : Nat) → List Char → List Char
  | _, [] => []
  | room, c :: rest =>
    if c.utf8Size ≤ room then c :: charsWithin (room - c.utf8Size) rest else []

/-- The actions up to the one that writes more than `room` bytes in all, of which only what fits
is written; nothing if everything fits. -/
def cutAt? : (room : Nat) → List Action → Option (List Action)
  | _, [] => none
  | room, .log event :: actions => (cutAt? room actions).map (.log event :: ·)
  | room, .write text :: actions =>
    if text.utf8ByteSize ≤ room then
      (cutAt? (room - text.utf8ByteSize) actions).map (.write text :: ·)
    else some [.write (String.ofList (charsWithin room text.toList))]

/-- The report of the command if its output takes no more than `room` bytes. -/
def within (r : Report) (room : Nat) : Report :=
  match cutAt? room r.actions with
  | none => r
  | some actions => { actions, verdict := .failed .outputClosed }

end Report

end GrammarKit
