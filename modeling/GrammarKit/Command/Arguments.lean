import GrammarKit.Command.Basic

/-!
# Reading arguments

Words that start with `-` are flags: `--name`, `--name=value`, or `-` with one letter for each
flag, of which the last may have its value behind it.  Behind the word `--` there are no flags.
Flags that stand before the name of a command and flags that stand behind it are counted
separately.

A word that may turn out to be wrong, a value of `--config` or an operand, is looked at only when
the next word is understood; a word that is not understood is refused first.
-/

namespace GrammarKit

inductive CommandName where
  | verify
  | parse
  | highlight
  | nodeTypes
  | test
deriving DecidableEq, Repr

namespace CommandName

def label : CommandName → String
  | .verify => "verify"
  | .parse => "parse"
  | .highlight => "highlight"
  | .nodeTypes => "node-types"
  | .test => "test"

def all : List CommandName :=
  [.verify, .parse, .highlight, .nodeTypes, .test]

def ofWord? (word : String) : Option CommandName :=
  all.find? fun name => name.label == word

/-- Whether the command works on a file or directory. -/
def takesOperand : CommandName → Bool
  | .parse => true
  | .highlight => true
  | .test => true
  | _ => false

end CommandName

/-- The part of the arguments that a word stands in: before the name of the command, or behind. -/
inductive ArgumentScope where
  | program
  | command (name : CommandName)
deriving DecidableEq, Repr

inductive Flag where
  | verbose
  | quiet
  | help
  | version
  /-- The option for the configuration file, which takes a value. -/
  | config
deriving DecidableEq, Repr

namespace Flag

def label : Flag → String
  | .verbose => "verbose"
  | .quiet => "quiet"
  | .help => "help"
  | .version => "version"
  | .config => "config"

def letter : Flag → Char
  | .verbose => 'v'
  | .quiet => 'q'
  | .help => 'h'
  | .version => 'V'
  | .config => 'c'

end Flag

namespace ArgumentScope

def flags : ArgumentScope → List Flag
  | .program => [.verbose, .config, .help, .version]
  | .command .parse => [.verbose, .config, .help, .quiet]
  | .command _ => [.verbose, .config, .help]

def takesOperand : ArgumentScope → Bool
  | .program => false
  | .command name => name.takesOperand

/-- Refuses a word that is no flag and has no place. -/
def refuse (scope : ArgumentScope) (word : String) : UsageError :=
  match scope with
  | .program => .unknownCommand word
  | .command _ => .unexpectedWord word

end ArgumentScope

/-- A word that was read but not yet looked at. -/
inductive PendingWord where
  | none
  | config (value : Option String)
  | operand (value : String)
deriving DecidableEq, Repr

/-- What the words of a part say so far. -/
structure Arguments where
  verbose : Bool := false
  quiet : Bool := false
  config : Option String := none
  operand : Option String := none
  pending : PendingWord := .none
deriving DecidableEq, Repr

namespace Arguments

def settle (a : Arguments) : Except UsageError Arguments :=
  match a.pending with
  | .none => .ok a
  | .config none => .error .missingValue
  | .config (some value) =>
    if a.config.isSome then .error .repeated
    else if value.isEmpty then .error .missingValue
    else .ok { a with config := some value, pending := .none }
  | .operand value =>
    if value.isEmpty then .error .missingValue
    else .ok { a with operand := some value, pending := .none }

/-- Whether the next word is the value of an option. -/
def awaitsValue (a : Arguments) : Bool :=
  a.pending == .config none

def hasOperand (a : Arguments) : Bool :=
  a.operand.isSome || a.pending matches .operand _

def raise (a : Arguments) (flag : Flag) : Except UsageError Arguments := do
  let a ← a.settle
  match flag with
  | .help => throw .help
  | .version => throw .version
  | .config => return { a with pending := .config none }
  | .verbose => if a.verbose then throw .repeated else return { a with verbose := true }
  | .quiet => if a.quiet then throw .repeated else return { a with quiet := true }

/-- Takes the option for the configuration file with its value. -/
def setConfig (a : Arguments) (value : String) : Except UsageError Arguments := do
  let a ← a.settle
  { a with pending := .config (some value) }.settle

/-- Takes a word `--name` or `--name=value`, without its dashes. -/
def readLong (scope : ArgumentScope) (a : Arguments) (text : List Char) :
    Except UsageError Arguments :=
  let name := text.takeWhile (· != '=')
  match scope.flags.find? (·.label.toList == name), text.drop name.length with
  | none, _ => .error (.unexpectedWord (String.ofList ('-' :: '-' :: text)))
  | some flag, [] => a.raise flag
  | some .config, _ :: value => a.setConfig (String.ofList value)
  | some _, _ :: _ => .error .unwantedValue

def readLetters (scope : ArgumentScope) (a : Arguments) : List Char → Except UsageError Arguments
  | [] => .ok a
  | c :: rest =>
    match scope.flags.find? (·.letter == c) with
    | none => .error (.unexpectedWord (String.ofList ['-', c]))
    | some .config =>
      match rest with
      | [] => a.raise .config
      | '=' :: value => a.setConfig (String.ofList value)
      | value => a.setConfig (String.ofList value)
    | some flag => do
      let a ← a.raise flag
      readLetters scope a rest

def readOperand (scope : ArgumentScope) (a : Arguments) (word : String) :
    Except UsageError Arguments := do
  if scope.takesOperand && !a.hasOperand then
    let a ← a.settle
    return { a with pending := .operand word }
  else throw (scope.refuse word)

/-- Takes a word that is neither `--` nor behind it. -/
def readWord (scope : ArgumentScope) (a : Arguments) (word : String) :
    Except UsageError Arguments :=
  match word.toList with
  | '-' :: '-' :: text => a.readLong scope text
  | '-' :: c :: letters => a.readLetters scope (c :: letters)
  | _ =>
    if a.awaitsValue then .ok { a with pending := .config (some word) }
    else a.readOperand scope word

/-- Reads the words behind the name of a command. -/
def readCommand (name : CommandName) (a : Arguments) : List String → Except UsageError Arguments
  | [] => .ok a
  | "--" :: words => words.foldlM (·.readOperand (.command name)) a
  | word :: words => do
    let a ← a.readWord (.command name) word
    readCommand name a words

end Arguments

/-- The words behind the name of a command as arguments of that command. -/
def CommandName.readArguments (name : CommandName) (words : List String) :
    Except UsageError Arguments := do
  (← Arguments.readCommand name {} words).settle

def CommandName.toCommand (name : CommandName) (a : Arguments) : Except UsageError Command :=
  match name, a.operand with
  | .verify, _ => .ok .verify
  | .nodeTypes, _ => .ok .nodeTypes
  | .parse, some file => .ok (.parse file a.quiet)
  | .highlight, some file => .ok (.highlight file)
  | .test, dir => .ok (.test (dir.getD "test/corpus"))
  | _, none => .error .missingOperand

namespace Invocation

def readHelp : List String → UsageError
  | [] => .help
  | word :: words =>
    if word = "help" || (CommandName.ofWord? word).isSome then
      match words with
      | [] => .help
      | word :: _ => .unknownCommand word
    else .unknownCommand word

/-- Refuses the first word behind `--` where the name of a command is missing. -/
def refuseBehindDashes (word : String) : UsageError :=
  if word = "help" || (CommandName.ofWord? word).isSome then .unexpectedWord word
  else .unknownCommand word

/-- Ends the arguments with a command and the words behind its name; `a` holds those before. -/
def finish (a : Arguments) (name : CommandName) (words : List String) :
    Except UsageError Invocation := do
  let own ← name.readArguments words
  let command ← name.toCommand own
  let a ← a.settle
  return { command, verbose := own.verbose || a.verbose, config := own.config.or a.config }

/-- Ends the arguments where the name of a command is missing. -/
def finishWithout (a : Arguments) : Except UsageError Invocation := do
  let a ← a.settle
  if a.verbose || a.config.isSome then throw .missingCommand else throw .nothingGiven

/-- Reads the arguments from a word on; `a` holds those before. -/
def readFrom (a : Arguments) : List String → Except UsageError Invocation
  | [] => finishWithout a
  | word :: words =>
    match (if a.awaitsValue then none else CommandName.ofWord? word) with
    | some name => finish a name words
    | none =>
      if word = "help" && !a.awaitsValue then .error (readHelp words)
      else if word = "--" then
        match words with
        | [] => finishWithout a
        | word :: _ => .error (refuseBehindDashes word)
      else do
        let a ← a.readWord .program word
        readFrom a words

def ofArguments (words : List String) : Except UsageError Invocation :=
  readFrom {} words

end Invocation

end GrammarKit
