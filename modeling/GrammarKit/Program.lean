import GrammarKit.Command.Arguments
import GrammarKit.Command.Run

/-!
# Runs of the program

From the arguments, the environment and the files to what is left behind: what was written and
logged, the error that ended the run and the exit code.
-/

namespace GrammarKit

inductive ProgramRun where
  | usage (e : UsageError)
  /-- There are no settings to run the command with. -/
  | unconfigured (e : ConfigError)
  | finished (invocation : Invocation) (settings : Settings) (report : Report)
deriving DecidableEq, Repr

structure Outcome where
  code : Nat
  output : String := ""
  error : Option String := none
  log : List String := []
deriving DecidableEq, Repr

namespace ProgramRun

def versionLine : String := "ponos 0.1.0"

/-- The filter of the log when everything is to be told. -/
def verboseFilter : String := "ponos_language=trace,ponos_cli=trace,debug"

/-- The filter of the log when nothing is said about it. -/
def usualFilter : String := "warn"

/-- The filter of the log: that of the environment unless it is blank, else the one for everything
if that is asked for, else that of the settings. -/
def filterText (env : Environment) (verbose : Bool) (settings : Settings) : String :=
  match env.logFilter.filter fun filter => !Text.isBlankLine filter.toList with
  | some filter => filter
  | none => if verbose then verboseFilter else settings.logLevel.getD usualFilter

def usageOutcome : UsageError → Outcome
  | .help => { code := 0 }
  | .version => { code := 0, output := versionLine ++ "\n" }
  | _ => { code := 2 }

def reportOutcome (filter : Filter) (report : Report) : Outcome :=
  let outcome : Outcome :=
    { code := 1
      output := report.output
      log := (report.events.filter filter.admits).map (·.line) }
  match report.verdict with
  | .succeeded => { outcome with code := 0 }
  | .rejected => outcome
  | .failed failure => { outcome with error := some failure.message }

def outcome (env : Environment) : ProgramRun → Outcome
  | .usage e => usageOutcome e
  | .unconfigured e => { code := 1, error := some e.message }
  | .finished invocation settings report =>
    reportOutcome (Filter.ofText (filterText env invocation.verbose settings)) report

end ProgramRun

variable {m : Type → Type} [Monad m]

def runProgram (files : FileAccess m) (env : Environment) (arguments : List String) :
    m ProgramRun := do
  match Invocation.ofArguments arguments with
  | .error e => return .usage e
  | .ok invocation =>
    match ← Settings.load files env invocation.config with
    | .error e => return .unconfigured e
    | .ok settings =>
      return .finished invocation settings (← invocation.command.run files settings)

end GrammarKit
