import GrammarKit.Program

/-!
# The command line

The program with the files and the environment of the system.  The log and errors go to the
standard error.
-/

namespace GrammarKit

def ReadFault.ofSystem : IO.Error → ReadFault
  | .noFileOrDirectory _ _ _ => .notFound
  | .inappropriateType _ code details =>
    if code = 20 then .notDirectory else if code = 21 then .isDirectory else .other details
  | e => .other (toString e)

/-- The answer of the system, or why there is none. -/
def answerOfSystem {α : Type} (ask : IO α) : IO (Except ReadFault α) := do
  try return .ok (← ask)
  catch e => return .error (.ofSystem e)

def systemFiles : FileAccess IO where
  readBytes path := answerOfSystem do return (← IO.FS.readBinFile path).toList
  listDirectory path := answerOfSystem do
    return (← ((← IO.currentDir) / path).readDir).toList.map (·.fileName)
  isFile path := do
    let place := (← IO.currentDir) / path
    return (← place.pathExists) && !(← place.isDir)

def systemEnvironment : IO Environment := do
  let names := ["PONOS_CONFIG", "XDG_CONFIG_HOME", "HOME", "RUST_LOG"]
  let values ← names.filterMapM fun name => return (← IO.getEnv name).map (name, ·)
  return Environment.ofVariables fun name => values.lookup name

def usageText : String :=
  "usage: ponos [-v] [-c PATH] verify | parse FILE [-q] | highlight FILE | node-types | test [DIR]"

/-- Shows what a run leaves behind and answers its exit code. -/
def Outcome.present (outcome : Outcome) (run : ProgramRun) : IO UInt32 := do
  outcome.log.forM IO.eprintln
  IO.print outcome.output
  match run with
  | .usage .help => IO.println usageText
  | .usage .version => pure ()
  | .usage _ => IO.eprintln usageText
  | _ => outcome.error.forM fun message => IO.eprintln ("Error: " ++ message)
  return outcome.code.toUInt32

end GrammarKit

def main (arguments : List String) : IO UInt32 := do
  let env ← GrammarKit.systemEnvironment
  let run ← GrammarKit.runProgram GrammarKit.systemFiles env arguments
  (run.outcome env).present run
