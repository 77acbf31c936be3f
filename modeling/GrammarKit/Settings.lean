import GrammarKit.Environment
import GrammarKit.Files.Access
import GrammarKit.Files.Path
import GrammarKit.Parser
import GrammarKit.Toml.Reader

/-!
# Settings

What can be set for a run of the program, and the configuration file that sets it.
-/

namespace GrammarKit

structure Settings where
  maxDepth : Nat := defaultMaxDepth
  /-- The file with the query for highlighting, if it is not the usual one. -/
  query : Option String := none
  logLevel : Option String := none
deriving DecidableEq, Repr

inductive ConfigError where
  | unreadable (path : String) (fault : ReadFault)
  | malformed (path : String)
  | tooDeep (path : String) (maxDepth : Nat)
deriving DecidableEq, Repr

def ConfigError.message : ConfigError → String
  | .unreadable path fault => s!"failed to read {path}: " ++ fault.message
  | .malformed path => s!"invalid config {path}"
  | .tooDeep path maxDepth =>
    s!"invalid config {path}: parser.max-depth {maxDepth} exceeds {maxDepthLimit}"

namespace Settings

/-! ## Sections -/

inductive Section where
  | table (entries : List (Toml.KeyPath × Toml.Value))
  /-- The values of the keys in order, without the keys. -/
  | array (values : List Toml.Value)

def Section.ofValue? : Toml.Value → Option Section
  | .table entries => some (.table entries)
  | .array values => some (.array values)
  | _ => none

/-- The section of an assignment that stands before every header. -/
def sectionOfAssignment? : Toml.KeyPath → Toml.Value → Option (String × Section)
  | [name], value => (Section.ofValue? value).map (name, ·)
  | name :: key, value => some (name, .table [(key, value)])
  | [], _ => none

/-- The assignments that stand before the first header, and the sections of the headers. -/
def gatherSections : List Toml.Item →
    Option (List (Toml.KeyPath × Toml.Value) × List (String × Section))
  | [] => some ([], [])
  | .assignment key value :: items => do
    let (loose, sections) ← gatherSections items
    return ((key, value) :: loose, sections)
  | .header [name] :: items => do
    let (loose, sections) ← gatherSections items
    return ([], (name, .table loose) :: sections)
  | _ => none

def sections (items : List Toml.Item) : Option (List (String × Section)) := do
  let (loose, sections) ← gatherSections items
  return (← loose.mapM fun (key, value) => sectionOfAssignment? key value) ++ sections

/-- The value that a section gives to the one key it may have, if any. -/
def Section.value? (key : String) : Section → Option (Option Toml.Value)
  | .table [] => some none
  | .table [([name], value)] => if name = key then some (some value) else none
  | .table _ => none
  | .array values => some values.head?

/-! ## Reading settings -/

def maxNumber : Int := 0xFFFFFFFFFFFFFFFF

def applySection (s : Settings) (name : String) (body : Section) : Option Settings :=
  match name with
  | "parser" => do
    match ← body.value? "max-depth" with
    | none => return s
    | some (.integer n) =>
      if 0 ≤ n && n ≤ maxNumber then return { s with maxDepth := n.toNat } else none
    | some _ => none
  | "highlight" => do
    match ← body.value? "query" with
    | none => return s
    | some (.text query) => return { s with query := some query }
    | some _ => none
  | "log" => do
    match ← body.value? "level" with
    | none => return s
    | some (.text level) => return { s with logLevel := some level }
    | some _ => none
  | _ => none

/-- The settings that a configuration file holds.  No section occurs twice. -/
def ofText? (text : String) : Option Settings := do
  let sections ← sections (← Toml.itemsOfText? text)
  if sections.map (·.1) |>.Nodup then
    sections.foldlM (fun s (name, body) => s.applySection name body) {}
  else none

/-- The settings with the query file taken from the directory of the configuration file. -/
def locateQuery (s : Settings) (path : String) : Settings :=
  match s.query, Path.parent? path with
  | some query, some dir => { s with query := some (Path.join dir query) }
  | _, _ => s

/-- The settings of the text of the configuration file at `path`. -/
def ofConfig (path text : String) : Except ConfigError Settings :=
  match ofText? text with
  | none => .error (.malformed path)
  | some s =>
    if maxDepthLimit < s.maxDepth then .error (.tooDeep path s.maxDepth)
    else .ok (s.locateQuery path)

variable {m : Type → Type} [Monad m]

def ofFile (files : FileAccess m) (path : String) : m (Except ConfigError Settings) := do
  match ← files.readText path with
  | .error fault => return .error (.unreadable path fault)
  | .ok text => return ofConfig path text

/-- Where the configuration file of a user is, if it is there. -/
def usualFile (env : Environment) : Option String :=
  let dir := env.configHome.or (env.home.map (Path.join · ".config"))
  dir.map fun dir => Path.join (Path.join dir "ponos") "config.toml"

/-- The settings for a run.  A configuration file that is asked for must be there; the one at the
usual place need not. -/
def load (files : FileAccess m) (env : Environment) (asked : Option String) :
    m (Except ConfigError Settings) := do
  match asked.or env.configFile with
  | some path => ofFile files path
  | none =>
    match usualFile env with
    | none => return .ok {}
    | some path => if ← files.isFile path then ofFile files path else return .ok {}

end Settings

end GrammarKit
