/-!
# The environment of a run

The variables that the program looks at.
-/

namespace GrammarKit

structure Environment where
  /-- The configuration file, from `PONOS_CONFIG`. -/
  configFile : Option String := none
  /-- The directory of configuration files, from `XDG_CONFIG_HOME`. -/
  configHome : Option String := none
  /-- The home directory, from `HOME`. -/
  home : Option String := none
  /-- The filter of the log, from `RUST_LOG`. -/
  logFilter : Option String := none
deriving DecidableEq, Repr

/-- The environment in which the variables have the values that `value?` tells. -/
def Environment.ofVariables (value? : String → Option String) : Environment :=
  { configFile := value? "PONOS_CONFIG"
    configHome := value? "XDG_CONFIG_HOME"
    home := value? "HOME"
    logFilter := value? "RUST_LOG" }

end GrammarKit
