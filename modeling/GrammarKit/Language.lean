import GrammarKit.Lexer
import Std.Data.TreeSet

/-!
# Languages

A language is a grammar artifact that passed every check.  The checks run in a fixed order and
the first that fails is reported.
-/

namespace GrammarKit

/-- The symbols a rule refers to, in the order they are written. -/
def Rule.references : Rule → List Symbol
  | .symbol s => [s]
  | .seq rules => ofList rules
  | .choice rules => ofList rules
  | .zeroOrMore rule => rule.references
  | .oneOrMore rule => rule.references
  | .optional rule => rule.references
where
  ofList : List Rule → List Symbol
    | [] => []
    | rule :: rules => rule.references ++ ofList rules

namespace Artifact

def checkVersion (version : Nat) : Except LanguageError Unit :=
  if oldestVersion ≤ version ∧ version ≤ newestVersion then .ok ()
  else .error (.unsupportedVersion version)

/-- Names in alphabetical order, each of them once as named and once as anonymous. -/
def nameOrder : String × Bool → String × Bool → Ordering :=
  compareLex (compareOn (·.1)) (compareOn (·.2))

/-- The first name that is used again with the same namedness; `seen` holds the earlier ones. -/
def firstDuplicate (seen : Std.TreeSet (String × Bool) nameOrder) : List SymbolInfo → Option String
  | [] => none
  | info :: rest =>
    if seen.contains (info.name, info.named) then some info.name
    else firstDuplicate (seen.insert (info.name, info.named)) rest

/-- The table has symbols, not too many, the end of the input first and no symbol twice. -/
def checkSymbols (a : Artifact) : Except LanguageError Unit := do
  match a.definition? 0 with
  | none => .error .noSymbols
  | some first =>
    if errorSymbol < a.symbols.size then .error (.tooManySymbols a.symbols.size)
    else if !first.isEnd then .error .missingEnd
    else
      match firstDuplicate ∅ a.symbols.toList with
      | some name => .error (.duplicateSymbol name)
      | none => .ok ()

def findRootRule (a : Artifact) : Except LanguageError Rule :=
  match a.definition? a.root with
  | some (.rule rule) => .ok rule
  | _ => .error (.invalidRoot a.root)

def isParseable (a : Artifact) (s : Symbol) : Bool :=
  (a.definition? s).any (·.isParseable)

/-- Whether the symbol can be an operator of an expression table. -/
def isOperator (a : Artifact) (s : Symbol) : Bool :=
  (a.definition? s).any (·.isLiteral)

/-- Whether an expression table may build nodes of the symbol. -/
def isNodeKind (a : Artifact) (s : Symbol) : Bool :=
  a.symbols[s]?.any fun info => info.named && !info.hidden && !info.definition.isEnd

def isToken (a : Artifact) (s : Symbol) : Bool :=
  (a.definition? s).any (·.isToken)

/-- Every symbol the rule refers to can be parsed. -/
def checkRule (a : Artifact) (owner : String) (rule : Rule) : Except LanguageError Unit :=
  match rule.references.find? (!a.isParseable ·) with
  | some s => .error (.invalidReference owner s)
  | none => .ok ()

/-- An operator is a literal token and builds nodes that can be seen. -/
def checkOperator (a : Artifact) (owner : String) (operator node : Symbol) :
    Except LanguageError Unit :=
  if !a.isOperator operator then .error (.invalidOperator owner operator)
  else if !a.isNodeKind node then .error (.invalidReference owner node)
  else .ok ()

/-- The rule can be parsed and builds nodes that can be seen. -/
def checkPostfix (a : Artifact) (owner : String) (op : PostfixRule) :
    Except LanguageError Unit := do
  a.checkRule owner op.rule
  if !a.isNodeKind op.node then .error (.invalidReference owner op.node)

/-- Every part of an expression table is in order. -/
def checkTable (a : Artifact) (owner : String) (table : ExpressionTable) :
    Except LanguageError Unit := do
  a.checkRule owner table.operand
  table.prefixOps.forM fun op => a.checkOperator owner op.operator op.node
  table.infixOps.forM fun op => a.checkOperator owner op.operator op.node
  table.postfixOps.forM fun op => a.checkPostfix owner op

def checkDefinition (a : Artifact) (info : SymbolInfo) : Except LanguageError Unit :=
  match info.definition with
  | .rule rule => a.checkRule info.name rule
  | .expression table => a.checkTable info.name table
  | _ => .ok ()

def checkTokens (a : Artifact) : Except LanguageError Unit :=
  match (a.extras ++ a.recovery).find? (!a.isToken ·) with
  | some s => .error (.invalidToken s)
  | none => .ok ()

end Artifact

structure Language where
  artifact : Artifact
  /-- Tells artifacts apart: two languages are the same only if they come from one artifact. -/
  identity : Nat
  /-- The rule that a whole text is parsed with. -/
  rootRule : Rule
  lexer : Lexer

namespace Language

def ofArtifact (compile : Regex.Compiler) (a : Artifact) (identity : Nat) :
    Except LanguageError Language := do
  Artifact.checkVersion a.version
  a.checkSymbols
  let rootRule ← a.findRootRule
  a.symbols.toList.forM a.checkDefinition
  a.checkTokens
  let lexer ← Lexer.ofArtifact compile a
  return { artifact := a, identity, rootRule, lexer }

def sameAs (l m : Language) : Bool :=
  l.identity == m.identity

def name (l : Language) : String :=
  l.artifact.name

def version (l : Language) : Nat :=
  l.artifact.version

def symbol? (l : Language) (s : Symbol) : Option SymbolInfo :=
  l.artifact.symbols[s]?

/-- How many kinds of node there are, errors not counted. -/
def kindCount (l : Language) : Nat :=
  l.artifact.symbols.size

/-- The kind name of nodes that hold what could not be parsed. -/
def errorKind : String := "ERROR"

def kindName? (l : Language) (s : Symbol) : Option String :=
  if s = errorSymbol then some errorKind else (l.symbol? s).map (·.name)

/-- The kind with the given name.  Named and anonymous kinds are looked up separately. -/
def kindOfName? (l : Language) (name : String) (named : Bool) : Option Symbol :=
  if named && name == errorKind then some errorSymbol
  else l.artifact.symbols.findIdx? fun info => info.name == name && info.named == named

def isNamed (l : Language) (s : Symbol) : Bool :=
  s == errorSymbol || (l.symbol? s).any (·.named)

/-- Whether nodes of the kind can appear in a tree. -/
def isVisible (l : Language) (s : Symbol) : Bool :=
  s == errorSymbol || (l.symbol? s).any fun info => !info.hidden && !info.definition.isEnd

def rootKind (l : Language) : String :=
  ((l.symbol? l.artifact.root).map (·.name)).getD ""

/-- Whether skipping after an error ends behind the symbol. -/
def isRecovery (l : Language) (s : Symbol) : Bool :=
  l.artifact.recovery.contains s

def summary (l : Language) : String :=
  "Language \x7b name: " ++ Text.quote l.name ++ ", abi_version: " ++ toString l.version ++
    ", node_kind_count: " ++ toString l.kindCount ++ " \x7d"

end Language

end GrammarKit
