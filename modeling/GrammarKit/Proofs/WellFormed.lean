import GrammarKit.Proofs.Loading

/-!
# Well-formed artifacts

What an artifact has to be like to be loaded, and what is reported of one that is not: of all its
faults, in a fixed order, the first.
-/

namespace GrammarKit

/-! ## What symbols are used for -/

/-- The rule refers to the symbol, at any depth. -/
inductive Rule.RefersTo : Rule → Symbol → Prop
  | symbol {s} : RefersTo (.symbol s) s
  | seq {rules r s} : r ∈ rules → RefersTo r s → RefersTo (.seq rules) s
  | choice {rules r s} : r ∈ rules → RefersTo r s → RefersTo (.choice rules) s
  | zeroOrMore {r s} : RefersTo r s → RefersTo (.zeroOrMore r) s
  | oneOrMore {r s} : RefersTo r s → RefersTo (.oneOrMore r) s
  | optional {r s} : RefersTo r s → RefersTo (.optional r) s

/-- What a definition uses a symbol for. -/
inductive Use where
  | reference (symbol : Symbol)
  | operator (symbol : Symbol)
  /-- As the kind of a node that a table builds. -/
  | node (symbol : Symbol)

/-- The definition uses a symbol. -/
inductive Definition.Uses : Definition → Use → Prop
  | rule {r s} : r.RefersTo s → Uses (.rule r) (.reference s)
  | operand {table s} : table.operand.RefersTo s → Uses (.expression table) (.reference s)
  | prefixOperator {table op} :
      op ∈ table.prefixOps → Uses (.expression table) (.operator op.operator)
  | prefixNode {table op} : op ∈ table.prefixOps → Uses (.expression table) (.node op.node)
  | infixOperator {table op} :
      op ∈ table.infixOps → Uses (.expression table) (.operator op.operator)
  | infixNode {table op} : op ∈ table.infixOps → Uses (.expression table) (.node op.node)
  | postfixRule {table op s} :
      op ∈ table.postfixOps → op.rule.RefersTo s → Uses (.expression table) (.reference s)
  | postfixNode {table op} : op ∈ table.postfixOps → Uses (.expression table) (.node op.node)

namespace Artifact

/-- The table has the symbol, and it is as asked. -/
def Has (a : Artifact) (s : Symbol) (p : SymbolInfo → Prop) : Prop :=
  ∃ info, a.symbols[s]? = some info ∧ p info

end Artifact

/-- The symbol is a literal or a pattern. -/
def SymbolInfo.IsToken (info : SymbolInfo) : Prop :=
  (∃ text, info.definition = .literal text) ∨ ∃ regex, info.definition = .pattern regex

/-- The table has the symbol, and it is one that can be used for that: rules refer to tokens, rules
and expressions, operators are literals, and nodes are named and can be seen. -/
def Use.IsMet (a : Artifact) : Use → Prop
  | reference s => a.Has s fun info =>
    info.IsToken ∨ (∃ r, info.definition = .rule r) ∨ ∃ table, info.definition = .expression table
  | operator s => a.Has s fun info => ∃ text, info.definition = .literal text
  | node s => a.Has s fun info =>
    info.named = true ∧ info.hidden = false ∧ info.definition ≠ .endOfInput

/-- The artifact can be loaded with regular expressions that `compile` compiles. -/
structure Artifact.WellFormed (compile : Regex.Compiler) (a : Artifact) : Prop where
  version : oldestVersion ≤ a.version ∧ a.version ≤ newestVersion
  size : 1 ≤ a.symbols.size ∧ a.symbols.size ≤ 65535
  first : a.Has 0 (·.definition = .endOfInput)
  names : (a.symbols.toList.map fun info => (info.name, info.named)).Nodup
  root : ∃ r, a.Has a.root (·.definition = .rule r)
  uses : ∀ owner ∈ a.symbols, ∀ u, owner.definition.Uses u → u.IsMet a
  /-- Extras and recovery symbols are tokens. -/
  tokens : ∀ s, s ∈ a.extras ∨ s ∈ a.recovery → a.Has s (·.IsToken)
  literals : ∀ info ∈ a.symbols, ∀ text, info.definition = .literal text → text ≠ ""
  /-- Patterns can be compiled in a group behind the start of the text, and then they do not match
  the empty text. -/
  patterns : ∀ info ∈ a.symbols, ∀ written, info.definition = .pattern written →
    ∃ regex, compile (['^', '(', '?', ':'] ++ written.toList ++ [')']) = some regex ∧
      regex.find [] = none

/-! ## What the checks ask -/

theorem Definition.isLiteral_iff {d : Definition} :
    d.isLiteral = true ↔ ∃ text, d = .literal text := by
  cases d <;> simp [isLiteral]

theorem Definition.isEnd_iff {d : Definition} : d.isEnd = true ↔ d = .endOfInput := by
  cases d <;> simp [isEnd]

theorem SymbolInfo.isToken_iff {info : SymbolInfo} :
    info.definition.isToken = true ↔ info.IsToken := by
  unfold IsToken
  cases info.definition <;> simp [Definition.isToken]

namespace Artifact

variable {a : Artifact} {s : Symbol}

-- A property of definitions, asked of a symbol that the table may not have.
theorem any_definition?_iff {p : Definition → Bool} :
    (a.definition? s).any p = true ↔ a.Has s (p ·.definition = true) := by
  unfold definition? Has
  cases a.symbols[s]? <;> simp

theorem isEnd_iff :
    (a.definition? s).any (·.isEnd) = true ↔ a.Has s (·.definition = .endOfInput) := by
  rw [any_definition?_iff]
  simp only [Definition.isEnd_iff]

theorem isToken_iff : a.isToken s = true ↔ a.Has s (·.IsToken) := by
  rw [isToken, any_definition?_iff]
  simp only [SymbolInfo.isToken_iff]

theorem isParseable_iff : a.isParseable s = true ↔ (Use.reference s).IsMet a := by
  rw [isParseable, any_definition?_iff]
  unfold Use.IsMet Has SymbolInfo.IsToken
  refine exists_congr fun info => and_congr_right fun _ => ?_
  cases hd : info.definition <;> simp [hd, Definition.isParseable, Definition.isToken]

theorem isOperator_iff : a.isOperator s = true ↔ (Use.operator s).IsMet a := by
  rw [isOperator, any_definition?_iff]
  simp only [Definition.isLiteral_iff, Use.IsMet]

theorem isNodeKind_iff : a.isNodeKind s = true ↔ (Use.node s).IsMet a := by
  unfold isNodeKind Use.IsMet Has
  cases hs : a.symbols[s]? with
  | none => simp [hs]
  | some info => cases hd : info.definition <;> simp [hs, hd, Definition.isEnd]

instance : Decidable (a.Has s (·.definition = .endOfInput)) :=
  decidable_of_iff _ isEnd_iff

instance : Decidable (a.Has s (·.IsToken)) :=
  decidable_of_iff _ isToken_iff

end Artifact

instance (a : Artifact) : DecidablePred (Use.IsMet a)
  | .reference _ => decidable_of_iff _ Artifact.isParseable_iff
  | .operator _ => decidable_of_iff _ Artifact.isOperator_iff
  | .node _ => decidable_of_iff _ Artifact.isNodeKind_iff

/-! ## Faults -/

/-- The error as a fault, unless the condition holds. -/
def LanguageError.ifNot (e : LanguageError) (ok : Prop) [Decidable ok] : List LanguageError :=
  if ok then [] else [e]

/-- What is wrong if the symbol cannot be used for that. -/
def Use.fault (owner : String) : Use → LanguageError
  | reference s => .invalidReference owner s
  | operator s => .invalidOperator owner s
  | node s => .invalidReference owner s

/-- What a rule uses symbols for, in the order they are written. -/
def Rule.uses (r : Rule) : List Use :=
  r.references.map .reference

/-- What a definition uses symbols for.  In a table the operand comes first, then the prefix
operators, the infix operators and the rules of postfix operators, each with its node behind it. -/
def Definition.uses : Definition → List Use
  | .rule r => r.uses
  | .expression table =>
    table.operand.uses ++
      table.prefixOps.flatMap (fun op => [.operator op.operator, .node op.node]) ++
      table.infixOps.flatMap (fun op => [.operator op.operator, .node op.node]) ++
      table.postfixOps.flatMap fun op => op.rule.uses ++ [.node op.node]
  | _ => []

/-- Every symbol that repeats the name and the namedness of one before it. -/
def SymbolInfo.repetitions (before : List SymbolInfo) : List SymbolInfo → List LanguageError
  | [] => []
  | info :: rest =>
    LanguageError.ifNot (.duplicateSymbol info.name)
        ((info.name, info.named) ∉ before.map fun e => (e.name, e.named)) ++
      repetitions (info :: before) rest

/-- What is wrong with a token. -/
def SymbolInfo.tokenFaults (compile : Regex.Compiler) (info : SymbolInfo) : List LanguageError :=
  match info.definition with
  | .literal text => LanguageError.ifNot (.emptyToken info.name) (text ≠ "")
  | .pattern written =>
    match compile (['^', '(', '?', ':'] ++ written.toList ++ [')']) with
    | none => [.invalidPattern info.name]
    | some regex => LanguageError.ifNot (.emptyToken info.name) (regex.find [] = none)
  | _ => []

namespace Artifact

def useFaults (a : Artifact) (owner : String) (uses : List Use) : List LanguageError :=
  uses.flatMap fun u => (u.fault owner).ifNot (u.IsMet a)

/-- What is wrong with the table as such. -/
def tableFaults (a : Artifact) : List LanguageError :=
  LanguageError.ifNot .noSymbols (0 < a.symbols.size) ++
    LanguageError.ifNot (.tooManySymbols a.symbols.size) (a.symbols.size ≤ 65535) ++
    LanguageError.ifNot .missingEnd (a.Has 0 (·.definition = .endOfInput)) ++
    SymbolInfo.repetitions [] a.symbols.toList

def rootFaults (a : Artifact) : List LanguageError :=
  match a.definition? a.root with
  | some (.rule _) => []
  | _ => [.invalidRoot a.root]

/-- What is wrong with the symbols that definitions use. -/
def definitionFaults (a : Artifact) : List LanguageError :=
  a.symbols.toList.flatMap fun info => a.useFaults info.name info.definition.uses

/-- What is wrong with the extras and the recovery symbols. -/
def tokenFaults (a : Artifact) : List LanguageError :=
  (a.extras ++ a.recovery).flatMap fun s =>
    (LanguageError.invalidToken s).ifNot (a.Has s (·.IsToken))

/-- Everything that is wrong with an artifact, in the order in which it is looked for. -/
def faults (compile : Regex.Compiler) (a : Artifact) : List LanguageError :=
  List.flatten
    [(LanguageError.unsupportedVersion a.version).ifNot
        (oldestVersion ≤ a.version ∧ a.version ≤ newestVersion),
      a.tableFaults, a.rootFaults, a.definitionFaults, a.tokenFaults,
      a.symbols.toList.flatMap (·.tokenFaults compile)]

end Artifact

/-! ## Checks report the first fault -/

/-- The check fails with the first of the faults, and succeeds if there is none. -/
def Reports {α : Type} (check : Except LanguageError α) (faults : List LanguageError) : Prop :=
  match check with
  | .ok _ => faults = []
  | .error e => faults.head? = some e

namespace Reports

variable {α β : Type} {faults faults' : List LanguageError}

theorem bind {c : Except LanguageError α} {f : α → Except LanguageError β} (h : Reports c faults)
    (hf : ∀ x, c = .ok x → Reports (f x) faults') : Reports (c >>= f) (faults ++ faults') := by
  cases c with
  | error e =>
    show (faults ++ faults').head? = some e
    rw [List.head?_append, show faults.head? = some e from h]
    rfl
  | ok x =>
    obtain rfl : faults = [] := h
    exact hf x rfl

theorem map {c : Except LanguageError α} (h : Reports c faults) (f : α → β) :
    Reports (c >>= fun x => pure (f x)) faults := by
  have : Reports (c >>= fun x => pure (f x)) (faults ++ []) := h.bind fun _ _ => rfl
  rwa [List.append_nil] at this

theorem ifNot (e : LanguageError) {ok : Prop} [Decidable ok] {c : Except LanguageError Unit}
    (hok : ok → c = .ok ()) (hbad : ¬ok → c = .error e) : Reports c (e.ifNot ok) := by
  unfold LanguageError.ifNot
  by_cases h : ok
  · rw [if_pos h, hok h]
    rfl
  · rw [if_neg h, hbad h]
    rfl

theorem forM {xs : List α} {f : α → Except LanguageError Unit} {g : α → List LanguageError}
    (h : ∀ x, Reports (f x) (g x)) : Reports (xs.forM f) (xs.flatMap g) := by
  induction xs with
  | nil => rfl
  | cons x xs ih => exact (h x).bind fun _ _ => ih

-- A check that looks for something and fails if it finds it.
theorem of_head? (found : Option α) (e : α → LanguageError) {c : Except LanguageError Unit}
    (h : faults.head? = found.map e) (hnone : found = none → c = .ok ())
    (hsome : ∀ x, found = some x → c = .error (e x)) : Reports c faults := by
  cases found with
  | none =>
    rw [hnone rfl]
    exact List.head?_eq_none_iff.mp h
  | some x =>
    rw [hsome x rfl]
    exact h

theorem ok_iff {c : Except LanguageError α} (h : Reports c faults) :
    (∃ x, c = .ok x) ↔ faults = [] := by
  cases c with
  | ok x => exact ⟨fun _ => h, fun _ => ⟨x, rfl⟩⟩
  | error e =>
    have h : faults.head? = some e := h
    constructor
    · rintro ⟨x, hx⟩
      cases hx
    · rintro rfl
      cases h

theorem error_iff {c : Except LanguageError α} (h : Reports c faults) (e : LanguageError) :
    c = .error e ↔ faults.head? = some e := by
  cases c with
  | ok x =>
    obtain rfl : faults = [] := h
    simp
  | error e' =>
    have h : faults.head? = some e' := h
    rw [h]
    simp

end Reports

theorem LanguageError.head?_flatMap_ifNot {α : Type} {p : α → Bool} {ok : α → Prop}
    [DecidablePred ok] (hp : ∀ x, p x = true ↔ ok x) (xs : List α) (e : α → LanguageError) :
    (xs.flatMap fun x => (e x).ifNot (ok x)).head? = (xs.find? (!p ·)).map e := by
  induction xs with
  | nil => rfl
  | cons x xs ih =>
    rw [List.flatMap_cons, List.find?_cons]
    cases hx : p x with
    | true => simpa [ifNot, (hp x).mp hx] using ih
    | false =>
      have hbad : ¬ok x := by rw [← hp, hx]; decide
      simp [ifNot, hbad]

instance : Std.TransCmp Artifact.nameOrder :=
  inferInstanceAs (Std.TransCmp (compareLex _ _))

instance : Std.LawfulEqCmp Artifact.nameOrder where
  eq_of_compare := by
    intro x y same
    simp [Artifact.nameOrder, compareLex_eq_eq, compareOn] at same
    exact Prod.ext same.1 same.2

namespace Artifact

variable {a : Artifact} {owner : String}

theorem checkVersion_reports (version : Nat) :
    Reports (checkVersion version) ((LanguageError.unsupportedVersion version).ifNot
      (oldestVersion ≤ version ∧ version ≤ newestVersion)) := by
  apply Reports.ifNot
  · exact fun h => if_pos h
  · exact fun h => if_neg h

-- The set holds the names of the symbols before.
theorem head?_repetitions (before infos : List SymbolInfo)
    (seen : Std.TreeSet (String × Bool) nameOrder)
    (hseen : ∀ k, seen.contains k = true ↔ k ∈ before.map fun e => (e.name, e.named)) :
    (SymbolInfo.repetitions before infos).head? =
      (firstDuplicate seen infos).map .duplicateSymbol := by
  induction infos generalizing before seen with
  | nil => rfl
  | cons info rest ih =>
    unfold firstDuplicate SymbolInfo.repetitions
    cases hc : seen.contains (info.name, info.named) with
    | true =>
      have hmem := (hseen _).mp hc
      simp [LanguageError.ifNot, hmem]
    | false =>
      have hnot : (info.name, info.named) ∉ before.map fun e => (e.name, e.named) := by
        rw [← hseen, hc]
        decide
      have hinsert (k) : (seen.insert (info.name, info.named)).contains k = true ↔
          k ∈ (info :: before).map fun e => (e.name, e.named) := by
        rw [Std.TreeSet.contains_insert, Bool.or_eq_true, hseen, List.map_cons, List.mem_cons,
          beq_iff_eq, Std.LawfulEqCmp.compare_eq_iff_eq, eq_comm]
      have := ih (info :: before) (seen.insert (info.name, info.named)) hinsert
      simpa [LanguageError.ifNot, hnot] using this

theorem checkSymbols_reports (a : Artifact) : Reports a.checkSymbols a.tableFaults := by
  have hnames := head?_repetitions [] a.symbols.toList ∅ (by simp)
  unfold checkSymbols tableFaults
  cases hfirst : a.definition? 0 with
  | none =>
    have hsize : ¬0 < a.symbols.size := by
      simpa [definition?] using hfirst
    simp [Reports, LanguageError.ifNot, hsize]
  | some first =>
    have hsize : 0 < a.symbols.size := by
      obtain ⟨info, hinfo, -⟩ := Option.map_eq_some_iff.mp hfirst
      exact (Array.getElem?_eq_some_iff.mp hinfo).1
    by_cases hlong : errorSymbol < a.symbols.size
    · have hlong' : ¬a.symbols.size ≤ 65535 := Nat.not_le.mpr hlong
      simp [Reports, LanguageError.ifNot, hsize, hlong, hlong']
    · have hlong' : a.symbols.size ≤ 65535 := Nat.not_lt.mp hlong
      have hhas : a.Has 0 (·.definition = .endOfInput) ↔ first.isEnd = true := by
        rw [← isEnd_iff, hfirst, Option.any_some]
      cases hend : first.isEnd with
      | false => simp [Reports, LanguageError.ifNot, hsize, hlong, hlong', hhas, hend]
      | true =>
        apply Reports.of_head? (firstDuplicate ∅ a.symbols.toList) .duplicateSymbol
        · simpa [LanguageError.ifNot, hsize, hlong', hhas, hend] using hnames
        · intro h
          simp [hlong, hend, h]
        · intro name h
          simp [hlong, hend, h]

theorem findRootRule_reports (a : Artifact) : Reports a.findRootRule a.rootFaults := by
  unfold findRootRule rootFaults
  cases a.definition? a.root with
  | none => rfl
  | some d => cases d <;> rfl

theorem useFaults_append (uses uses' : List Use) :
    a.useFaults owner (uses ++ uses') = a.useFaults owner uses ++ a.useFaults owner uses' :=
  List.flatMap_append

theorem useFaults_flatMap {α : Type} (xs : List α) (uses : α → List Use) :
    a.useFaults owner (xs.flatMap uses) = xs.flatMap fun x => a.useFaults owner (uses x) :=
  List.flatMap_assoc

theorem checkRule_reports (r : Rule) :
    Reports (a.checkRule owner r) (a.useFaults owner r.uses) := by
  have h := LanguageError.head?_flatMap_ifNot (fun s => isParseable_iff (a := a) (s := s))
    r.references (.invalidReference owner)
  apply Reports.of_head? (r.references.find? (!a.isParseable ·)) (.invalidReference owner)
  · rw [useFaults, Rule.uses, List.flatMap_map]
    exact h
  · intro hnone
    simp only [checkRule, hnone]
  · intro s hsome
    simp only [checkRule, hsome]

theorem checkNode_reports (node : Symbol) :
    Reports (if !a.isNodeKind node then .error (.invalidReference owner node) else .ok ())
      (a.useFaults owner [.node node]) := by
  have h : a.useFaults owner [.node node] =
      (LanguageError.invalidReference owner node).ifNot ((Use.node node).IsMet a) :=
    List.flatMap_singleton _ _
  rw [h]
  apply Reports.ifNot
  · intro hmet
    simp [isNodeKind_iff.mpr hmet]
  · intro hmet
    simp [mt isNodeKind_iff.mp hmet]

theorem checkOperator_reports (operator node : Symbol) :
    Reports (a.checkOperator owner operator node)
      (a.useFaults owner [.operator operator, .node node]) := by
  have hnode : Reports _ (a.useFaults owner _) := checkNode_reports node
  rw [show [Use.operator operator, .node node] = [.operator operator] ++ [.node node] from rfl,
    useFaults_append]
  unfold checkOperator
  cases hop : a.isOperator operator with
  | false => simp [Reports, useFaults, LanguageError.ifNot, ← isOperator_iff, Use.fault, hop]
  | true => simpa [useFaults, LanguageError.ifNot, ← isOperator_iff, hop] using hnode

theorem checkPostfix_reports (op : PostfixRule) :
    Reports (a.checkPostfix owner op) (a.useFaults owner (op.rule.uses ++ [.node op.node])) := by
  rw [useFaults_append]
  exact (checkRule_reports op.rule).bind fun _ _ => checkNode_reports op.node

theorem checkTable_reports (table : ExpressionTable) :
    Reports (a.checkTable owner table)
      (a.useFaults owner (Definition.expression table).uses) := by
  simp only [Definition.uses, useFaults_append, useFaults_flatMap, List.append_assoc]
  refine (checkRule_reports table.operand).bind fun _ _ => ?_
  refine (Reports.forM fun op : PrefixOperator =>
    checkOperator_reports op.operator op.node).bind fun _ _ => ?_
  refine (Reports.forM fun op : InfixOperator =>
    checkOperator_reports op.operator op.node).bind fun _ _ => ?_
  refine Reports.forM fun op => ?_
  rw [← useFaults_append]
  exact checkPostfix_reports op

theorem checkDefinition_reports (info : SymbolInfo) :
    Reports (a.checkDefinition info) (a.useFaults info.name info.definition.uses) := by
  unfold checkDefinition
  cases info.definition with
  | rule r => exact checkRule_reports r
  | expression table => exact checkTable_reports table
  | literal | pattern | endOfInput | derived => rfl

theorem checkTokens_reports (a : Artifact) : Reports a.checkTokens a.tokenFaults := by
  have h := LanguageError.head?_flatMap_ifNot (fun s => isToken_iff (a := a) (s := s))
    (a.extras ++ a.recovery) .invalidToken
  apply Reports.of_head? _ _ h
  · intro hnone
    simp only [checkTokens, hnone]
  · intro s hsome
    simp only [checkTokens, hsome]

end Artifact

namespace Lexer

variable (compile : Regex.Compiler)

theorem addSymbol_reports (lexer : Lexer) (s : Symbol) (info : SymbolInfo) :
    Reports (lexer.addSymbol compile s info) (info.tokenFaults compile) := by
  unfold addSymbol SymbolInfo.tokenFaults
  cases info.definition with
  | literal text =>
    by_cases h : text = ""
    · simp [Reports, LanguageError.ifNot, h]
    · simp [Reports, LanguageError.ifNot, h]
  | pattern written =>
    simp only [anchor]
    cases compile (['^', '(', '?', ':'] ++ written.toList ++ [')']) with
    | none => simp [Reports]
    | some regex =>
      cases h : regex.find [] with
      | none => simp [Reports, LanguageError.ifNot, h]
      | some found => simp [Reports, LanguageError.ifNot, h]
  | endOfInput | rule | expression | derived => rfl

theorem addSymbols_reports (lexer : Lexer) (first : Symbol) (infos : List SymbolInfo) :
    Reports (lexer.addSymbols compile first infos) (infos.flatMap (·.tokenFaults compile)) := by
  induction infos generalizing lexer first with
  | nil => rfl
  | cons info rest ih =>
    exact (lexer.addSymbol_reports compile first info).bind fun _ _ => ih _ _

theorem ofArtifact_reports (a : Artifact) :
    Reports (ofArtifact compile a) (a.symbols.toList.flatMap (·.tokenFaults compile)) :=
  (addSymbols_reports _ _ _ _).map _

end Lexer

theorem Language.ofArtifact_reports (compile : Regex.Compiler) (a : Artifact) (identity : Nat) :
    Reports (ofArtifact compile a identity) (a.faults compile) := by
  simp only [Artifact.faults, List.flatten_cons, List.flatten_nil, List.append_nil]
  refine (Artifact.checkVersion_reports a.version).bind fun _ _ => ?_
  refine a.checkSymbols_reports.bind fun _ _ => ?_
  refine a.findRootRule_reports.bind fun _ _ => ?_
  refine (Reports.forM a.checkDefinition_reports).bind fun _ _ => ?_
  exact a.checkTokens_reports.bind fun _ _ => (Lexer.ofArtifact_reports compile a).map _

/-! ## Artifacts without faults -/

@[simp] theorem LanguageError.ifNot_eq_nil {e : LanguageError} {ok : Prop} [Decidable ok] :
    e.ifNot ok = [] ↔ ok := by
  unfold ifNot
  split <;> simp_all

namespace Rule

mutual

theorem mem_references (s : Symbol) : ∀ r : Rule, s ∈ r.references ↔ r.RefersTo s
  | .symbol s' => by
    rw [references, List.mem_singleton]
    constructor
    · rintro rfl
      exact .symbol
    · intro h
      cases h
      rfl
  | .seq rules => by
    rw [references, mem_references_ofList]
    constructor
    · rintro ⟨r, hr, h⟩
      exact .seq hr h
    · intro h
      cases h with
      | seq hr h => exact ⟨_, hr, h⟩
  | .choice rules => by
    rw [references, mem_references_ofList]
    constructor
    · rintro ⟨r, hr, h⟩
      exact .choice hr h
    · intro h
      cases h with
      | choice hr h => exact ⟨_, hr, h⟩
  | .zeroOrMore r => by
    rw [references, mem_references s r]
    exact ⟨.zeroOrMore, fun h => by cases h; assumption⟩
  | .oneOrMore r => by
    rw [references, mem_references s r]
    exact ⟨.oneOrMore, fun h => by cases h; assumption⟩
  | .optional r => by
    rw [references, mem_references s r]
    exact ⟨.optional, fun h => by cases h; assumption⟩

theorem mem_references_ofList (s : Symbol) :
    ∀ rules : List Rule, s ∈ references.ofList rules ↔ ∃ r ∈ rules, r.RefersTo s
  | [] => by simp [references.ofList]
  | r :: rules => by
    rw [references.ofList, List.mem_append, mem_references s r, mem_references_ofList s rules]
    simp

end

theorem mem_uses {r : Rule} {u : Use} : u ∈ r.uses ↔ ∃ s, r.RefersTo s ∧ .reference s = u := by
  simp [uses, mem_references]

end Rule

theorem Definition.mem_uses {d : Definition} {u : Use} : u ∈ d.uses ↔ d.Uses u := by
  cases d with
  | rule r =>
    rw [uses, Rule.mem_uses]
    constructor
    · rintro ⟨s, h, rfl⟩
      exact .rule h
    · rintro ⟨h⟩
      exact ⟨_, h, rfl⟩
  | expression table =>
    simp only [uses, List.mem_append, Rule.mem_uses, List.mem_flatMap, List.mem_cons,
      List.not_mem_nil, or_false]
    constructor
    · rintro (((⟨s, h, rfl⟩ | ⟨op, hop, rfl | rfl⟩) | ⟨op, hop, rfl | rfl⟩) |
        ⟨op, hop, ⟨s, h, rfl⟩ | rfl⟩)
      · exact .operand h
      · exact .prefixOperator hop
      · exact .prefixNode hop
      · exact .infixOperator hop
      · exact .infixNode hop
      · exact .postfixRule hop h
      · exact .postfixNode hop
    · intro h
      cases h with
      | operand h => exact .inl (.inl (.inl ⟨_, h, rfl⟩))
      | prefixOperator hop => exact .inl (.inl (.inr ⟨_, hop, .inl rfl⟩))
      | prefixNode hop => exact .inl (.inl (.inr ⟨_, hop, .inr rfl⟩))
      | infixOperator hop => exact .inl (.inr ⟨_, hop, .inl rfl⟩)
      | infixNode hop => exact .inl (.inr ⟨_, hop, .inr rfl⟩)
      | postfixRule hop h => exact .inr ⟨_, hop, .inl ⟨_, h, rfl⟩⟩
      | postfixNode hop => exact .inr ⟨_, hop, .inr rfl⟩
  | literal | pattern | endOfInput | derived =>
    simp only [uses, List.not_mem_nil, false_iff]
    intro h
    cases h

namespace Artifact

variable {a : Artifact}

theorem useFaults_eq_nil_iff {owner : String} {uses : List Use} :
    a.useFaults owner uses = [] ↔ ∀ u ∈ uses, u.IsMet a := by
  simp [useFaults]

theorem definitionFaults_eq_nil_iff :
    a.definitionFaults = [] ↔
      ∀ owner ∈ a.symbols, ∀ u, owner.definition.Uses u → u.IsMet a := by
  simp [definitionFaults, useFaults_eq_nil_iff, Definition.mem_uses]

theorem tokenFaults_eq_nil_iff :
    a.tokenFaults = [] ↔ ∀ s, s ∈ a.extras ∨ s ∈ a.recovery → a.Has s (·.IsToken) := by
  simp [tokenFaults, or_imp, forall_and]

theorem rootFaults_eq_nil_iff :
    a.rootFaults = [] ↔ ∃ r, a.Has a.root (·.definition = .rule r) := by
  unfold rootFaults definition? Has
  cases a.symbols[a.root]? with
  | none => simp
  | some info => cases hd : info.definition <;> simp [hd]

theorem repetitions_eq_nil_iff (before infos : List SymbolInfo) :
    SymbolInfo.repetitions before infos = [] ↔
      (infos.map fun e => (e.name, e.named)).Nodup ∧
        ∀ e ∈ infos, (e.name, e.named) ∉ before.map fun e => (e.name, e.named) := by
  induction infos generalizing before with
  | nil => simp [SymbolInfo.repetitions]
  | cons info rest ih =>
    rw [SymbolInfo.repetitions, List.append_eq_nil_iff, LanguageError.ifNot_eq_nil, ih]
    -- the first symbol is before the rest, which is where it must not be repeated
    have hrest : (∀ e ∈ rest, (e.name, e.named) ∉ (info :: before).map fun e => (e.name, e.named)) ↔
        (info.name, info.named) ∉ (rest.map fun e => (e.name, e.named)) ∧
          ∀ e ∈ rest, (e.name, e.named) ∉ before.map fun e => (e.name, e.named) := by
      grind
    rw [hrest, List.map_cons, List.nodup_cons, List.forall_mem_cons]
    constructor
    · rintro ⟨hfresh, hnodup, hnew, hothers⟩
      exact ⟨⟨hnew, hnodup⟩, hfresh, hothers⟩
    · rintro ⟨⟨hnew, hnodup⟩, hfresh, hothers⟩
      exact ⟨hfresh, hnodup, hnew, hothers⟩

theorem tableFaults_eq_nil_iff :
    a.tableFaults = [] ↔
      (1 ≤ a.symbols.size ∧ a.symbols.size ≤ 65535) ∧ a.Has 0 (·.definition = .endOfInput) ∧
        (a.symbols.toList.map fun info => (info.name, info.named)).Nodup := by
  simp only [tableFaults, List.append_eq_nil_iff, LanguageError.ifNot_eq_nil,
    repetitions_eq_nil_iff]
  simp [and_assoc, Nat.succ_le_iff]

end Artifact

theorem SymbolInfo.tokenFaults_eq_nil_iff {compile : Regex.Compiler} {info : SymbolInfo} :
    info.tokenFaults compile = [] ↔
      (∀ text, info.definition = .literal text → text ≠ "") ∧
        ∀ written, info.definition = .pattern written →
          ∃ regex, compile (['^', '(', '?', ':'] ++ written.toList ++ [')']) = some regex ∧
            regex.find [] = none := by
  unfold tokenFaults
  cases hd : info.definition with
  | literal text => simp
  | pattern written =>
    simp only [reduceCtorEq, false_implies, implies_true, true_and, Definition.pattern.injEq,
      forall_eq']
    cases compile (['^', '(', '?', ':'] ++ written.toList ++ [')']) <;> simp
  | endOfInput | rule | expression | derived => simp

/-- An artifact without faults is well-formed. -/
theorem Artifact.faults_eq_nil_iff {compile : Regex.Compiler} {a : Artifact} :
    a.faults compile = [] ↔ a.WellFormed compile := by
  have htokens : a.symbols.toList.flatMap (·.tokenFaults compile) = [] ↔
      ∀ info ∈ a.symbols, info.tokenFaults compile = [] := by simp
  simp only [faults, List.flatten_cons, List.flatten_nil, List.append_nil,
    List.append_eq_nil_iff, LanguageError.ifNot_eq_nil, tableFaults_eq_nil_iff,
    rootFaults_eq_nil_iff, definitionFaults_eq_nil_iff, tokenFaults_eq_nil_iff, htokens,
    SymbolInfo.tokenFaults_eq_nil_iff]
  constructor
  · rintro ⟨hversion, ⟨hsize, hfirst, hnames⟩, hroot, huses, htokens, hlexer⟩
    exact
      { version := hversion
        size := hsize
        first := hfirst
        names := hnames
        root := hroot
        uses := huses
        tokens := htokens
        literals := fun info hinfo => (hlexer info hinfo).1
        patterns := fun info hinfo => (hlexer info hinfo).2 }
  · intro h
    exact ⟨h.version, ⟨h.size, h.first, h.names⟩, h.root, h.uses, h.tokens,
      fun info hinfo => ⟨h.literals info hinfo, h.patterns info hinfo⟩⟩

instance (compile : Regex.Compiler) (a : Artifact) : Decidable (a.WellFormed compile) :=
  decidable_of_iff (a.faults compile = []) Artifact.faults_eq_nil_iff

-- A root and an extra that are both wrong: the root is looked at first.
example : ({ Artifact.sums with root := 4, extras := [5] } : Artifact).faults Pattern.compile =
    [.invalidRoot 4, .invalidToken 5] := by decide

theorem Language.artifact_of_ofArtifact {compile : Regex.Compiler} {a : Artifact} {identity : Nat}
    {l : Language} (h : ofArtifact compile a identity = .ok l) : l.artifact = a := by
  unfold ofArtifact at h
  obtain ⟨_, _, h⟩ := Except.of_bind_eq_ok h
  obtain ⟨_, _, h⟩ := Except.of_bind_eq_ok h
  obtain ⟨_, _, h⟩ := Except.of_bind_eq_ok h
  obtain ⟨_, _, h⟩ := Except.of_bind_eq_ok h
  obtain ⟨_, _, h⟩ := Except.of_bind_eq_ok h
  obtain ⟨_, _, h⟩ := Except.of_bind_eq_ok h
  obtain rfl := Except.ok.inj h
  rfl

theorem Language.Loadable.wellFormed {l : Language} (hl : l.Loadable) :
    ∃ compile, l.artifact.WellFormed compile := by
  obtain ⟨compile, a, identity, h⟩ := hl
  refine ⟨compile, ?_⟩
  rw [Language.artifact_of_ofArtifact h, ← Artifact.faults_eq_nil_iff,
    ← (Language.ofArtifact_reports compile a identity).ok_iff]
  exact ⟨l, h⟩

/-- **An artifact can be loaded exactly if it is well-formed**, whatever compiles its regular
expressions, and of one that is not the first of its faults is reported. -/
theorem Language.ofArtifact_accepts (compile : Regex.Compiler) (a : Artifact) (identity : Nat) :
    ((∃ l, ofArtifact compile a identity = .ok l) ↔ a.WellFormed compile) ∧
      ∀ e, ofArtifact compile a identity = .error e ↔ (a.faults compile).head? = some e :=
  have h := ofArtifact_reports compile a identity
  ⟨h.ok_iff.trans Artifact.faults_eq_nil_iff, h.error_iff⟩

end GrammarKit
