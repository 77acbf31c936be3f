import GrammarKit.Language
import GrammarKit.Pattern.Compile

/-!
# What loading a grammar establishes

A language that can be loaded went through every check of its artifact.  Here the checks are turned
into what they say about the symbols that parsing meets.
-/

namespace GrammarKit

theorem Except.of_bind_eq_ok {ε α β : Type} {x : Except ε α} {f : α → Except ε β} {b : β}
    (h : x >>= f = .ok b) : ∃ a, x = .ok a ∧ f a = .ok b := by
  cases x with
  | error e => cases h
  | ok a => exact ⟨a, rfl, h⟩

theorem Except.of_forM_eq_ok {ε α : Type} {f : α → Except ε Unit} {xs : List α}
    (h : xs.forM f = .ok ()) : ∀ x ∈ xs, f x = .ok () := by
  induction xs with
  | nil => simp
  | cons x xs ih =>
    obtain ⟨_, hx, hxs⟩ := Except.of_bind_eq_ok (x := f x) (f := fun _ => xs.forM f) h
    intro y hy
    cases hy with
    | head => exact hx
    | tail _ hy => exact ih hxs y hy

/-! ## Tokens and nonterminals -/

/-- Whether a rule or an expression table defines a symbol. -/
def Definition.isNonterminal : Definition → Bool
  | .rule _ => true
  | .expression _ => true
  | _ => false

namespace Artifact

variable {a : Artifact} {s : Symbol} {d : Definition}

/-- Whether the symbol is defined by a rule or an expression table. -/
def isNonterminal (a : Artifact) (s : Symbol) : Bool :=
  (a.definition? s).any (·.isNonterminal)

theorem isToken_eq (h : a.definition? s = some d) : a.isToken s = d.isToken := by
  simp only [isToken, h, Option.any_some]

theorem isNonterminal_eq (h : a.definition? s = some d) :
    a.isNonterminal s = d.isNonterminal := by
  simp only [isNonterminal, h, Option.any_some]

-- No symbol is both a token and a nonterminal.
theorem isNonterminal_eq_false_of_isToken (h : a.isToken s = true) :
    a.isNonterminal s = false := by
  unfold isToken at h
  unfold isNonterminal
  cases hd : a.definition? s with
  | none => rfl
  | some d => cases d <;> simp_all [Definition.isToken, Definition.isNonterminal]

end Artifact

theorem Language.definition?_of_symbol? {l : Language} {s : Symbol} {info : SymbolInfo}
    (h : l.symbol? s = some info) : l.artifact.definition? s = some info.definition := by
  unfold Language.symbol? at h
  simp only [Artifact.definition?, h, Option.map_some]

theorem Language.lt_kindCount {l : Language} {s : Symbol} {info : SymbolInfo}
    (h : l.symbol? s = some info) : s < l.kindCount :=
  (Array.getElem?_eq_some_iff.mp h).1

theorem Language.lt_kindCount_of_isToken {l : Language} {s : Symbol}
    (h : l.artifact.isToken s = true) : s < l.kindCount := by
  unfold Artifact.isToken Artifact.definition? at h
  cases hs : l.artifact.symbols[s]? with
  | none => simp [hs] at h
  | some info => exact lt_kindCount hs

theorem Language.lt_kindCount_of_isNodeKind {l : Language} {s : Symbol}
    (h : l.artifact.isNodeKind s = true) : s < l.kindCount := by
  unfold Artifact.isNodeKind at h
  cases hs : l.artifact.symbols[s]? with
  | none => simp [hs] at h
  | some info => exact lt_kindCount hs

/-! ## Expression tables -/

namespace Artifact

variable {a : Artifact}

/-- The operators of a table are tokens, and it builds nodes of kinds that trees may show. -/
structure Admits (a : Artifact) (table : ExpressionTable) : Prop where
  prefixOps : ∀ op ∈ table.prefixOps, a.isToken op.operator = true ∧ a.isNodeKind op.node = true
  infixOps : ∀ op ∈ table.infixOps, a.isToken op.operator = true ∧ a.isNodeKind op.node = true
  postfixOps : ∀ op ∈ table.postfixOps, a.isNodeKind op.node = true

theorem isToken_of_isOperator {s : Symbol} (h : a.isOperator s = true) : a.isToken s = true := by
  unfold isOperator at h
  unfold isToken
  cases hd : a.definition? s with
  | none => simp [hd] at h
  | some d => cases d <;> simp_all [Definition.isToken, Definition.isLiteral]

theorem of_checkOperator {owner : String} {operator node : Symbol}
    (h : a.checkOperator owner operator node = .ok ()) :
    a.isToken operator = true ∧ a.isNodeKind node = true := by
  unfold checkOperator at h
  split at h
  · cases h
  · rename_i hop
    split at h
    · cases h
    · rename_i hnode
      exact ⟨isToken_of_isOperator (by simpa using hop), by simpa using hnode⟩

theorem of_checkPostfix {owner : String} {op : PostfixRule}
    (h : a.checkPostfix owner op = .ok ()) : a.isNodeKind op.node = true := by
  obtain ⟨_, _, h⟩ := Except.of_bind_eq_ok h
  split at h
  · cases h
  · simp_all

theorem admits_of_checkTable {owner : String} {table : ExpressionTable}
    (h : a.checkTable owner table = .ok ()) : a.Admits table := by
  obtain ⟨_, _, h⟩ := Except.of_bind_eq_ok h
  obtain ⟨_, hpre, h⟩ := Except.of_bind_eq_ok h
  obtain ⟨_, hin, hpost⟩ := Except.of_bind_eq_ok h
  constructor
  · intro op hop
    exact of_checkOperator (Except.of_forM_eq_ok hpre op hop)
  · intro op hop
    exact of_checkOperator (Except.of_forM_eq_ok hin op hop)
  · intro op hop
    exact of_checkPostfix (Except.of_forM_eq_ok hpost op hop)

end Artifact

/-! ## The symbols of lexers -/

namespace Lexer

variable {compile : Regex.Compiler}

/-- Every symbol that the lexer can read is a token of the artifact, and its literals are not
empty. -/
structure TokensOf (a : Artifact) (lexer : Lexer) : Prop where
  literals : ∀ t ∈ lexer.literals, a.isToken t.symbol = true ∧ t.text ≠ []
  patterns : ∀ t ∈ lexer.patterns, a.isToken t.symbol = true

theorem TokensOf.addSymbol {a : Artifact} {lexer lexer' : Lexer} {s : Symbol}
    {info : SymbolInfo} (hl : lexer.TokensOf a) (hd : a.definition? s = some info.definition)
    (h : lexer.addSymbol compile s info = .ok lexer') :
    lexer'.TokensOf a ∧ lexer'.extras = lexer.extras := by
  have ht := Artifact.isToken_eq hd
  unfold Lexer.addSymbol at h
  split at h
  · rename_i text hdef
    split at h
    · cases h
    · rename_i hne
      obtain rfl := Except.ok.inj h
      refine ⟨⟨?_, hl.patterns⟩, rfl⟩
      rintro t (_ | ⟨_, hm⟩)
      · exact ⟨by simp [ht, hdef, Definition.isToken], by simpa using hne⟩
      · exact hl.literals t hm
  · rename_i regex hdef
    split at h
    · cases h
    · split at h
      · cases h
      · obtain rfl := Except.ok.inj h
        refine ⟨⟨hl.literals, ?_⟩, rfl⟩
        rintro t (_ | ⟨_, hm⟩)
        · simp [ht, hdef, Definition.isToken]
        · exact hl.patterns t hm
  · obtain rfl := Except.ok.inj h
    exact ⟨hl, rfl⟩

theorem TokensOf.addSymbols {a : Artifact} {lexer lexer' : Lexer} {first : Symbol}
    {infos : List SymbolInfo} (hl : lexer.TokensOf a)
    (hinfos : infos = a.symbols.toList.drop first)
    (h : lexer.addSymbols compile first infos = .ok lexer') :
    lexer'.TokensOf a ∧ lexer'.extras = lexer.extras := by
  induction infos generalizing lexer first with
  | nil =>
    obtain rfl := Except.ok.inj h
    exact ⟨hl, rfl⟩
  | cons info rest ih =>
    obtain ⟨next, hnext, h⟩ := Except.of_bind_eq_ok h
    -- the rest of the table starts with the symbol `first`
    have hd : a.definition? first = some info.definition := by
      have hget : (a.symbols.toList.drop first)[0]? = some info := by simp [← hinfos]
      simp only [List.getElem?_drop, Nat.add_zero, Array.getElem?_toList] at hget
      simp [Artifact.definition?, hget]
    obtain ⟨hl', hx'⟩ := hl.addSymbol hd hnext
    have hrest : rest = a.symbols.toList.drop (first + 1) := by
      rw [← List.drop_drop, ← hinfos, List.drop_one, List.tail_cons]
    obtain ⟨hl'', hx''⟩ := ih hl' hrest h
    exact ⟨hl'', hx''.trans hx'⟩

theorem tokensOf_ofArtifact {a : Artifact} {lexer : Lexer}
    (h : ofArtifact compile a = .ok lexer) : lexer.TokensOf a ∧ lexer.extras = a.extras := by
  obtain ⟨built, hbuilt, h⟩ := Except.of_bind_eq_ok h
  obtain rfl := Except.ok.inj h
  have hempty : TokensOf a ⟨[], [], a.extras⟩ := ⟨by simp, by simp⟩
  obtain ⟨hl, hx⟩ := hempty.addSymbols List.drop_zero.symm hbuilt
  exact ⟨⟨by simpa using hl.literals, by simpa using hl.patterns⟩, hx⟩

end Lexer

/-! ## Loadable languages -/

namespace Language

/-- The language comes out of a grammar artifact that passed every check, with its regular
expressions compiled by `compile`. -/
def LoadedWith (compile : Regex.Compiler) (l : Language) : Prop :=
  ∃ a identity, ofArtifact compile a identity = .ok l

/-- The language comes out of a grammar artifact that passed every check, whatever compiled its
regular expressions. -/
def Loadable (l : Language) : Prop :=
  ∃ compile, l.LoadedWith compile

/-- What the checks were. -/
structure Checked (compile : Regex.Compiler) (l : Language) : Prop where
  symbols : l.artifact.checkSymbols = .ok ()
  root : l.artifact.findRootRule = .ok l.rootRule
  definitions : ∀ info ∈ l.artifact.symbols.toList, l.artifact.checkDefinition info = .ok ()
  tokens : l.artifact.checkTokens = .ok ()
  lexer : Lexer.ofArtifact compile l.artifact = .ok l.lexer

variable {l : Language}

theorem LoadedWith.checked {compile : Regex.Compiler} (h : l.LoadedWith compile) :
    l.Checked compile := by
  obtain ⟨a, identity, h⟩ := h
  unfold ofArtifact at h
  obtain ⟨_, _, h⟩ := Except.of_bind_eq_ok h
  obtain ⟨_, hsymbols, h⟩ := Except.of_bind_eq_ok h
  obtain ⟨rootRule, hroot, h⟩ := Except.of_bind_eq_ok h
  obtain ⟨_, hdefs, h⟩ := Except.of_bind_eq_ok h
  obtain ⟨_, htokens, h⟩ := Except.of_bind_eq_ok h
  obtain ⟨lexer, hlexer, h⟩ := Except.of_bind_eq_ok h
  obtain rfl := Except.ok.inj h
  exact ⟨hsymbols, hroot, Except.of_forM_eq_ok hdefs, htokens, hlexer⟩

namespace Loadable

theorem checked (h : l.Loadable) : ∃ compile, l.Checked compile :=
  h.imp fun _ h => h.checked

-- The symbol of errors is not in the table.
theorem lt_errorSymbol (h : l.Loadable) {s : Symbol} {info : SymbolInfo}
    (hs : l.symbol? s = some info) : s < errorSymbol := by
  -- the table is refused if it is longer than the error symbol
  obtain ⟨_, hchecked⟩ := h.checked
  have hc := hchecked.symbols
  have hlt : s < l.artifact.symbols.size := (Array.getElem?_eq_some_iff.mp hs).1
  unfold Artifact.checkSymbols at hc
  split at hc
  · cases hc
  · split at hc
    · cases hc
    · rename_i hsize
      exact Nat.lt_of_lt_of_le hlt (Nat.not_lt.mp hsize)

theorem ne_errorSymbol (h : l.Loadable) {s : Symbol} {info : SymbolInfo}
    (hs : l.symbol? s = some info) : s ≠ errorSymbol :=
  Nat.ne_of_lt (h.lt_errorSymbol hs)

theorem isToken_errorSymbol (h : l.Loadable) : l.artifact.isToken errorSymbol = false := by
  cases hs : l.symbol? errorSymbol with
  | none =>
    unfold symbol? at hs
    simp [Artifact.isToken, Artifact.definition?, hs]
  | some info => exact absurd rfl (h.ne_errorSymbol hs)

theorem ne_errorSymbol_of_isToken (h : l.Loadable) {s : Symbol}
    (hs : l.artifact.isToken s = true) : s ≠ errorSymbol := by
  rintro rfl
  simp [h.isToken_errorSymbol] at hs

theorem ne_errorSymbol_of_lt (h : l.Loadable) {s : Symbol} (hs : s < l.kindCount) :
    s ≠ errorSymbol :=
  h.ne_errorSymbol (Array.getElem?_eq_getElem hs)

theorem definition?_root (h : l.Loadable) :
    l.artifact.definition? l.artifact.root = some (.rule l.rootRule) := by
  obtain ⟨_, hchecked⟩ := h.checked
  have hr := hchecked.root
  unfold Artifact.findRootRule at hr
  split at hr
  · rename_i rule hd
    rw [hd, Except.ok.inj hr]
  · cases hr

theorem root_ne_errorSymbol (h : l.Loadable) : l.artifact.root ≠ errorSymbol := by
  obtain ⟨info, hs, -⟩ := Option.map_eq_some_iff.mp h.definition?_root
  exact h.ne_errorSymbol hs

theorem isToken_root (h : l.Loadable) : l.artifact.isToken l.artifact.root = false := by
  rw [Artifact.isToken_eq h.definition?_root]
  rfl

theorem admits (h : l.Loadable) {s : Symbol} {info : SymbolInfo} {table : ExpressionTable}
    (hs : l.symbol? s = some info) (hd : info.definition = .expression table) :
    l.artifact.Admits table := by
  obtain ⟨_, hchecked⟩ := h.checked
  have hc := hchecked.definitions info (Array.mem_toList_iff.mpr (Array.mem_of_getElem? hs))
  simp only [Artifact.checkDefinition, hd] at hc
  exact Artifact.admits_of_checkTable hc

theorem tokensOf (h : l.Loadable) : l.lexer.TokensOf l.artifact :=
  have ⟨_, hchecked⟩ := h.checked
  (Lexer.tokensOf_ofArtifact hchecked.lexer).1

theorem extras_eq (h : l.Loadable) : l.lexer.extras = l.artifact.extras :=
  have ⟨_, hchecked⟩ := h.checked
  (Lexer.tokensOf_ofArtifact hchecked.lexer).2

end Loadable

end Language

/-! ## A small language -/

/-- Sums of numbers, each ended by a semicolon, with comments anywhere. -/
def Artifact.sums : Artifact :=
  { version := 1
    name := "sums"
    symbols :=
      #[.endOfInput, .literal "+", .literal ";", .pattern "number" "[0-9]+",
        .pattern "comment" "#[a-z]*", .rule "file" (.zeroOrMore (.symbol 6)),
        .rule "statement" (.seq [.symbol 7, .symbol 2]),
        .expression "_expression"
          { operand := .symbol 3, prefixOps := [], infixOps := [⟨1, 1, .left, 8⟩]
            postfixOps := [] },
        .derived "sum"]
    root := 5
    extras := [4]
    recovery := [2] }

/-- The language of the sums. -/
def Language.sums : Language :=
  (ofArtifact Pattern.compile .sums 0).toOption.get rfl

theorem Language.sums_loadable : Language.sums.Loadable :=
  ⟨Pattern.compile, .sums, 0, rfl⟩

end GrammarKit
