import GrammarKit.Proofs.Completion
import GrammarKit.Proofs.Kinds
import GrammarKit.Proofs.WellFormed

/-!
# Nothing goes astray

The checks of an artifact are all that parsing needs: whatever an engine asks for is there.  What a
loadable language refers to can be parsed, so an engine that starts with the rule of the root meets
only tokens and nonterminals, and the nodes that it builds have kinds of the table.
-/

namespace GrammarKit

/-! ## What an engine meets -/

/-- Everything that the phrase refers to can be parsed. -/
def Phrase.Grounded (a : Artifact) : Phrase → Prop
  | .rule r => ∀ s ∈ r.references, a.isParseable s = true
  | .nonterminal s _ => a.isNonterminal s = true
  | .expression s table _ | .operand s table | .extension s table _ _ =>
    a.isNonterminal s = true ∧ (∀ s ∈ table.operand.references, a.isParseable s = true) ∧
      ∀ op ∈ table.postfixOps, ∀ s ∈ op.rule.references, a.isParseable s = true
  | .application _ ops _ => ∀ op ∈ ops, ∀ s ∈ op.rule.references, a.isParseable s = true

namespace Phrase

variable {a : Artifact} {r : Rule} {rs : List Rule}

@[simp] theorem grounded_seq :
    (rule (.seq rs)).Grounded a ↔ ∀ r ∈ rs, (rule r).Grounded a := by
  induction rs with
  | nil => simp [Grounded, Rule.references, Rule.references.ofList]
  | cons r rs ih =>
    simp only [Grounded, Rule.references, Rule.references.ofList, List.mem_append, or_imp,
      forall_and, List.forall_mem_cons] at ih ⊢
    rw [ih]

@[simp] theorem grounded_choice :
    (rule (.choice rs)).Grounded a ↔ ∀ r ∈ rs, (rule r).Grounded a :=
  grounded_seq

@[simp] theorem grounded_zeroOrMore : (rule (.zeroOrMore r)).Grounded a ↔ (rule r).Grounded a :=
  Iff.rfl

@[simp] theorem grounded_oneOrMore : (rule (.oneOrMore r)).Grounded a ↔ (rule r).Grounded a :=
  Iff.rfl

@[simp] theorem grounded_optional : (rule (.optional r)).Grounded a ↔ (rule r).Grounded a :=
  Iff.rfl

end Phrase

variable {l : Language} {input : Input} {limit : Nat} {p q : Nat} {m m' : Machine}
  {ts : List Subtree}

theorem Artifact.isParseable_eq (a : Artifact) (s : Symbol) :
    a.isParseable s = (a.isToken s || a.isNonterminal s) := by
  unfold isParseable isToken isNonterminal
  cases a.definition? s with
  | none => rfl
  | some d => cases d <;> rfl

-- What a definition of the table refers to can be parsed.
theorem Language.Loadable.isParseable_of_uses (hl : l.Loadable) {s s' : Symbol} {info : SymbolInfo}
    (hs : l.symbol? s = some info) (h : info.definition.Uses (.reference s')) :
    l.artifact.isParseable s' = true :=
  have ⟨_, hwell⟩ := hl.wellFormed
  Artifact.isParseable_iff.mpr (hwell.uses info (Array.mem_of_getElem? hs) _ h)

theorem Language.Loadable.grounded_rule (hl : l.Loadable) {s : Symbol} {info : SymbolInfo}
    {r : Rule} (hs : l.symbol? s = some info) (hd : info.definition = .rule r) :
    (Phrase.rule r).Grounded l.artifact := by
  intro s' hs'
  apply hl.isParseable_of_uses hs
  rw [hd]
  exact .rule ((Rule.mem_references s' r).mp hs')

theorem Language.Loadable.grounded_expression (hl : l.Loadable) {s : Symbol} {info : SymbolInfo}
    {table : ExpressionTable} (hs : l.symbol? s = some info)
    (hd : info.definition = .expression table) (floor : Precedence) :
    (Phrase.expression s table floor).Grounded l.artifact := by
  refine ⟨?_, fun s' hs' => ?_, fun op hop s' hs' => ?_⟩
  · rw [Artifact.isNonterminal_eq (Language.definition?_of_symbol? hs), hd]
    rfl
  · apply hl.isParseable_of_uses hs
    rw [hd]
    exact .operand ((Rule.mem_references s' _).mp hs')
  · apply hl.isParseable_of_uses hs
    rw [hd]
    exact .postfixRule hop ((Rule.mem_references s' _).mp hs')

-- A nonterminal is in the table, and its definition can be evaluated.
theorem Artifact.exists_symbol?_of_isNonterminal {s : Symbol}
    (h : l.artifact.isNonterminal s = true) :
    ∃ info, l.symbol? s = some info ∧ info.definition.isNonterminal = true :=
  Artifact.any_definition?_iff.mp h

/-- An engine that works on what a loadable language refers to never asks for what is not there. -/
theorem Executes.astray_eq (hl : l.Loadable) {phrase : Phrase} {o : Phrase.Outcome}
    (h : Executes l input limit phrase p m o m') (hg : phrase.Grounded l.artifact) :
    m'.astray = m.astray := by
  induction h with
  | unparseable ht hn =>
    have := hg _ List.mem_cons_self
    rw [Artifact.isParseable_eq, ht, hn] at this
    cases this
  | unknown _ _ hs =>
    obtain ⟨info, hs', -⟩ := Artifact.exists_symbol?_of_isNonterminal hg
    rw [hs] at hs'
    cases hs'
  | undefined _ _ hs hd =>
    obtain ⟨info, hs', hd'⟩ := Artifact.exists_symbol?_of_isNonterminal hg
    obtain rfl := Option.some.inj (hs.symm.trans hs')
    rw [hd] at hd'
    cases hd'
  | ruleSymbol _ _ hs hd _ ih => exact ih (hl.grounded_rule hs hd)
  | expressionSymbol _ _ hs hd _ ih => exact ih (hl.grounded_expression hs hd _)
  | token | seqNil | choiceNil | remembered | refused | applyNone => rfl
  | call hs _ ih => exact ih hs
  | seqCons _ _ ih₁ ih₂ =>
    have hg := List.forall_mem_cons.mp (Phrase.grounded_seq.mp hg)
    exact (ih₂ (Phrase.grounded_seq.mpr hg.2)).trans (ih₁ hg.1)
  | seqFail _ ih => exact ih (Phrase.grounded_seq.mp hg _ List.mem_cons_self)
  | choiceFirst _ ih => exact ih (Phrase.grounded_choice.mp hg _ List.mem_cons_self)
  | choiceLater _ _ ih₁ ih₂ =>
    have hg := List.forall_mem_cons.mp (Phrase.grounded_choice.mp hg)
    exact (ih₂ (Phrase.grounded_choice.mpr hg.2)).trans (ih₁ hg.1)
  | repeatMore _ _ _ ih₁ ih₂ => exact (ih₂ hg).trans (ih₁ hg)
  | repeatEnd _ _ ih => exact ih hg
  | oneOrMore _ ih => exact ih (by simpa using hg)
  | optional _ ih => exact ih (by simpa using hg)
  | noOperand _ ih => exact ih hg
  | expression _ _ ih₁ ih₂ => exact (ih₂ hg).trans (ih₁ hg)
  | prefixed _ _ _ ih => exact ih hg.1
  | operand _ _ ih => exact ih hg.2.1
  | applyWeak _ _ ih => exact ih (List.forall_mem_cons.mp hg).2
  | apply _ _ _ ih => exact ih (List.forall_mem_cons.mp hg).1
  | applyLater _ _ _ _ ih₁ ih₂ =>
    have hg := List.forall_mem_cons.mp hg
    exact (ih₂ hg.2).trans (ih₁ hg.1)
  | applied _ _ ih₁ ih₂ => exact (ih₂ hg).trans (ih₁ hg.2.2)
  | joined _ _ _ _ _ ih₁ ih₂ ih₃ => exact (ih₃ hg).trans ((ih₂ hg.1).trans (ih₁ hg.2.2))
  | noRight _ _ _ _ ih₁ ih₂ => exact (ih₂ hg.1).trans (ih₁ hg.2.2)
  | noOperator _ _ ih => exact ih hg.2.2

/-! ## The loops of a parse -/

theorem Phrase.grounded_resumption {a : Artifact} {r : Rule} (h : (rule r).Grounded a) :
    (rule r.resumption).Grounded a := by
  cases r <;> exact h

theorem Language.Loadable.grounded_rootRule (hl : l.Loadable) :
    (Phrase.rule l.rootRule).Grounded l.artifact := by
  obtain ⟨info, hs, hd⟩ := Option.map_eq_some_iff.mp hl.definition?_root
  exact hl.grounded_rule hs hd

theorem Resumes.astray_eq (hl : l.Loadable) {resumed : Bool}
    (h : Resumes l input limit p m resumed m') : m'.astray = m.astray := by
  cases h with
  | outside => rfl
  | probe _ hx =>
    have := hx.astray_eq hl (Phrase.grounded_resumption hl.grounded_rootRule)
    simp [Machine.beside, this]

theorem SkipsOver.astray_eq (hl : l.Loadable) (h : SkipsOver l input limit p m ts q m') :
    m'.astray = m.astray := by
  induction h with
  | atEnd | recovery => rfl
  | resumed _ _ hr => exact hr.astray_eq hl
  | more _ _ hr _ ih => exact ih.trans (hr.astray_eq hl)

-- The first and the last of the tokens that are skipped are there.
theorem Recovers.astray_eq (hl : l.Loadable) {error : Subtree}
    (h : Recovers l input limit p m error q m') (hp : p < input.size) : m'.astray = m.astray := by
  cases h with
  | error hs =>
    have hq := hs.bounds hp
    have hlast : q - 1 < input.size := by omega
    simp only [Machine.lookAt, if_pos hp, if_pos hlast]
    exact hs.astray_eq hl

theorem Parses.astray_eq (hl : l.Loadable) (h : Parses l input limit p m ts q m') :
    m'.astray = m.astray := by
  induction h with
  | done hx => exact hx.astray_eq hl hl.grounded_rootRule
  | again hx hq hr _ ih =>
    have hfirst := hx.astray_eq hl hl.grounded_rootRule
    exact ih.trans ((hr.astray_eq hl hq).trans hfirst)

theorem ParsesRoot.astray_eq_false (hl : l.Loadable) {tree : Subtree}
    (h : ParsesRoot l input limit tree q m) : m.astray = false := by
  cases h with
  | root _ hs => exact hs.astray_eq hl

/-! ## The kinds of nodes -/

/-- Trees can have nodes of the kind. -/
def Language.HasKind (l : Language) (s : Symbol) : Prop :=
  s = errorSymbol ∨ s < l.kindCount

theorem Language.HasKind.exists_kindName? {s : Symbol} (h : l.HasKind s) :
    ∃ name, l.kindName? s = some name := by
  unfold kindName?
  split
  · exact ⟨errorKind, rfl⟩
  · rename_i hs
    obtain hs' | hlt := h
    · exact absurd hs' hs
    · exact ⟨_, by rw [symbol?, Array.getElem?_eq_getElem hlt, Option.map_some]⟩

/-- Every tree within the tree has a kind of the language. -/
def Subtree.Known (l : Language) (t : Subtree) : Prop :=
  ∀ s : Subtree, s.Within t → l.HasKind s.symbol

theorem Language.allows_hasKind (l : Language) : l.Allows l.HasKind where
  error := .inl rfl
  token _ hs := .inr (lt_kindCount_of_isToken hs)
  visible _ hs _ := .inr hs

theorem Language.Loadable.textTree_known (hl : l.Loadable) (depth : Nat) (text : String) :
    (l.textTree depth text).Known l := by
  obtain ⟨info, hs, -⟩ := Option.map_eq_some_iff.mp hl.definition?_root
  refine Subtree.every_iff.mpr ⟨.inr ?_, hl.textTree_every l.allows_hasKind depth text⟩
  rw [hl.symbol_textTree]
  exact Language.lt_kindCount hs

/-! ## Positions -/

/-- The point is where the byte is: in the last of the rows that start no later, with the bytes that
are left in it.  Nothing is taken from less than it. -/
structure Tree.Locates (tree : Tree) (byte : Nat) (point : Text.Point) : Prop where
  row : point.row + 1 = (tree.lineStarts.takeWhile (· ≤ byte)).length
  column : ∃ start, tree.lineStarts[point.row]? = some start ∧ start + point.column = byte

theorem Tree.locates_point (l : Language) (t : Subtree) (text : List Char) (byte : Nat) :
    (Tree.ofSubtree l t text).Locates byte ((Tree.ofSubtree l t text).point byte) := by
  -- there is a last row, since the first starts at byte 0
  obtain ⟨init, last, hreached⟩ : ∃ init last,
      (Text.lineStarts text).takeWhile (· ≤ byte) = init ++ [last] := by
    refine ⟨_, _, (List.dropLast_append_getLast ?_).symm⟩
    simp [Text.lineStarts]
  have hlast : last ≤ byte := by
    have hall := List.all_takeWhile (p := fun start => decide (start ≤ byte))
      (l := Text.lineStarts text)
    rw [hreached] at hall
    exact of_decide_eq_true (List.all_eq_true.mp hall last (by simp))
  have hpoint : (Tree.ofSubtree l t text).point byte = ⟨init.length, byte - last⟩ := by
    show Text.pointAt (Text.lineStarts text) byte = _
    simp [Text.pointAt, hreached]
  have hstart : (Text.lineStarts text)[init.length]? = some last := by
    obtain ⟨rest, hrest⟩ : init ++ [last] <+: Text.lineStarts text :=
      hreached ▸ List.takeWhile_prefix _
    simp [← hrest]
  rw [hpoint]
  refine ⟨?_, last, hstart, by simp only; omega⟩
  show init.length + 1 = ((Text.lineStarts text).takeWhile (· ≤ byte)).length
  simp [hreached]

/-! ## Safety -/

/-- Every node has a kind with a name, and the points of its ends are where its bytes are. -/
structure Tree.Sound (tree : Tree) : Prop where
  hasKind : ∀ n : Node tree, tree.language.HasKind n.symbol
  kindName?_eq : ∀ n : Node tree, tree.language.kindName? n.symbol = some n.kind
  startPoint : ∀ n : Node tree, tree.Locates n.start n.startPoint
  stopPoint : ∀ n : Node tree, tree.Locates n.stop n.stopPoint

theorem Language.Loadable.tree_sound {l : Language} (hl : l.Loadable) (depth : Nat)
    (text : String) : (l.parse depth text).tree.Sound := by
  rw [Language.parse_tree]
  have hkind (n : Node (Tree.ofSubtree l (l.textTree depth text) text.toList)) :
      l.HasKind n.symbol := by
    rw [n.symbol_eq]
    exact hl.textTree_known depth text _ n.subtree_within
  refine ⟨hkind, fun n => ?_, fun n => Tree.locates_point _ _ _ _,
    fun n => Tree.locates_point _ _ _ _⟩
  obtain ⟨name, hname⟩ := (hkind n).exists_kindName?
  have hkindName : n.kind = (l.kindName? n.symbol).getD "" := rfl
  rw [hkindName]
  show l.kindName? n.symbol = _
  rw [hname, Option.getD_some]

/-- **The checks of an artifact are enough.**  With a loadable language there is a rule at the root,
and an engine does exactly one thing with a text: it never asks for a symbol or a token that is not
there, and never tries to match a symbol that nothing can match.  The nodes of the tree have kinds
of the language, and their ends are where the text has them. -/
theorem Parser.parse_safe {l : Language} (hl : l.Loadable) (parser : Parser)
    (hparser : parser.language = some l) (text : String) :
    l.artifact.definition? l.artifact.root = some (.rule l.rootRule) ∧
      (∃ m, l.Ends (l.inputOf text) parser.maxDepth (l.ruleTree parser.maxDepth text) m ∧
        m.astray = false) ∧
      ∃ result, parser.parse text = some result ∧ result.tree.language = l ∧
        result.tree.Sound := by
  refine ⟨hl.definition?_root, ?_, ?_⟩
  · obtain ⟨tree, m, hends⟩ := hl.exists_ends (l.inputOf text) parser.maxDepth
    obtain rfl : l.ruleTree parser.maxDepth text = tree := congrArg (·.1) hends.parseRoot_eq
    have hroot := (hends.parsesRoot_iff _ _ _).mpr ⟨rfl, rfl, rfl⟩
    exact ⟨m, hends, hroot.astray_eq_false hl⟩
  · exact ⟨l.parse parser.maxDepth text, by simp [Parser.parse, hparser], rfl,
      hl.tree_sound parser.maxDepth text⟩

theorem Parser.parse_safe_sums :
    Language.sums.Loadable ∧
      Language.sums.artifact.definition? Language.sums.artifact.root =
        some (.rule Language.sums.rootRule) ∧
      (∃ m, Language.sums.Ends (Language.sums.inputOf "1+;") 8
        (Language.sums.ruleTree 8 "1+;") m ∧ m.astray = false) ∧
      ∃ result, ({ language := some .sums, maxDepth := 8 } : Parser).parse "1+;" = some result ∧
        result.tree.language = .sums ∧ result.tree.Sound :=
  ⟨Language.sums_loadable,
    parse_safe Language.sums_loadable { language := some .sums, maxDepth := 8 } rfl "1+;"⟩

end GrammarKit
