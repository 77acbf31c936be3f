import GrammarKit.Proofs.Safety

/-!
# Kinds and their names

A kind is found under its name and namedness, and what is found under them is that kind.  The one
exception is a named symbol of the table that is called as errors are: under its name errors are
found.
-/

namespace GrammarKit

/-! ## Symbols of a table -/

/-- No two symbols of a table share a name and whether they are named. -/
theorem Artifact.WellFormed.symbol_unique {compile : Regex.Compiler} {a : Artifact}
    (h : a.WellFormed compile) {s s' : Symbol}
    {info info' : SymbolInfo} (hs : a.symbols[s]? = some info) (hs' : a.symbols[s']? = some info')
    (hname : info.name = info'.name) (hnamed : info.named = info'.named) : s = s' := by
  have hlt : s < (a.symbols.toList.map fun info => (info.name, info.named)).length := by
    rw [List.length_map, Array.length_toList]
    exact (Array.getElem?_eq_some_iff.mp hs).1
  apply (List.getElem?_inj hlt h.names).mp
  simp [hs, hs', hname, hnamed]

namespace Language

variable {l : Language} {s : Symbol} {name : String} {named : Bool} {info : SymbolInfo}

/-- A named symbol of the table that is called as errors are. -/
def IsNamesake (l : Language) (s : Symbol) : Prop :=
  ∃ info, l.symbol? s = some info ∧ info.named = true ∧ info.name = errorKind

theorem kindName?_errorSymbol (l : Language) : l.kindName? errorSymbol = some errorKind :=
  if_pos rfl

theorem isNamed_errorSymbol (l : Language) : l.isNamed errorSymbol = true :=
  rfl

theorem kindOfName?_errorKind (l : Language) : l.kindOfName? errorKind true = some errorSymbol :=
  rfl

/-- A kind is an error or a symbol of the table. -/
theorem exists_symbol?_of_kindName? (h : l.kindName? s = some name) (hs : s ≠ errorSymbol) :
    ∃ info, l.symbol? s = some info ∧ info.name = name := by
  rw [kindName?, if_neg hs] at h
  exact Option.map_eq_some_iff.mp h

theorem sums_not_isNamesake (s : Symbol) : ¬ Language.sums.IsNamesake s := by
  rintro ⟨info, hs, -, hname⟩
  have hall : ∀ info ∈ Language.sums.artifact.symbols.toList, info.name ≠ errorKind := by decide
  exact hall info (Array.mem_toList_iff.mpr (Array.mem_of_getElem? hs)) hname

namespace Loadable

theorem kindName?_of_symbol? (hl : l.Loadable) (hs : l.symbol? s = some info) :
    l.kindName? s = some info.name := by
  rw [kindName?, if_neg (hl.ne_errorSymbol hs), hs]
  rfl

theorem isNamed_of_symbol? (hl : l.Loadable) (hs : l.symbol? s = some info) :
    l.isNamed s = info.named := by
  rw [isNamed, beq_false_of_ne (hl.ne_errorSymbol hs), hs]
  rfl

theorem not_isNamesake_errorSymbol (hl : l.Loadable) : ¬ l.IsNamesake errorSymbol := by
  rintro ⟨info, hs, -⟩
  exact hl.ne_errorSymbol hs rfl

-- Names are looked up in the table unless errors are asked for.
theorem kindOfName?_eq_some (hl : l.Loadable) (hname : ¬ (named = true ∧ name = errorKind)) :
    l.kindOfName? name named = some s ↔
      ∃ info, l.symbol? s = some info ∧ info.name = name ∧ info.named = named := by
  have hother : (named && name == errorKind) = false := by
    rw [← Bool.not_eq_true, Bool.and_eq_true, beq_iff_eq]
    exact hname
  rw [kindOfName?, hother, if_neg Bool.false_ne_true, Array.findIdx?_eq_some_iff_getElem]
  constructor
  · rintro ⟨hlt, hfound, -⟩
    rw [Bool.and_eq_true, beq_iff_eq, beq_iff_eq] at hfound
    exact ⟨_, Array.getElem?_eq_getElem hlt, hfound⟩
  · rintro ⟨info, hs, rfl, rfl⟩
    obtain ⟨compile, hwell⟩ := hl.wellFormed
    obtain ⟨hlt, hinfo⟩ := Array.getElem?_eq_some_iff.mp hs
    refine ⟨hlt, by rw [hinfo]; simp, fun i hi hfound => ?_⟩
    rw [Bool.and_eq_true, beq_iff_eq, beq_iff_eq] at hfound
    have hat : l.artifact.symbols[i]? = some _ := Array.getElem?_eq_getElem (Nat.lt_trans hi hlt)
    exact Nat.ne_of_lt hi (hwell.symbol_unique hat hs hfound.1 hfound.2)

/-- What is found under a name is the kind that has it and is no namesake of errors. -/
theorem kindOfName?_eq_some_iff (hl : l.Loadable) :
    l.kindOfName? name named = some s ↔
      l.kindName? s = some name ∧ l.isNamed s = named ∧ ¬ l.IsNamesake s := by
  by_cases hname : named = true ∧ name = errorKind
  · obtain ⟨rfl, rfl⟩ := hname
    rw [kindOfName?_errorKind]
    constructor
    · rintro ⟨⟩
      exact ⟨l.kindName?_errorSymbol, l.isNamed_errorSymbol, hl.not_isNamesake_errorSymbol⟩
    · rintro ⟨hkind, hnamed, hnot⟩
      by_contra hne
      obtain ⟨info, hs, hname⟩ := exists_symbol?_of_kindName? hkind fun h => hne (h ▸ rfl)
      rw [hl.isNamed_of_symbol? hs] at hnamed
      exact hnot ⟨info, hs, hnamed, hname⟩
  · rw [hl.kindOfName?_eq_some hname]
    constructor
    · rintro ⟨info, hs, rfl, rfl⟩
      refine ⟨hl.kindName?_of_symbol? hs, hl.isNamed_of_symbol? hs, ?_⟩
      rintro ⟨info', hs', hnamed', hname'⟩
      obtain rfl := Option.some.inj (hs.symm.trans hs')
      exact hname ⟨hnamed', hname'⟩
    · rintro ⟨hkind, hnamed, -⟩
      have hne : s ≠ errorSymbol := by
        rintro rfl
        exact hname ⟨hnamed.symm, Option.some.inj (hkind.symm.trans l.kindName?_errorSymbol)⟩
      obtain ⟨info, hs, rfl⟩ := exists_symbol?_of_kindName? hkind hne
      exact ⟨info, hs, rfl, (hl.isNamed_of_symbol? hs).symm.trans hnamed⟩

/-! ## Nodes of errors -/

theorem isError_iff (hl : l.Loadable) {tree : Tree} (htree : tree.language = l) (n : Node tree) :
    n.isError = true ↔
      n.kind = errorKind ∧ n.isNamed = true ∧ ¬ l.IsNamesake n.symbol := by
  have hkind : n.kind = (l.kindName? n.symbol).getD "" := htree ▸ rfl
  have hnamed : n.isNamed = l.isNamed n.symbol := htree ▸ rfl
  show (n.symbol == errorSymbol) = true ↔ _
  rw [beq_iff_eq, hkind, hnamed]
  constructor
  · intro h
    rw [h, l.kindName?_errorSymbol]
    exact ⟨rfl, l.isNamed_errorSymbol, hl.not_isNamesake_errorSymbol⟩
  · rintro ⟨hkind, hnamed, hnot⟩
    cases hfound : l.kindName? n.symbol with
    | none =>
      rw [hfound] at hkind
      exact absurd hkind (by decide)
    | some name =>
      rw [hfound] at hkind
      obtain rfl : name = errorKind := hkind
      have := hl.kindOfName?_eq_some_iff.mpr ⟨hfound, hnamed, hnot⟩
      exact (Option.some.inj this).symm

/-- **Kinds and names correspond to each other**, but for named symbols of the table that are called
as errors are: every other kind is what is found under its name, and whatever is found has the name.
An error node is one whose kind has the name of errors, such symbols left out. -/
theorem kindOfName?_inverse (hl : l.Loadable) :
    (∀ s, l.HasKind s → ∃ name, l.kindName? s = some name ∧
      (l.kindOfName? name (l.isNamed s) = some s ↔ ¬ l.IsNamesake s)) ∧
    (∀ name named s, l.kindOfName? name named = some s →
      l.kindName? s = some name ∧ l.isNamed s = named) ∧
    ∀ tree : Tree, tree.language = l → ∀ n : Node tree,
      n.isError = true ↔ n.kind = errorKind ∧ n.isNamed = true ∧ ¬ l.IsNamesake n.symbol := by
  refine ⟨fun s hs => ?_, fun name named s h => ?_, fun tree htree n => hl.isError_iff htree n⟩
  · obtain ⟨name, hname⟩ := hs.exists_kindName?
    refine ⟨name, hname, ?_⟩
    rw [hl.kindOfName?_eq_some_iff]
    simp [hname]
  · obtain ⟨hkind, hnamed, -⟩ := hl.kindOfName?_eq_some_iff.mp h
    exact ⟨hkind, hnamed⟩

theorem kindOfName?_inverse_sums :
    Language.sums.Loadable ∧ (∀ s, Language.sums.HasKind s → ∃ name,
      Language.sums.kindName? s = some name ∧
        Language.sums.kindOfName? name (Language.sums.isNamed s) = some s) ∧
      ∀ n : Node (Language.sums.parse 8 "1+#a 2;@+3").tree,
        n.isError = true ↔ n.kind = errorKind ∧ n.isNamed = true := by
  obtain ⟨hfound, -, herror⟩ := kindOfName?_inverse Language.sums_loadable
  refine ⟨Language.sums_loadable, fun s hs => ?_, fun n => ?_⟩
  · obtain ⟨name, hname, hiff⟩ := hfound s hs
    exact ⟨name, hname, hiff.mpr (sums_not_isNamesake s)⟩
  · rw [herror _ rfl n]
    simp [sums_not_isNamesake]

end Loadable

end Language

/-- A token that is called as errors are, and a rule for it. -/
def Artifact.namesake : Artifact :=
  { version := 1
    name := "namesake"
    symbols := #[.endOfInput, .pattern "ERROR" "a", .rule "r" (.symbol 1)]
    root := 2
    extras := []
    recovery := [] }

/-- The language of the token that is called as errors are. -/
def Language.namesake : Language :=
  (ofArtifact Pattern.compile .namesake 0).toOption.get rfl

-- Under the name of the token errors are found, and its node is none of them.
theorem Language.exists_kind_not_found :
    Language.namesake.Loadable ∧ Language.namesake.HasKind 1 ∧
      Language.namesake.kindName? 1 = some "ERROR" ∧ Language.namesake.isNamed 1 = true ∧
      Language.namesake.kindOfName? "ERROR" true = some errorSymbol ∧ errorSymbol ≠ 1 ∧
      ∃ n : Node (Language.namesake.parse defaultMaxDepth "a").tree,
        n.kind = "ERROR" ∧ n.isNamed = true ∧ n.isError = false :=
  ⟨⟨Pattern.compile, .namesake, 0, rfl⟩, .inr (by decide), by decide, by decide, by decide,
    by decide, ⟨⟨1, by decide⟩⟩, by decide, by decide, by decide⟩

end GrammarKit
