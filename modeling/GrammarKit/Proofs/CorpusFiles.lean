import GrammarKit.Corpus
import GrammarKit.Proofs.Lines

/-!
# Corpus files as they are written

Cases that are written down one below the other are read back as they are, each with the number of
the line that opens it.  The reader leaves open how long the rules are, how many blank lines there
are and how an expected tree is laid out.
-/

namespace GrammarKit

/-! ## Rules -/

/-- The line is made of three or more marks, and there may be white space behind them. -/
def IsRuleLine (mark : Char) (line : List Char) : Prop :=
  ∃ n blank, 3 ≤ n ∧ Text.isBlankLine blank = true ∧ line = List.replicate n mark ++ blank

namespace CorpusCase

variable {mark : Char} {line line' : List Char}

theorem isRule_congr (h : Text.trimEnd line = Text.trimEnd line') :
    isRule mark line = isRule mark line' := by
  unfold isRule
  rw [h]

theorem isRule_dropCarriageReturn (mark : Char) (line : List Char) :
    isRule mark (Text.dropCarriageReturn line) = isRule mark line :=
  isRule_congr (Text.trimEnd_dropCarriageReturn line)

theorem isRule_eq_true_iff :
    isRule mark line = true ↔ ∃ n, 3 ≤ n ∧ Text.trimEnd line = List.replicate n mark := by
  rw [isRule, Bool.and_eq_true, decide_eq_true_eq, List.all_eq_true]
  constructor
  · intro ⟨hlength, hmarks⟩
    exact ⟨_, hlength, List.eq_replicate_length.mpr fun c hc => eq_of_beq (hmarks c hc)⟩
  · intro ⟨n, hn, heq⟩
    rw [heq, List.length_replicate]
    refine ⟨hn, fun c hc => ?_⟩
    rw [List.eq_of_mem_replicate hc]
    exact beq_self_eq_true mark

theorem trimEnd_replicate (h : Text.isBlank mark = false) (n : Nat) :
    Text.trimEnd (List.replicate n mark) = List.replicate n mark := by
  refine List.rdropWhile_eq_self_iff.mpr fun hne => ?_
  rw [List.eq_of_mem_replicate (List.getLast_mem hne), h]
  exact Bool.false_ne_true

/-- What is taken for a rule is one. -/
theorem isRule_iff (h : Text.isBlank mark = false) :
    isRule mark line = true ↔ IsRuleLine mark line := by
  rw [isRule_eq_true_iff]
  constructor
  · intro ⟨n, hn, heq⟩
    obtain ⟨blank, hblank, hline⟩ := Text.exists_trimEnd_append line
    exact ⟨n, blank, hn, hblank, by rw [← hline, heq]⟩
  · intro ⟨n, blank, hn, hblank, heq⟩
    exact ⟨n, hn, by rw [heq, Text.trimEnd_append hblank, trimEnd_replicate h]⟩

theorem isRule_eq_false_iff (h : Text.isBlank mark = false) :
    isRule mark line = false ↔ ¬ IsRuleLine mark line := by
  rw [← isRule_iff h, Bool.not_eq_true]

theorem isRule_of_isRuleLine (h : Text.isBlank mark = false) (hline : IsRuleLine mark line) :
    isRule mark (Text.dropCarriageReturn line) = true := by
  rw [isRule_dropCarriageReturn, isRule_iff h]
  exact hline

-- A line has marks of one kind only.
theorem isRule_eq_false_of_isRule {mark' : Char} (hne : mark ≠ mark')
    (h : isRule mark line = true) : isRule mark' line = false := by
  obtain ⟨n, hn, heq⟩ := isRule_eq_true_iff.mp h
  refine Bool.eq_false_iff.mpr fun h' => ?_
  obtain ⟨n', hn', heq'⟩ := isRule_eq_true_iff.mp h'
  have hmem : mark ∈ List.replicate n' mark' := by
    rw [← heq', heq]
    exact List.mem_replicate.mpr ⟨by omega, rfl⟩
  exact hne (List.eq_of_mem_replicate hmem)

theorem isRule_eq_false_of_isBlankLine (h : Text.isBlankLine line = true) :
    isRule mark line = false := by
  rw [Text.isBlankLine_eq, List.isEmpty_iff] at h
  rw [isRule, h]
  rfl

/-! ## The way in which cases are written -/

/-- The first and the last of the lines, if there are any, are not blank. -/
def IsTrimmed (lines : List (List Char)) : Prop :=
  (∀ line ∈ lines.head?, Text.isBlankLine line = false) ∧
    ∀ line ∈ lines.getLast?, Text.isBlankLine line = false

/-- The case can be written down, and its input is what is on the lines. -/
structure IsWritable (case : CorpusCase) (inputLines : List (List Char)) : Prop where
  name_ne_empty : case.name ≠ ""
  trim_name : Text.trim case.name.toList = case.name.toList
  name_not_rule : ¬ IsRuleLine '=' case.name.toList
  joinLines_input : Text.joinLines inputLines = case.input.toList
  input_isTrimmed : IsTrimmed inputLines
  input_line : ∀ line ∈ inputLines,
    ¬ IsRuleLine '=' line ∧ ¬ IsRuleLine '-' line ∧ line.getLast? ≠ some '\r'
  expected_ne_empty : case.expected ≠ ""
  expected_reduced : Sexp.normalizeText case.expected = case.expected

namespace IsWritable

variable {case : CorpusCase} {inputLines : List (List Char)}

theorem name_toList_ne_nil (h : case.IsWritable inputLines) : case.name.toList ≠ [] :=
  fun hnil => h.name_ne_empty (String.toList_eq_nil_iff.mp hnil)

theorem expected_toList_ne_nil (h : case.IsWritable inputLines) : case.expected.toList ≠ [] :=
  fun hnil => h.expected_ne_empty (String.toList_eq_nil_iff.mp hnil)

theorem normalize_expected (h : case.IsWritable inputLines) :
    Sexp.normalize case.expected.toList = case.expected.toList := by
  have heq := congrArg String.toList h.expected_reduced
  rwa [Sexp.normalizeText, String.toList_ofList] at heq

theorem map_dropCarriageReturn (h : case.IsWritable inputLines) :
    inputLines.map Text.dropCarriageReturn = inputLines :=
  (List.map_congr_left fun line hline =>
    Text.dropCarriageReturn_eq_self (h.input_line line hline).2.2).trans (List.map_id inputLines)

theorem isRule_name (h : case.IsWritable inputLines) : isRule '=' case.name.toList = false :=
  (isRule_eq_false_iff (by decide)).mpr h.name_not_rule

theorem isRule_input (h : case.IsWritable inputLines) {line : List Char}
    (hline : line ∈ inputLines) : isRule '-' line = false ∧ isRule '=' line = false := by
  obtain ⟨hequals, hdashes, -⟩ := h.input_line line hline
  exact ⟨(isRule_eq_false_iff (by decide)).mpr hdashes,
    (isRule_eq_false_iff (by decide)).mpr hequals⟩

end IsWritable

def AllBlank (lines : List (List Char)) : Prop :=
  ∀ line ∈ lines, Text.isBlankLine line = true

instance (lines : List (List Char)) : Decidable (AllBlank lines) :=
  inferInstanceAs (Decidable (∀ line ∈ lines, _))

/-- The lines are what the case is written on. -/
inductive Written (case : CorpusCase) : List (List Char) → Prop
  | mk {opening closing separator : List Char}
      {blanks inputLines blanks' treeLines blanks'' : List (List Char)} :
      case.IsWritable inputLines →
      IsRuleLine '=' opening → IsRuleLine '=' closing → IsRuleLine '-' separator →
      AllBlank blanks → AllBlank blanks' → AllBlank blanks'' →
      (∀ line ∈ treeLines, ¬ IsRuleLine '=' line) →
      Sexp.Respaced case.expected.toList (Text.joinLines treeLines) →
      Written case (opening :: case.name.toList :: closing ::
        (blanks ++ inputLines ++ blanks' ++ separator :: (treeLines ++ blanks'')))

/-- The lines from the number `first` on are what the cases are written on, one below the other, and
each case has the number of the line that opens it. -/
inductive AllWritten : (first : Nat) → List CorpusCase → List (List Char) → Prop
  | nil {first} : AllWritten first [] []
  | cons {first case cases lines rest} :
      case.line = first → case.Written lines → AllWritten (first + lines.length) cases rest →
      AllWritten first (case :: cases) (lines ++ rest)

/-! ## Reading one case -/

theorem trimBlankLines_append {blanks lines blanks' : List (List Char)} (hblanks : AllBlank blanks)
    (hblanks' : AllBlank blanks') (h : IsTrimmed lines) :
    trimBlankLines (blanks ++ lines ++ blanks') = lines := by
  show ((blanks ++ lines ++ blanks').dropWhile Text.isBlankLine).rdropWhile Text.isBlankLine = lines
  by_cases hne : lines = []
  · subst hne
    rw [List.append_nil, List.rdropWhile_eq_nil_iff]
    intro line hline
    exact (List.mem_append.mp (List.dropWhile_subset _ hline)).elim (hblanks line) (hblanks' line)
  · have hhead : ∀ line ∈ (lines ++ blanks').head?, Text.isBlankLine line = false := by
      rw [List.head?_append_of_ne_nil _ hne]
      exact h.1
    rw [List.append_assoc, dropWhile_append_eq hblanks hhead, rdropWhile_append_eq h.2 hblanks']

theorem joinName_single {name : List Char} (h : Text.trim name = name) (hne : name ≠ []) :
    joinName [name] = name := by
  simp [joinName, h, hne]

/-- A case is read up to the next rule that opens one. -/
theorem read_append (line : Nat) {closing separator : List Char}
    {nameLines inputLines treeLines rest : List (List Char)}
    (hname : ∀ line ∈ nameLines, isRule '=' line = false) (hclosing : isRule '=' closing = true)
    (hinput : ∀ line ∈ inputLines, isRule '-' line = false ∧ isRule '=' line = false)
    (hseparator : isRule '-' separator = true)
    (htree : ∀ line ∈ treeLines, isRule '=' line = false)
    (hrest : ∀ line ∈ rest.head?, isRule '=' line = true) (hne : joinName nameLines ≠ [])
    (hexpected : Sexp.normalize (Text.joinLines treeLines) ≠ []) :
    read line (nameLines ++ closing :: (inputLines ++ separator :: (treeLines ++ rest))) =
      .ok
        ({ name := String.ofList (joinName nameLines)
           input := String.ofList (Text.joinLines (trimBlankLines inputLines))
           expected := String.ofList (Sexp.normalize (Text.joinLines treeLines))
           line },
          rest) := by
  have hnames :
      (nameLines ++ closing :: (inputLines ++ separator :: (treeLines ++ rest))).span
        (!isRule '=' ·) =
        (nameLines, closing :: (inputLines ++ separator :: (treeLines ++ rest))) := by
    apply span_append_eq
    · simpa using hname
    · simpa using hclosing
  have hinputs :
      (inputLines ++ separator :: (treeLines ++ rest)).span
        (fun l => !isRule '-' l && !isRule '=' l) =
        (inputLines, separator :: (treeLines ++ rest)) := by
    apply span_append_eq
    · intro line hline
      simp [hinput line hline]
    · simp [hseparator]
  have htrees : (treeLines ++ rest).span (!isRule '=' ·) = (treeLines, rest) := by
    apply span_append_eq
    · simpa using htree
    · simpa using hrest
  have hother : isRule '=' separator = false :=
    isRule_eq_false_of_isRule (by decide) hseparator
  rw [read, hnames]
  simp [-List.span_eq_takeWhile_dropWhile, hne, hinputs, hother, htrees, hexpected]
  rfl

/-! ## Reading the lines that cases are written on -/

section

variable {case : CorpusCase} {lines rest : List (List Char)}

theorem AllBlank.isRule (h : AllBlank lines) {mark : Char} {line : List Char}
    (hline : line ∈ lines) : isRule mark line = false :=
  isRule_eq_false_of_isBlankLine (h line hline)

theorem AllBlank.map_dropCarriageReturn (h : AllBlank lines) :
    AllBlank (lines.map Text.dropCarriageReturn) := by
  intro line hline
  obtain ⟨line', hline', rfl⟩ := List.mem_map.mp hline
  rw [Text.isBlankLine_eq, Text.trimEnd_dropCarriageReturn, ← Text.isBlankLine_eq]
  exact h line' hline'

/-- A case is read as it is from its lines, up to the next rule that opens one. -/
theorem IsWritable.read_eq {inputLines : List (List Char)} (hcase : case.IsWritable inputLines)
    {closing separator : List Char} {blanks blanks' treeLines : List (List Char)}
    (hclosing : isRule '=' closing = true) (hseparator : isRule '-' separator = true)
    (hblanks : AllBlank blanks) (hblanks' : AllBlank blanks')
    (htree : ∀ line ∈ treeLines, isRule '=' line = false)
    (hexpected : Sexp.normalize (Text.joinLines treeLines) = case.expected.toList)
    (hrest : ∀ line ∈ rest.head?, isRule '=' line = true) :
    read case.line (case.name.toList :: closing ::
        (blanks ++ inputLines ++ blanks' ++ separator :: (treeLines ++ rest))) =
      .ok (case, rest) := by
  have hname : ∀ line ∈ [case.name.toList], isRule '=' line = false := fun line hline => by
    rw [List.mem_singleton.mp hline, hcase.isRule_name]
  have hinput : ∀ line ∈ blanks ++ inputLines ++ blanks',
      isRule '-' line = false ∧ isRule '=' line = false := by
    intro line hline
    rcases List.mem_append.mp hline with hline | hline
    · rcases List.mem_append.mp hline with hline | hline
      · exact ⟨hblanks.isRule hline, hblanks.isRule hline⟩
      · exact hcase.isRule_input hline
    · exact ⟨hblanks'.isRule hline, hblanks'.isRule hline⟩
  have hjoin := joinName_single hcase.trim_name hcase.name_toList_ne_nil
  have hread := read_append case.line hname hclosing hinput hseparator htree hrest
    (by rw [hjoin]; exact hcase.name_toList_ne_nil)
    (by rw [hexpected]; exact hcase.expected_toList_ne_nil)
  rw [List.singleton_append] at hread
  rw [hread, hjoin, hexpected, trimBlankLines_append hblanks hblanks' hcase.input_isTrimmed,
    hcase.joinLines_input, String.ofList_toList, String.ofList_toList, String.ofList_toList]

-- The last lines of a section, which may be the last ones of the file.
theorem exists_lines_append (hlines : ∀ line ∈ lines, '\n' ∉ line) (rest : List (List Char)) :
    ∃ behind, Text.lines (Text.joinLines (lines ++ rest)) =
        behind ++ Text.lines (Text.joinLines rest) ∧
      Sexp.normalize (Text.joinLines behind) = Sexp.normalize (Text.joinLines lines) ∧
      ((∀ line ∈ lines, isRule '=' line = false) → ∀ line ∈ behind, isRule '=' line = false) ∧
      (rest ≠ [] → behind.length = lines.length) := by
  by_cases hrest : rest = []
  · subst hrest
    refine ⟨Text.lines (Text.joinLines lines), ?_, Sexp.normalize_joinLines_lines _,
      fun hnone line hline => ?_, absurd rfl⟩
    · rw [List.append_nil]
      exact (List.append_nil _).symm
    · obtain ⟨line', hline', heq⟩ := Text.mem_lines_joinLines hlines hline
      rw [isRule_congr heq, hnone line' hline']
  · refine ⟨lines.map Text.dropCarriageReturn, Text.lines_joinLines_append hlines hrest,
      Sexp.normalize_joinLines_map lines hlines, fun hnone line hline => ?_,
      fun _ => List.length_map _⟩
    obtain ⟨line', hline', rfl⟩ := List.mem_map.mp hline
    rw [isRule_dropCarriageReturn, hnone line' hline']

/-- The lines of a case are read as the case, and what is behind them is left. -/
theorem Written.exists_read (h : case.Written lines) (hlines : ∀ line ∈ lines, '\n' ∉ line)
    (hrest : ∀ line ∈ (Text.lines (Text.joinLines rest)).head?, isRule '=' line = true) :
    ∃ opening behind, Text.lines (Text.joinLines (lines ++ rest)) = opening :: behind ∧
      isRule '=' opening = true ∧
      read case.line behind = .ok (case, Text.lines (Text.joinLines rest)) ∧
      (Text.lines (Text.joinLines rest)).length ≤ behind.length ∧
      (rest ≠ [] →
        behind.length + 1 = lines.length + (Text.lines (Text.joinLines rest)).length) := by
  cases h with
  | @mk opening closing separator blanks inputLines blanks' treeLines blanks'' hcase hopening
      hclosing hseparator hblanks hblanks' hblanks'' htree hexpected =>
    -- the lines up to the separator, which are followed by others
    let front := opening :: case.name.toList :: closing ::
      (blanks ++ inputLines ++ blanks' ++ [separator])
    have hfront : opening :: case.name.toList :: closing ::
        (blanks ++ inputLines ++ blanks' ++ separator :: (treeLines ++ blanks'')) =
        front ++ (treeLines ++ blanks'') := by
      simp [front]
    rw [hfront] at hlines ⊢
    obtain ⟨hfrontLines, htreeLines⟩ := List.forall_mem_append.mp hlines
    obtain ⟨treeRead, hread, hnormalize, hkeeps, hlength⟩ := exists_lines_append htreeLines rest
    have htree : ∀ line ∈ treeLines ++ blanks'', isRule '=' line = false :=
      List.forall_mem_append.mpr ⟨fun line hline => (isRule_eq_false_iff (by decide)).mpr
        (htree line hline), fun line hline => hblanks''.isRule hline⟩
    have hreduced : Sexp.normalize (Text.joinLines treeRead) = case.expected.toList := by
      rw [hnormalize, Sexp.normalize_joinLines_append treeLines hblanks'', ← hexpected.normalize_eq]
      exact hcase.normalize_expected
    have hne : treeLines ++ blanks'' ≠ [] := by
      intro hnil
      rw [hnil] at hnormalize
      exact hcase.expected_toList_ne_nil (hreduced.symm.trans hnormalize)
    have hall : Text.lines (Text.joinLines (front ++ (treeLines ++ blanks'') ++ rest)) =
        front.map Text.dropCarriageReturn ++
          (treeRead ++ Text.lines (Text.joinLines rest)) := by
      rw [List.append_assoc, Text.lines_joinLines_append hfrontLines, hread]
      exact List.append_ne_nil_of_left_ne_nil hne rest
    have hbehind : front.map Text.dropCarriageReturn ++
        (treeRead ++ Text.lines (Text.joinLines rest)) =
        Text.dropCarriageReturn opening ::
          (case.name.toList :: Text.dropCarriageReturn closing ::
            (blanks.map Text.dropCarriageReturn ++ inputLines ++
              blanks'.map Text.dropCarriageReturn ++ Text.dropCarriageReturn separator ::
                (treeRead ++ Text.lines (Text.joinLines rest)))) := by
      simp [front, Text.dropCarriageReturn_of_trim hcase.trim_name, hcase.map_dropCarriageReturn]
    refine ⟨_, _, hall.trans hbehind, ?_, ?_, ?_, ?_⟩
    · exact isRule_of_isRuleLine (by decide) hopening
    · have hclosing := isRule_of_isRuleLine (by decide) hclosing
      have hseparator := isRule_of_isRuleLine (by decide) hseparator
      exact hcase.read_eq hclosing hseparator hblanks.map_dropCarriageReturn
        hblanks'.map_dropCarriageReturn (hkeeps htree) hreduced hrest
    · simp
      omega
    · intro hrest
      simp [hlength hrest, front]
      omega

end

theorem readAll_nil (turns line : Nat) : readAll turns line [] = .ok [] := by
  cases turns <;> rfl

theorem AllWritten.eq_nil {first : Nat} {cases : List CorpusCase} (h : AllWritten first cases []) :
    cases = [] := by
  generalize hlines : ([] : List (List Char)) = lines at h
  cases h with
  | nil => rfl
  | cons _ hcase _ =>
    cases hcase with
    | mk => exact absurd hlines (by simp)

/-- Cases are read from the lines that they are written on. -/
theorem AllWritten.readAll_eq {first : Nat} {cases : List CorpusCase} {lines : List (List Char)}
    (h : AllWritten first cases lines) (hlines : ∀ line ∈ lines, '\n' ∉ line) :
    (∀ line ∈ (Text.lines (Text.joinLines lines)).head?, isRule '=' line = true) ∧
      ∀ turns, (Text.lines (Text.joinLines lines)).length < turns →
        readAll turns first (Text.lines (Text.joinLines lines)) = .ok cases := by
  induction h with
  | nil =>
    refine ⟨nofun, fun turns hturns => ?_⟩
    cases turns with
    | zero => exact absurd hturns (Nat.not_lt_zero _)
    | succ turns => rfl
  | @cons first case cases lines rest hfirst hcase hrest ih =>
    subst hfirst
    obtain ⟨hlines, hothers⟩ := List.forall_mem_append.mp hlines
    obtain ⟨hhead, ih⟩ := ih hothers
    obtain ⟨opening, behind, heq, hopening, hread, hle, hlength⟩ := hcase.exists_read hlines hhead
    rw [heq]
    refine ⟨fun line hline => by rw [← Option.some.inj hline]; exact hopening,
      fun turns hturns => ?_⟩
    cases turns with
    | zero => exact absurd hturns (Nat.not_lt_zero _)
    | succ turns =>
      have hblank : Text.isBlankLine opening = false := by
        refine Bool.eq_false_iff.mpr fun hblank => ?_
        rw [isRule_eq_false_of_isBlankLine hblank] at hopening
        exact Bool.false_ne_true hopening
      have hnext : readAll turns
          (case.line + 1 + (behind.length - (Text.lines (Text.joinLines rest)).length))
          (Text.lines (Text.joinLines rest)) = .ok cases := by
        by_cases hne : rest = []
        · subst hne
          rw [hrest.eq_nil]
          exact readAll_nil turns _
        · rw [List.length_cons] at hturns
          have hnumber : case.line + 1 +
              (behind.length - (Text.lines (Text.joinLines rest)).length) =
              case.line + lines.length := by
            have := hlength hne
            omega
          rw [hnumber]
          exact ih turns (by omega)
      simp only [readAll, hblank, hopening, hread, if_true, if_false, Bool.false_eq_true]
      show (do let cases ← readAll turns _ _; return case :: cases) = _
      rw [hnext]
      rfl

/-- **Cases are read back from the lines that they are written on.**  There are exactly these cases,
in their order, each with the number of the line that opens it.  The last of the lines may be empty,
so the text may or may not end in a newline. -/
theorem ofText_joinLines {cases : List CorpusCase} {lines : List (List Char)}
    (h : AllWritten 1 cases lines) (hlines : ∀ line ∈ lines, '\n' ∉ line) :
    ofText (String.ofList (Text.joinLines lines)) = .ok cases := by
  rw [ofText, String.toList_ofList]
  exact (h.readAll_eq hlines).2 _ (Nat.lt_succ_self _)

-- Rules of several lengths, a blank line within an input, an empty input and a tree on two lines.
theorem ofText_joinLines_two :
    let cases : List CorpusCase :=
      [⟨"Two numbers", "1;\n\n2;", "(file (statement))", 1⟩, ⟨"Nothing", "", "(file)", 14⟩]
    let lines : List (List Char) :=
      ["===".toList, "Two numbers".toList, "====  ".toList, [], "1;".toList, [], "2;".toList,
        " ".toList, "---".toList, [], "(file".toList, "  (statement))".toList, [],
        "=====".toList, "Nothing".toList, "===".toList, "----\t".toList, "(file)".toList, []]
    AllWritten 1 cases lines ∧ (∀ line ∈ lines, '\n' ∉ line) ∧
      ofText (String.ofList (Text.joinLines lines)) = .ok cases := by
  intro cases lines
  have hlines : ∀ line ∈ lines, '\n' ∉ line := by decide
  have hequals {line : List Char} : ¬ IsRuleLine '=' line ↔ isRule '=' line = false :=
    (isRule_eq_false_iff (by decide)).symm
  have hdashes {line : List Char} : ¬ IsRuleLine '-' line ↔ isRule '-' line = false :=
    (isRule_eq_false_iff (by decide)).symm
  have hnumbers : IsWritable ⟨"Two numbers", "1;\n\n2;", "(file (statement))", 1⟩
      ["1;".toList, [], "2;".toList] :=
    { name_ne_empty := by decide
      trim_name := by decide
      name_not_rule := hequals.mpr (by decide)
      joinLines_input := by decide
      input_isTrimmed := ⟨by decide, by decide⟩
      input_line := by simp only [hequals, hdashes]; decide
      expected_ne_empty := by decide
      expected_reduced := by decide }
  have hnothing : IsWritable ⟨"Nothing", "", "(file)", 14⟩ [] :=
    { name_ne_empty := by decide
      trim_name := by decide
      name_not_rule := hequals.mpr (by decide)
      joinLines_input := by decide
      input_isTrimmed := ⟨nofun, nofun⟩
      input_line := nofun
      expected_ne_empty := by decide
      expected_reduced := by decide }
  have hlayout : Sexp.Respaced "(file (statement))".toList
      (Text.joinLines [[], "(file".toList, "  (statement))".toList]) := by
    have hstart : Sexp.Respaced "(file (statement))".toList "\n(file (statement))".toList := by
      simpa using @Sexp.Respaced.start [] ['\n'] "(file (statement))".toList rfl rfl
    have hrun : Sexp.Respaced "\n(file (statement))".toList "\n(file\n  (statement))".toList := by
      simpa using @Sexp.Respaced.run "\n(file".toList [' '] "\n  ".toList "(statement))".toList
        rfl rfl (by decide) (by decide)
    simpa [Text.joinLines] using hstart.trans hrun
  have hfirst := @Written.mk _ "===".toList "====  ".toList "---".toList [[]] _ [" ".toList]
    [[], "(file".toList, "  (statement))".toList] [[]] hnumbers ⟨3, [], by decide⟩
    ⟨4, "  ".toList, by decide⟩ ⟨3, [], by decide⟩ (by decide) (by decide) (by decide)
    (by simp only [hequals]; decide) hlayout
  have hsecond := @Written.mk _ "=====".toList "===".toList "----\t".toList [] _ []
    ["(file)".toList] [[]] hnothing ⟨5, [], by decide⟩ ⟨3, [], by decide⟩
    ⟨4, "\t".toList, by decide⟩ nofun nofun (by decide) (by simp only [hequals]; decide) .refl
  have hall : AllWritten 1 cases lines := .cons rfl hfirst (.cons rfl hsecond .nil)
  exact ⟨hall, hlines, ofText_joinLines hall hlines⟩

end CorpusCase

end GrammarKit
