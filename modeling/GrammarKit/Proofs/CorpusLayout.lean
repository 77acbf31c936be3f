import GrammarKit.Proofs.CorpusFiles

/-!
# The lines of corpus files

Each line of a corpus file is one of the blank lines at its start or belongs to exactly one of the
blocks that follow them, and each block is a case.  A file that cannot be divided in this way is
refused, at the line that stands in the way or where the first block opens that is not complete.
-/

namespace GrammarKit

open CorpusCase

/-! ## Blocks -/

/-- The lines of a case. -/
structure CorpusBlock where
  opening : List Char
  nameLines : List (List Char)
  closing : List Char
  inputLines : List (List Char)
  separator : List Char
  treeLines : List (List Char)

/-- The next line, if there is one, opens a block. -/
def OpensBlock (lines : List (List Char)) : Prop :=
  ∀ line ∈ lines.head?, IsRuleLine '=' line

/-- The next line, if there is one, does not belong to an input. -/
def EndsInput (lines : List (List Char)) : Prop :=
  ∀ line ∈ lines.head?, IsRuleLine '-' line ∨ IsRuleLine '=' line

namespace CorpusBlock

/-- The lines behind the opening of the block. -/
def behind (b : CorpusBlock) : List (List Char) :=
  b.nameLines ++ b.closing :: (b.inputLines ++ b.separator :: b.treeLines)

def lines (b : CorpusBlock) : List (List Char) :=
  b.opening :: b.behind

/-- The case that the block is, when its first line has the number `line`. -/
def case (b : CorpusBlock) (line : Nat) : CorpusCase :=
  { name := String.ofList (joinName b.nameLines)
    input := String.ofList (Text.joinLines (trimBlankLines b.inputLines))
    expected := String.ofList (Sexp.normalize (Text.joinLines b.treeLines))
    line }

/-- The cases of blocks one below the other, when the first of them opens on the line `first`. -/
def cases (first : Nat) : List CorpusBlock → List CorpusCase
  | [] => []
  | b :: blocks => b.case first :: cases (first + b.lines.length) blocks

/-- Nothing is missing in the block, and no other block starts within. -/
structure IsComplete (b : CorpusBlock) : Prop where
  opening : IsRuleLine '=' b.opening
  name : ∀ line ∈ b.nameLines, ¬ IsRuleLine '=' line
  named : ¬ AllBlank b.nameLines
  closing : IsRuleLine '=' b.closing
  input : ∀ line ∈ b.inputLines, ¬ IsRuleLine '-' line ∧ ¬ IsRuleLine '=' line
  separator : IsRuleLine '-' b.separator
  tree : ∀ line ∈ b.treeLines, ¬ IsRuleLine '=' line
  expected : ¬ AllBlank b.treeLines

/-- Why the lines behind the opening of a block do not make it complete, and how far behind that the
fault is reported. -/
inductive Fails : List (List Char) → (offset : Nat) → CorpusFault → Prop
  | unterminated {nameLines} :
      (∀ line ∈ nameLines, ¬ IsRuleLine '=' line) → Fails nameLines 0 .unterminatedHeader
  | unnamed {blanks closing rest} :
      AllBlank blanks → IsRuleLine '=' closing → Fails (blanks ++ closing :: rest) 0 .missingName
  | unseparated {nameLines closing inputLines} :
      (∀ line ∈ nameLines, ¬ IsRuleLine '=' line) → ¬ AllBlank nameLines →
      IsRuleLine '=' closing →
      (∀ line ∈ inputLines, ¬ IsRuleLine '-' line ∧ ¬ IsRuleLine '=' line) →
      Fails (nameLines ++ closing :: inputLines) 0 .missingSeparator
  /-- A rule within the input that would open another block. -/
  | interrupted {nameLines closing inputLines rule rest} :
      (∀ line ∈ nameLines, ¬ IsRuleLine '=' line) → ¬ AllBlank nameLines →
      IsRuleLine '=' closing →
      (∀ line ∈ inputLines, ¬ IsRuleLine '-' line ∧ ¬ IsRuleLine '=' line) →
      IsRuleLine '=' rule →
      Fails (nameLines ++ closing :: (inputLines ++ rule :: rest))
        (nameLines.length + inputLines.length + 2) .missingSeparator
  | treeless {nameLines closing inputLines separator blanks rest} :
      (∀ line ∈ nameLines, ¬ IsRuleLine '=' line) → ¬ AllBlank nameLines →
      IsRuleLine '=' closing →
      (∀ line ∈ inputLines, ¬ IsRuleLine '-' line ∧ ¬ IsRuleLine '=' line) →
      IsRuleLine '-' separator → AllBlank blanks → OpensBlock rest →
      Fails (nameLines ++ closing :: (inputLines ++ separator :: (blanks ++ rest))) 0 .missingTree

end CorpusBlock

/-- The lines are blank ones with complete blocks behind them. -/
structure IsDivided (lines blanks : List (List Char)) (blocks : List CorpusBlock) : Prop where
  lines_eq : lines = blanks ++ blocks.flatMap CorpusBlock.lines
  blank : AllBlank blanks
  complete : ∀ b ∈ blocks, b.IsComplete

/-- What is in the way of a division of the lines, and where. -/
inductive IsMalformed : List (List Char) → CorpusError → Prop
  /-- A line that belongs to no block. -/
  | stray {blanks line rest} :
      AllBlank blanks → Text.isBlankLine line = false → ¬ IsRuleLine '=' line →
      IsMalformed (blanks ++ line :: rest) ⟨1 + blanks.length, .expectedHeader⟩
  /-- The first block that is not complete. -/
  | block {blanks opening others offset fault} {blocks : List CorpusBlock} :
      AllBlank blanks → (∀ b ∈ blocks, b.IsComplete) → IsRuleLine '=' opening →
      CorpusBlock.Fails others offset fault →
      IsMalformed (blanks ++ (blocks.flatMap CorpusBlock.lines ++ opening :: others))
        ⟨1 + blanks.length + (blocks.flatMap CorpusBlock.lines).length + offset, fault⟩

/-! ## Sections without text -/

theorem Text.trim_eq_nil_iff {line : List Char} :
    Text.trim line = [] ↔ Text.isBlankLine line = true := by
  rw [Text.isBlankLine, List.all_eq_true]
  show (Text.trimStart line).rdropWhile Text.isBlank = [] ↔ _
  rw [List.rdropWhile_eq_nil_iff]
  constructor
  · intro h
    rw [← List.dropWhile_eq_nil_iff]
    by_contra hne
    exact absurd (h _ (List.head_mem hne)) (by simpa using List.head_dropWhile_not _ hne)
  · intro h c hc
    exact h c (List.dropWhile_subset _ hc)

theorem Text.isBlankLine_joinLines_iff {lines : List (List Char)} :
    Text.isBlankLine (Text.joinLines lines) = true ↔ AllBlank lines := by
  refine ⟨fun h => ?_, Text.isBlankLine_joinLines⟩
  induction lines with
  | nil => exact nofun
  | cons line lines ih =>
    by_cases hne : lines = []
    · subst hne
      exact fun _ hline => by rwa [List.mem_singleton.mp hline]
    · rw [Text.joinLines_cons hne, Text.isBlankLine, List.all_append, List.all_cons,
        Bool.and_eq_true, Bool.and_eq_true] at h
      exact List.forall_mem_cons.mpr ⟨h.1, ih h.2.2⟩

theorem Sexp.normalizeFrom_eq_nil_iff {last : Option Char} {gap : Bool} {text : List Char} :
    Sexp.normalizeFrom last gap text = [] ↔ Text.isBlankLine text = true := by
  induction text generalizing last gap with
  | nil => exact ⟨fun _ => rfl, fun _ => rfl⟩
  | cons c text ih =>
    rw [Text.isBlankLine, List.all_cons]
    cases hc : Text.isBlank c with
    | true =>
      rw [Sexp.normalizeFrom_cons_blank hc, ih, Bool.true_and]
      rfl
    | false => simp [Sexp.normalizeFrom_cons hc]

namespace CorpusCase

theorem joinName_eq_nil_iff {nameLines : List (List Char)} :
    joinName nameLines = [] ↔ AllBlank nameLines := by
  have hwords : (nameLines.map Text.trim).filter (!·.isEmpty) = [] ↔ AllBlank nameLines := by
    simp [AllBlank, List.filter_eq_nil_iff, Text.trim_eq_nil_iff]
  rw [← hwords, joinName]
  have hword : ∀ word ∈ (nameLines.map Text.trim).filter (!·.isEmpty), word ≠ [] := by
    simp [List.mem_filter]
  cases hcases : (nameLines.map Text.trim).filter (!·.isEmpty) with
  | nil => exact ⟨fun _ => rfl, fun _ => rfl⟩
  | cons word words =>
    have hne := hword word (by rw [hcases]; exact List.mem_cons_self)
    cases words <;> simp [List.intercalate, hne]

theorem normalize_joinLines_eq_nil_iff {treeLines : List (List Char)} :
    Sexp.normalize (Text.joinLines treeLines) = [] ↔ AllBlank treeLines := by
  rw [Sexp.normalize, Sexp.normalizeFrom_eq_nil_iff, Text.isBlankLine_joinLines_iff]

/-! ## Rules -/

theorem isRule_equals {line : List Char} : isRule '=' line = true ↔ IsRuleLine '=' line :=
  isRule_iff (by decide)

theorem isRule_dashes {line : List Char} : isRule '-' line = true ↔ IsRuleLine '-' line :=
  isRule_iff (by decide)

/-- Within a section that ends at the rule of the next block. -/
theorem not_isRule_equals {line : List Char} :
    (!isRule '=' line) = true ↔ ¬ IsRuleLine '=' line := by
  rw [← isRule_equals, Bool.not_eq_true', Bool.not_eq_true]

/-- Within an input, which ends at any rule. -/
theorem not_isRule_any {line : List Char} :
    (!isRule '-' line && !isRule '=' line) = true ↔
      ¬ IsRuleLine '-' line ∧ ¬ IsRuleLine '=' line := by
  rw [← isRule_equals, ← isRule_dashes, Bool.and_eq_true, Bool.not_eq_true', Bool.not_eq_true',
    Bool.not_eq_true, Bool.not_eq_true]

theorem opensBlock_nil : OpensBlock [] :=
  nofun

theorem endsInput_nil : EndsInput [] :=
  nofun

theorem opensBlock_cons {line : List Char} {rest : List (List Char)}
    (h : IsRuleLine '=' line) : OpensBlock (line :: rest) := by
  intro first hfirst
  obtain rfl := Option.some.inj hfirst
  exact h

theorem endsInput_cons {line : List Char} {rest : List (List Char)}
    (h : IsRuleLine '-' line ∨ IsRuleLine '=' line) : EndsInput (line :: rest) := by
  intro first hfirst
  obtain rfl := Option.some.inj hfirst
  exact h

/-! ## Where a section ends -/

variable {xs ys xs' ys' : List (List Char)}

-- Up to the next block.
theorem span_block (hxs : ∀ x ∈ xs, ¬ IsRuleLine '=' x) (hys : OpensBlock ys) :
    (xs ++ ys).span (!isRule '=' ·) = (xs, ys) := by
  refine span_append_eq (fun x hx => not_isRule_equals.mpr (hxs x hx)) fun y hy => ?_
  rw [Bool.not_eq_false', isRule_equals]
  exact hys y hy

-- Up to the next rule of either kind.
theorem span_input (hxs : ∀ x ∈ xs, ¬ IsRuleLine '-' x ∧ ¬ IsRuleLine '=' x)
    (hys : EndsInput ys) :
    (xs ++ ys).span (fun l => !isRule '-' l && !isRule '=' l) = (xs, ys) := by
  refine span_append_eq (fun x hx => not_isRule_any.mpr (hxs x hx)) fun y hy => ?_
  rw [Bool.and_eq_false_iff, Bool.not_eq_false', Bool.not_eq_false', isRule_dashes, isRule_equals]
  exact hys y hy

theorem block_section_unique (h : xs ++ ys = xs' ++ ys') (hxs : ∀ x ∈ xs, ¬ IsRuleLine '=' x)
    (hys : OpensBlock ys) (hxs' : ∀ x ∈ xs', ¬ IsRuleLine '=' x) (hys' : OpensBlock ys') :
    xs = xs' ∧ ys = ys' := by
  have hspan := span_block hxs hys
  rw [h, span_block hxs' hys'] at hspan
  exact Prod.mk.inj hspan.symm

theorem input_section_unique (h : xs ++ ys = xs' ++ ys')
    (hxs : ∀ x ∈ xs, ¬ IsRuleLine '-' x ∧ ¬ IsRuleLine '=' x) (hys : EndsInput ys)
    (hxs' : ∀ x ∈ xs', ¬ IsRuleLine '-' x ∧ ¬ IsRuleLine '=' x) (hys' : EndsInput ys') :
    xs = xs' ∧ ys = ys' := by
  have hspan := span_input hxs hys
  rw [h, span_input hxs' hys'] at hspan
  exact Prod.mk.inj hspan.symm

end CorpusCase

namespace CorpusBlock

variable {b b' : CorpusBlock} {rest rest' others : List (List Char)} {offset : Nat}
  {fault : CorpusFault}

-- A complete block is read as its case, up to the next one.
theorem IsComplete.read_eq (h : b.IsComplete) (hrest : OpensBlock rest) (line : Nat) :
    CorpusCase.read line (b.behind ++ rest) = .ok (b.case line, rest) := by
  have hname : ∀ line ∈ b.nameLines, isRule '=' line = false := fun line hline => by
    simpa using not_isRule_equals.mpr (h.name line hline)
  have hinput : ∀ line ∈ b.inputLines, isRule '-' line = false ∧ isRule '=' line = false :=
    fun line hline => by simpa using not_isRule_any.mpr (h.input line hline)
  have htree : ∀ line ∈ b.treeLines, isRule '=' line = false := fun line hline => by
    simpa using not_isRule_equals.mpr (h.tree line hline)
  have hread := read_append line hname (isRule_equals.mpr h.closing) hinput
    (isRule_dashes.mpr h.separator) htree (fun line hline => isRule_equals.mpr (hrest line hline))
    (mt joinName_eq_nil_iff.mp h.named) (mt normalize_joinLines_eq_nil_iff.mp h.expected)
  simpa [behind, case] using hread

-- What is missing is reported.
theorem Fails.read_eq (h : Fails others offset fault) (line : Nat) :
    CorpusCase.read line others = .error ⟨line + offset, fault⟩ := by
  have hblank {blanks : List (List Char)} (h : AllBlank blanks) :
      ∀ line ∈ blanks, ¬ IsRuleLine '=' line := fun line hline =>
    not_isRule_equals.mp (by rw [h.isRule hline]; rfl)
  cases h with
  | unterminated hname =>
    have hnames := span_block hname opensBlock_nil
    rw [List.append_nil] at hnames
    rw [CorpusCase.read, hnames]
    rfl
  | @unnamed blanks closing rest hname hclosing =>
    have hheader : (blanks ++ closing :: rest).span (!isRule '=' ·) = (blanks, closing :: rest) :=
      span_block (hblank hname) (opensBlock_cons hclosing)
    rw [CorpusCase.read, hheader]
    simp only [joinName_eq_nil_iff.mpr hname]
    rfl
  | unseparated hname hnamed hclosing hinput =>
    have hinputs := span_input hinput endsInput_nil
    rw [List.append_nil] at hinputs
    rw [CorpusCase.read, span_block hname (opensBlock_cons hclosing)]
    simp only [List.isEmpty_cons, Bool.false_eq_true, if_false, List.isEmpty_iff,
      mt joinName_eq_nil_iff.mp hnamed, List.drop_succ_cons, List.drop_zero, hinputs]
    rfl
  | @interrupted nameLines closing inputLines rule rest hname hnamed hclosing hinput hrule =>
    have hinputs : (inputLines ++ rule :: rest).span (fun l => !isRule '-' l && !isRule '=' l) =
        (inputLines, rule :: rest) := span_input hinput (endsInput_cons (.inr hrule))
    rw [CorpusCase.read, span_block hname (opensBlock_cons hclosing)]
    simp only [List.isEmpty_cons, Bool.false_eq_true, if_false, List.isEmpty_iff,
      mt joinName_eq_nil_iff.mp hnamed, List.drop_succ_cons, List.drop_zero, hinputs,
      isRule_equals.mpr hrule, if_true]
    rw [← Nat.add_assoc, ← Nat.add_assoc]
    rfl
  | @treeless nameLines closing inputLines separator blanks rest hname hnamed hclosing hinput
      hseparator htree hrest =>
    have hinputs : (inputLines ++ separator :: (blanks ++ rest)).span
        (fun l => !isRule '-' l && !isRule '=' l) = (inputLines, separator :: (blanks ++ rest)) :=
      span_input hinput (endsInput_cons (.inl hseparator))
    have hother : isRule '=' separator = false :=
      isRule_eq_false_of_isRule (by decide) (isRule_dashes.mpr hseparator)
    rw [CorpusCase.read, span_block hname (opensBlock_cons hclosing)]
    simp only [List.isEmpty_cons, Bool.false_eq_true, if_false, List.isEmpty_iff,
      mt joinName_eq_nil_iff.mp hnamed, List.drop_succ_cons, List.drop_zero, hinputs, hother,
      span_block (hblank htree) hrest, normalize_joinLines_eq_nil_iff.mpr htree, if_true]
    rfl

end CorpusBlock

/-! ## All blocks -/

namespace CorpusCase

variable {blanks rest others : List (List Char)} {opening : List Char} {b : CorpusBlock}
  {blocks : List CorpusBlock} {offset : Nat} {fault : CorpusFault}

theorem isBlankLine_of_isRuleLine (h : IsRuleLine '=' opening) :
    Text.isBlankLine opening = false := by
  refine Bool.eq_false_iff.mpr fun hblank => ?_
  have hrule := isRule_equals.mpr h
  rw [isRule_eq_false_of_isBlankLine hblank] at hrule
  exact Bool.false_ne_true hrule

theorem opensBlock_blocks (hblocks : ∀ b ∈ blocks, CorpusBlock.IsComplete b)
    (hrest : OpensBlock rest) : OpensBlock (blocks.flatMap CorpusBlock.lines ++ rest) := by
  cases blocks with
  | nil => exact hrest
  | cons b blocks => exact opensBlock_cons (hblocks b List.mem_cons_self).opening

variable {lines : List (List Char)}

end CorpusCase

/-! ## Only one division -/

-- The rules in a complete block tell where its sections end.
theorem CorpusBlock.IsComplete.eq_of_append {b b' : CorpusBlock} {rest rest' : List (List Char)}
    (h : b.IsComplete) (h' : b'.IsComplete) (hrest : OpensBlock rest) (hrest' : OpensBlock rest')
    (heq : b.lines ++ rest = b'.lines ++ rest') : b = b' ∧ rest = rest' := by
  obtain ⟨opening, nameLines, closing, inputLines, separator, treeLines⟩ := b
  obtain ⟨opening', nameLines', closing', inputLines', separator', treeLines'⟩ := b'
  simp only [lines, behind, List.cons_append, List.append_assoc] at heq
  obtain ⟨rfl, hname⟩ := List.cons.inj heq
  obtain ⟨rfl, hclosing⟩ := block_section_unique hname h.name (opensBlock_cons h.closing) h'.name
    (opensBlock_cons h'.closing)
  obtain ⟨rfl, hinput⟩ := List.cons.inj hclosing
  obtain ⟨rfl, hseparator⟩ := input_section_unique hinput h.input
    (endsInput_cons (.inl h.separator)) h'.input (endsInput_cons (.inl h'.separator))
  obtain ⟨rfl, htree⟩ := List.cons.inj hseparator
  obtain ⟨rfl, rfl⟩ := block_section_unique htree h.tree hrest h'.tree hrest'
  exact ⟨rfl, rfl⟩

theorem blocks_unique {blocks blocks' : List CorpusBlock} (h : ∀ b ∈ blocks, b.IsComplete)
    (h' : ∀ b ∈ blocks', b.IsComplete)
    (heq : blocks.flatMap CorpusBlock.lines = blocks'.flatMap CorpusBlock.lines) :
    blocks = blocks' := by
  induction blocks generalizing blocks' with
  | nil =>
    cases blocks' with
    | nil => rfl
    | cons b' blocks' => cases heq
  | cons b blocks ih =>
    cases blocks' with
    | nil => cases heq
    | cons b' blocks' =>
      obtain ⟨hb, hblocks⟩ := List.forall_mem_cons.mp h
      obtain ⟨hb', hblocks'⟩ := List.forall_mem_cons.mp h'
      have hrest := opensBlock_blocks hblocks opensBlock_nil
      have hrest' := opensBlock_blocks hblocks' opensBlock_nil
      rw [List.append_nil] at hrest hrest'
      obtain ⟨rfl, hbehind⟩ := hb.eq_of_append hb' hrest hrest' heq
      rw [ih hblocks hblocks' hbehind]

theorem IsDivided.unique {lines blanks blanks' : List (List Char)}
    {blocks blocks' : List CorpusBlock} (h : IsDivided lines blanks blocks)
    (h' : IsDivided lines blanks' blocks') : blanks = blanks' ∧ blocks = blocks' := by
  obtain ⟨rfl, hblank, hblocks⟩ := h
  obtain ⟨heq, hblank', hblocks'⟩ := h'
  -- the first block, if there is one, opens with a line that is not blank
  have hend {blocks : List CorpusBlock} (hblocks : ∀ b ∈ blocks, b.IsComplete) :
      ∀ line ∈ (blocks.flatMap CorpusBlock.lines).head?, Text.isBlankLine line = false := by
    have hopens := opensBlock_blocks hblocks opensBlock_nil
    rw [List.append_nil] at hopens
    exact fun line hline => isBlankLine_of_isRuleLine (hopens line hline)
  have hspan := span_append_eq hblank (hend hblocks)
  rw [heq, span_append_eq hblank' (hend hblocks')] at hspan
  obtain ⟨hblanks, hlines⟩ := Prod.mk.inj hspan
  exact ⟨hblanks.symm, blocks_unique hblocks hblocks' hlines.symm⟩

/-! ## What becomes of a file -/

theorem getElem?_append_length_add {α : Type} (xs ys : List α) (n : Nat) :
    (xs ++ ys)[xs.length + n]? = ys[n]? := by
  rw [List.getElem?_append_right (Nat.le_add_right _ n), Nat.add_sub_cancel_left]

theorem getElem?_append_length {α : Type} (xs ys : List α) (y : α) :
    (xs ++ y :: ys)[xs.length]? = some y :=
  getElem?_append_length_add xs (y :: ys) 0

namespace CorpusBlock

-- The fault is reported at a rule of the block.
theorem Fails.exists_rule {opening : List Char} {others : List (List Char)} {offset : Nat}
    {fault : CorpusFault} (hopening : IsRuleLine '=' opening) (h : Fails others offset fault) :
    fault ≠ .expectedHeader ∧
      ∃ line, (opening :: others)[offset]? = some line ∧ IsRuleLine '=' line := by
  cases h with
  | unterminated | unnamed | unseparated | treeless => exact ⟨nofun, opening, rfl, hopening⟩
  | @interrupted nameLines closing inputLines rule rest _ _ _ _ hrule =>
    refine ⟨nofun, rule, ?_, hrule⟩
    have hplace : nameLines.length + inputLines.length + 2 =
        nameLines.length + (inputLines.length + 1) + 1 := by
      omega
    rw [hplace, List.getElem?_cons_succ, getElem?_append_length_add, List.getElem?_cons_succ,
      getElem?_append_length]

end CorpusBlock

/-- The fault is reported at one of the lines: at one that belongs to no block, or at a rule. -/
structure CorpusError.IsAt (lines : List (List Char)) (e : CorpusError) : Prop where
  one_le : 1 ≤ e.line
  le_length : e.line ≤ lines.length
  exists_line : ∃ line, lines[e.line - 1]? = some line ∧
    (e.fault = .expectedHeader → Text.isBlankLine line = false ∧ ¬ IsRuleLine '=' line) ∧
    (e.fault ≠ .expectedHeader → IsRuleLine '=' line)

theorem IsMalformed.isAt {lines : List (List Char)} {e : CorpusError} (h : IsMalformed lines e) :
    e.IsAt lines := by
  cases h with
  | @stray blanks line rest _ hline hrule =>
    refine ⟨Nat.le_add_right 1 _, ?_, line, ?_, fun _ => ⟨hline, hrule⟩, absurd rfl⟩
    · show 1 + blanks.length ≤ _
      rw [List.length_append, List.length_cons]
      omega
    · rw [Nat.add_sub_cancel_left, getElem?_append_length]
  | @block blanks opening others offset fault blocks _ _ hopening hfails =>
    obtain ⟨hfault, line, hline, hrule⟩ := hfails.exists_rule hopening
    have hlt := (List.getElem?_eq_some_iff.mp hline).1
    rw [Nat.add_assoc, Nat.add_assoc]
    refine ⟨Nat.le_add_right 1 _, ?_, line, ?_, fun h => absurd h hfault, fun _ => hrule⟩
    · show 1 + (blanks.length + ((blocks.flatMap CorpusBlock.lines).length + offset)) ≤ _
      rw [List.length_append, List.length_append]
      omega
    · rw [Nat.add_sub_cancel_left, getElem?_append_length_add, getElem?_append_length_add, hline]

-- The second block opens within the input of the first one.
example : CorpusCase.ofText "\n===\nname\n===\nx\n===\nname\n===\n" =
    .error ⟨6, .missingSeparator⟩ := by
  rfl

end GrammarKit
