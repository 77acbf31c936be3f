import GrammarKit.Proofs.Respacing
import GrammarKit.Text.Lines
import Mathlib.Data.List.DropRight
import Mathlib.Data.List.TakeDrop

/-!
# Texts by their lines

What the lines of a text are that was put together from lines.  White space at the end of a line may
get lost on the way, so what is said about lines here is said up to that.
-/

namespace GrammarKit

/-! ## Where a run ends -/

section

variable {α : Type} {p : α → Bool} {xs ys : List α}

theorem takeWhile_append_eq (hxs : ∀ x ∈ xs, p x = true) (hys : ∀ y ∈ ys.head?, p y = false) :
    (xs ++ ys).takeWhile p = xs := by
  rw [List.takeWhile_append_of_pos hxs]
  cases ys with
  | nil => exact List.append_nil xs
  | cons y ys => rw [List.takeWhile_cons_of_neg (by simp [hys y rfl]), List.append_nil]

theorem dropWhile_append_eq (hxs : ∀ x ∈ xs, p x = true) (hys : ∀ y ∈ ys.head?, p y = false) :
    (xs ++ ys).dropWhile p = ys := by
  rw [List.dropWhile_append_of_pos hxs]
  cases ys with
  | nil => rfl
  | cons y ys => exact List.dropWhile_cons_of_neg (by simp [hys y rfl])

theorem span_append_eq (hxs : ∀ x ∈ xs, p x = true) (hys : ∀ y ∈ ys.head?, p y = false) :
    (xs ++ ys).span p = (xs, ys) := by
  rw [List.span_eq_takeWhile_dropWhile, takeWhile_append_eq hxs hys, dropWhile_append_eq hxs hys]

theorem rdropWhile_append_eq (hxs : ∀ x ∈ xs.getLast?, p x = false) (hys : ∀ y ∈ ys, p y = true) :
    (xs ++ ys).rdropWhile p = xs := by
  rw [List.rdropWhile, List.reverse_append, dropWhile_append_eq, List.reverse_reverse]
  · exact fun y hy => hys y (List.mem_reverse.mp hy)
  · rwa [List.head?_reverse]

end

namespace Text

variable {text blank line line' : List Char} {lines' rest : List (List Char)}

/-! ## White space at the end -/

theorem trimEnd_append (h : isBlankLine blank = true) : trimEnd (text ++ blank) = trimEnd text := by
  unfold trimEnd
  rw [List.reverse_append, List.dropWhile_append_of_pos]
  exact fun c hc => List.all_eq_true.mp h c (List.mem_reverse.mp hc)

theorem exists_trimEnd_append (text : List Char) :
    ∃ blank, isBlankLine blank = true ∧ trimEnd text ++ blank = text := by
  refine ⟨text.rtakeWhile isBlank, ?_, List.rdropWhile_append_rtakeWhile⟩
  exact List.all_eq_true.mpr fun c hc => List.mem_rtakeWhile_imp hc

theorem isBlankLine_eq (text : List Char) : isBlankLine text = (trimEnd text).isEmpty := by
  rw [Bool.eq_iff_iff, isBlankLine, List.all_eq_true, List.isEmpty_iff]
  exact List.rdropWhile_eq_nil_iff.symm

theorem exists_dropCarriageReturn_append (line : List Char) :
    ∃ blank, isBlankLine blank = true ∧ dropCarriageReturn line ++ blank = line := by
  unfold dropCarriageReturn
  split
  next h =>
    refine ⟨['\r'], by decide, ?_⟩
    rw [List.dropLast_append_getLast? '\r' h]
  next => exact ⟨[], rfl, List.append_nil line⟩

theorem trimEnd_dropCarriageReturn (line : List Char) :
    trimEnd (dropCarriageReturn line) = trimEnd line := by
  obtain ⟨blank, hblank, heq⟩ := exists_dropCarriageReturn_append line
  rw [← trimEnd_append hblank, heq]

theorem dropCarriageReturn_eq_self (h : line.getLast? ≠ some '\r') :
    dropCarriageReturn line = line :=
  if_neg h

theorem dropCarriageReturn_of_trim (h : trim line = line) : dropCarriageReturn line = line := by
  apply dropCarriageReturn_eq_self
  intro hlast
  have hend : line.rdropWhile isBlank = line := by
    rw [← h]
    exact List.rdropWhile_idempotent isBlank (trimStart line)
  obtain ⟨hne, hlast⟩ := List.mem_getLast?_eq_getLast hlast
  have hblank := List.rdropWhile_eq_self_iff.mp hend hne
  rw [← hlast] at hblank
  exact hblank (by decide)

/-! ## Lines that were put together -/

theorem joinLines_cons (h : rest ≠ []) :
    joinLines (line :: rest) = line ++ '\n' :: joinLines rest := by
  cases rest with
  | nil => exact absurd rfl h
  | cons next rest => rfl

theorem joinLines_append (h : lines' ≠ []) (hrest : rest ≠ []) :
    joinLines (lines' ++ rest) = joinLines lines' ++ '\n' :: joinLines rest := by
  induction lines' with
  | nil => exact absurd rfl h
  | cons line lines' ih =>
    rw [List.cons_append, joinLines_cons (List.append_ne_nil_of_right_ne_nil lines' hrest)]
    by_cases hlines : lines' = []
    · subst hlines
      rfl
    · rw [ih hlines, joinLines_cons hlines, List.append_assoc, List.cons_append]

theorem isBlankLine_joinLines (h : ∀ line ∈ lines', isBlankLine line = true) :
    isBlankLine (joinLines lines') = true := by
  induction lines' with
  | nil => rfl
  | cons line lines' ih =>
    obtain ⟨hline, hlines⟩ := List.forall_mem_cons.mp h
    by_cases hne : lines' = []
    · subst hne
      exact hline
    · rw [joinLines_cons hne, isBlankLine, List.all_append, List.all_cons]
      exact Bool.and_eq_true_iff.mpr ⟨hline, ih hlines⟩

-- Blank lines at the end are white space at the end.
theorem exists_joinLines_append (lines' : List (List Char))
    (h : ∀ line ∈ rest, isBlankLine line = true) :
    ∃ blank, isBlankLine blank = true ∧ joinLines (lines' ++ rest) = joinLines lines' ++ blank := by
  by_cases hlines : lines' = []
  · subst hlines
    exact ⟨joinLines rest, isBlankLine_joinLines h, rfl⟩
  · by_cases hrest : rest = []
    · subst hrest
      exact ⟨[], rfl, by rw [List.append_nil, List.append_nil]⟩
    · exact ⟨'\n' :: joinLines rest, isBlankLine_joinLines h, joinLines_append hlines hrest⟩

theorem linesFrom_append (h : '\n' ∉ line) (pending rest : List Char) :
    linesFrom pending (line ++ '\n' :: rest) =
      dropCarriageReturn (pending.reverse ++ line) :: lines rest := by
  induction line generalizing pending with
  | nil => rw [List.nil_append, linesFrom, List.append_nil, lines]
  | cons c line ih =>
    obtain ⟨hc, hline⟩ := not_or.mp (mt List.mem_cons.mpr h)
    rw [List.cons_append, linesFrom, ih hline, List.reverse_cons, List.append_assoc,
      List.singleton_append]
    exact Ne.symm hc

theorem lines_append (h : '\n' ∉ line) (rest : List Char) :
    lines (line ++ '\n' :: rest) = dropCarriageReturn line :: lines rest :=
  linesFrom_append h [] rest

theorem linesFrom_line (h : '\n' ∉ line) {pending : List Char} (hne : pending ≠ []) :
    linesFrom pending line = [pending.reverse ++ line] := by
  induction line generalizing pending with
  | nil =>
    cases pending with
    | nil => exact absurd rfl hne
    | cons c pending => rw [linesFrom, List.append_nil]; exact List.cons_ne_nil c pending
  | cons c line ih =>
    obtain ⟨hc, hline⟩ := not_or.mp (mt List.mem_cons.mpr h)
    rw [linesFrom, ih hline (List.cons_ne_nil c pending), List.reverse_cons, List.append_assoc,
      List.singleton_append]
    exact Ne.symm hc

theorem lines_line (h : '\n' ∉ line) : lines line = if line = [] then [] else [line] := by
  cases line with
  | nil => rfl
  | cons c line =>
    obtain ⟨hc, hline⟩ := not_or.mp (mt List.mem_cons.mpr h)
    rw [lines, linesFrom, linesFrom_line hline (List.cons_ne_nil c []),
      if_neg (List.cons_ne_nil c line)]
    · rfl
    · exact Ne.symm hc

/-- All but the last of the lines that a text is put together from lose their carriage returns. -/
theorem lines_joinLines_append (h : ∀ line ∈ lines', '\n' ∉ line) (hrest : rest ≠ []) :
    lines (joinLines (lines' ++ rest)) =
      lines'.map dropCarriageReturn ++ lines (joinLines rest) := by
  induction lines' with
  | nil => rfl
  | cons line lines' ih =>
    obtain ⟨hline, hlines⟩ := List.forall_mem_cons.mp h
    rw [List.cons_append, joinLines_cons (List.append_ne_nil_of_right_ne_nil lines' hrest),
      lines_append hline, ih hlines, List.map_cons, List.cons_append]

theorem mem_lines_joinLines (h : ∀ line ∈ lines', '\n' ∉ line)
    (hmem : line ∈ lines (joinLines lines')) : ∃ line' ∈ lines', trimEnd line = trimEnd line' := by
  induction lines' using List.reverseRecOn with
  | nil => exact absurd hmem List.not_mem_nil
  | append_singleton lines' last _ =>
    rw [lines_joinLines_append (fun line hline => h line (List.mem_append_left _ hline))
      (List.cons_ne_nil last [])] at hmem
    rcases List.mem_append.mp hmem with hmem | hmem
    · obtain ⟨line', hline', rfl⟩ := List.mem_map.mp hmem
      exact ⟨line', List.mem_append_left _ hline', trimEnd_dropCarriageReturn line'⟩
    · have hlast := List.mem_append_right lines' (List.mem_singleton_self last)
      rw [joinLines, lines_line (h last hlast)] at hmem
      split at hmem
      · exact absurd hmem List.not_mem_nil
      · exact ⟨last, hlast, by rw [List.mem_singleton.mp hmem]⟩

end Text

namespace Sexp

/-- Taking a text apart into lines and putting it together again only changes white space. -/
theorem normalizeFrom_joinLines_linesFrom (pending text : List Char) (last : Option Char)
    (gap : Bool) :
    normalizeFrom last gap (Text.joinLines (Text.linesFrom pending text)) =
      normalizeFrom last gap (pending.reverse ++ text) := by
  fun_induction Text.linesFrom pending text generalizing last gap with
  | case1 => rfl
  | case2 pending h => rw [Text.joinLines, List.append_nil]
  | case3 pending rest ih =>
    obtain ⟨blank, hblank, heq⟩ := Text.exists_dropCarriageReturn_append pending.reverse
    have hbreak : Text.isBlankLine (blank ++ ['\n']) = true := by
      rw [Text.isBlankLine, List.all_append, Bool.and_eq_true]
      exact ⟨hblank, by decide⟩
    have hstop (last : Option Char) (gap : Bool) :
        normalizeFrom last gap ((blank ++ ['\n']) ++ rest) =
          normalizeFrom last last.isSome (Text.joinLines (Text.linesFrom [] rest)) := by
      rw [normalizeFrom_run hbreak (by simp), ih, List.reverse_nil, List.nil_append]
    have hright : pending.reverse ++ '\n' :: rest =
        Text.dropCarriageReturn pending.reverse ++ ((blank ++ ['\n']) ++ rest) := by
      rw [← List.append_assoc, ← List.append_assoc, heq, List.append_assoc, List.singleton_append]
    rw [hright]
    by_cases h : Text.linesFrom [] rest = []
    · rw [h, Text.joinLines]
      nth_rewrite 1 [← List.append_nil (Text.dropCarriageReturn pending.reverse)]
      refine normalizeFrom_congr _ fun last gap => ?_
      rw [hstop, h]
      rfl
    · rw [Text.joinLines_cons h]
      refine normalizeFrom_congr _ fun last gap => ?_
      rw [hstop, normalizeFrom_cons_blank (by decide)]
  | case4 pending c rest h ih =>
    rw [ih, List.reverse_cons, List.append_assoc, List.singleton_append]

theorem normalize_joinLines_lines (text : List Char) :
    normalize (Text.joinLines (Text.lines text)) = normalize text :=
  normalizeFrom_joinLines_linesFrom [] text none false

theorem normalize_joinLines_append (lines : List (List Char)) {blanks : List (List Char)}
    (h : ∀ line ∈ blanks, Text.isBlankLine line = true) :
    normalize (Text.joinLines (lines ++ blanks)) = normalize (Text.joinLines lines) := by
  obtain ⟨blank, hblank, heq⟩ := Text.exists_joinLines_append lines h
  rw [heq]
  nth_rewrite 2 [← List.append_nil (Text.joinLines lines)]
  exact (Respaced.stop hblank rfl).normalize_eq

theorem normalize_joinLines_map (lines : List (List Char)) (h : ∀ line ∈ lines, '\n' ∉ line) :
    normalize (Text.joinLines (lines.map Text.dropCarriageReturn)) =
      normalize (Text.joinLines lines) := by
  -- with a newline behind the last line, all of them are read in the same way
  have hread := Text.lines_joinLines_append h (List.cons_ne_nil [] [])
  have hnone : Text.lines (Text.joinLines [[]]) = [] := rfl
  rw [hnone, List.append_nil] at hread
  rw [← hread, normalize_joinLines_lines, normalize_joinLines_append]
  simp [Text.isBlankLine]

end Sexp

end GrammarKit
