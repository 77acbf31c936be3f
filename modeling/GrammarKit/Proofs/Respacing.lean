import GrammarKit.Sexp

/-!
# White space in S-expressions

The white space of an S-expression can be changed without changing what is written.  A text and
every other layout of it are reduced to the same characters.
-/

namespace GrammarKit.Sexp

/-! ## Layouts -/

/-- The texts differ in white space only: runs of it are other runs, and there may be any behind an
opening parenthesis, before a closing one and at both ends. -/
inductive Respaced : List Char → List Char → Prop
  | refl {text} : Respaced text text
  | trans {text text' text''} :
      Respaced text text' → Respaced text' text'' → Respaced text text''
  | run {before blank blank' after} :
      Text.isBlankLine blank = true → Text.isBlankLine blank' = true → blank ≠ [] → blank' ≠ [] →
      Respaced (before ++ blank ++ after) (before ++ blank' ++ after)
  | opening {before blank blank' after} :
      Text.isBlankLine blank = true → Text.isBlankLine blank' = true →
      Respaced (before ++ '(' :: blank ++ after) (before ++ '(' :: blank' ++ after)
  | closing {before blank blank' after} :
      Text.isBlankLine blank = true → Text.isBlankLine blank' = true →
      Respaced (before ++ blank ++ ')' :: after) (before ++ blank' ++ ')' :: after)
  | start {blank blank' after} :
      Text.isBlankLine blank = true → Text.isBlankLine blank' = true →
      Respaced (blank ++ after) (blank' ++ after)
  | stop {before blank blank'} :
      Text.isBlankLine blank = true → Text.isBlankLine blank' = true →
      Respaced (before ++ blank) (before ++ blank')

/-! ## White space that makes no difference -/

variable {last : Option Char} {gap : Bool} {c : Char} {blank text text' : List Char}

theorem normalizeFrom_cons_blank (h : Text.isBlank c = true) :
    normalizeFrom last gap (c :: text) = normalizeFrom last last.isSome text := by
  rw [normalizeFrom, if_pos h]

-- A character other than white space, behind a space if there is to be one.
theorem normalizeFrom_cons (h : Text.isBlank c = false) :
    normalizeFrom last gap (c :: text) =
      (if gap && c != ')' && last != some '(' then [' '] else []) ++
        c :: normalizeFrom (some c) false text := by
  rw [normalizeFrom, if_neg (by simp [h])]
  split <;> rfl

-- Texts that are reduced alike are reduced alike behind the same text.
theorem normalizeFrom_congr (before : List Char)
    (h : ∀ last gap, normalizeFrom last gap text = normalizeFrom last gap text') :
    normalizeFrom last gap (before ++ text) = normalizeFrom last gap (before ++ text') := by
  induction before generalizing last gap with
  | nil => exact h last gap
  | cons c before ih =>
    rw [List.cons_append, List.cons_append]
    cases hc : Text.isBlank c with
    | true => rw [normalizeFrom_cons_blank hc, normalizeFrom_cons_blank hc, ih]
    | false => rw [normalizeFrom_cons hc, normalizeFrom_cons hc, ih]

-- A run of white space only tells that there is some.
theorem normalizeFrom_run (h : Text.isBlankLine blank = true) (hne : blank ≠ []) :
    normalizeFrom last gap (blank ++ text) = normalizeFrom last last.isSome text := by
  induction blank generalizing gap with
  | nil => exact absurd rfl hne
  | cons c blank ih =>
    obtain ⟨hc, hblank⟩ := Bool.and_eq_true_iff.mp h
    rw [List.cons_append, normalizeFrom_cons_blank hc]
    cases blank with
    | nil => rfl
    | cons d blank => exact ih hblank (List.cons_ne_nil d blank)

-- White space may stand there or not where the text behind it does not ask.
theorem normalizeFrom_blank (h : Text.isBlankLine blank = true)
    (heq : normalizeFrom last last.isSome text = normalizeFrom last gap text) :
    normalizeFrom last gap (blank ++ text) = normalizeFrom last gap text := by
  cases blank with
  | nil => rfl
  | cons c blank => rw [normalizeFrom_run h (List.cons_ne_nil c blank), heq]

theorem normalizeFrom_opening (gap gap' : Bool) (text : List Char) :
    normalizeFrom (some '(') gap text = normalizeFrom (some '(') gap' text := by
  cases text with
  | nil => rfl
  | cons c text =>
    cases h : Text.isBlank c with
    | true => rw [normalizeFrom_cons_blank h, normalizeFrom_cons_blank h]
    | false => simp [normalizeFrom_cons h]

theorem normalizeFrom_closing (gap gap' : Bool) (text : List Char) :
    normalizeFrom last gap (')' :: text) = normalizeFrom last gap' (')' :: text) := by
  rw [normalizeFrom_cons (by decide), normalizeFrom_cons (by decide)]
  simp

/-- **Layouts of one text are reduced to the same characters.** -/
theorem Respaced.normalize_eq (h : Respaced text text') : normalize text = normalize text' := by
  unfold normalize
  induction h with
  | refl => rfl
  | trans _ _ ih ih' => exact ih.trans ih'
  | @run before blank blank' after hblank hblank' hne hne' =>
    rw [List.append_assoc, List.append_assoc]
    refine normalizeFrom_congr before fun last gap => ?_
    rw [normalizeFrom_run hblank hne, normalizeFrom_run hblank' hne']
  | @opening before blank blank' after hblank hblank' =>
    rw [List.append_assoc, List.append_assoc]
    refine normalizeFrom_congr before fun last gap => ?_
    rw [List.cons_append, List.cons_append, normalizeFrom_cons (by decide),
      normalizeFrom_cons (by decide), normalizeFrom_blank hblank (normalizeFrom_opening _ _ _),
      normalizeFrom_blank hblank' (normalizeFrom_opening _ _ _)]
  | @closing before blank blank' after hblank hblank' =>
    rw [List.append_assoc, List.append_assoc]
    refine normalizeFrom_congr before fun last gap => ?_
    rw [normalizeFrom_blank hblank (normalizeFrom_closing _ _ _),
      normalizeFrom_blank hblank' (normalizeFrom_closing _ _ _)]
  | start hblank hblank' =>
    exact (normalizeFrom_blank hblank rfl).trans (normalizeFrom_blank hblank' rfl).symm
  | @stop before blank blank' hblank hblank' =>
    refine normalizeFrom_congr before fun last gap => ?_
    have hnil {blank : List Char} (h : Text.isBlankLine blank = true) :
        normalizeFrom last gap blank = [] := by
      rw [← List.append_nil blank]
      exact normalizeFrom_blank h (by rfl)
    rw [hnil hblank, hnil hblank']

end GrammarKit.Sexp
