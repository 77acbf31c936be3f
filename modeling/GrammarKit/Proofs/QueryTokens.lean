import GrammarKit.Query.Reader

/-!
# Tokens of queries

The written form of a query is a row of tokens with white space and comments between them.  What
the reader passes over between tokens is this white space, and it takes names as far as they go.
-/

namespace GrammarKit

inductive QueryToken where
  | openNode
  | closeNode
  | openGroup
  | closeGroup
  | kind (name : String)
  | string (text : String)
  | capture (name : String)
deriving DecidableEq, Repr

/-- The characters `text` with some behind backslashes: quotes and backslashes at least.  There an
`n` stands for a line feed, a `t` for a tab and every other character for itself. -/
inductive Escaped : (text written : List Char) → Prop
  | nil : Escaped [] []
  | plain {c text written} : c ≠ '"' → c ≠ '\\' → Escaped text written →
      Escaped (c :: text) (c :: written)
  | lineFeed {text written} : Escaped text written → Escaped ('\n' :: text) ('\\' :: 'n' :: written)
  | tab {text written} : Escaped text written → Escaped ('\t' :: text) ('\\' :: 't' :: written)
  | escape {c text written} : c ≠ 'n' → c ≠ 't' → Escaped text written →
      Escaped (c :: text) ('\\' :: c :: written)

/-- Names of kinds are made of letters, digits, `_` and `-`. -/
def IsKindChar (c : Char) : Prop :=
  Text.isAlphanumeric c = true ∨ c = '_' ∨ c = '-'

/-- Names of captures are made of them and of dots. -/
def IsCaptureChar (c : Char) : Prop :=
  IsKindChar c ∨ c = '.'

/-- How a token is written. -/
inductive QueryToken.Spelled : QueryToken → List Char → Prop
  | openNode : Spelled .openNode ['(']
  | closeNode : Spelled .closeNode [')']
  | openGroup : Spelled .openGroup ['[']
  | closeGroup : Spelled .closeGroup [']']
  | kind {name} : name.toList ≠ [] → (∀ c ∈ name.toList, IsKindChar c) →
      Spelled (.kind name) name.toList
  | string {text written} : Escaped text.toList written →
      Spelled (.string text) ('"' :: (written ++ ['"']))
  | capture {name} : name.toList ≠ [] → (∀ c ∈ name.toList, IsCaptureChar c) →
      Spelled (.capture name) ('@' :: name.toList)

/-- White space and comments, each of them up to the end of its line. -/
inductive Gap : List Char → Prop
  | nil : Gap []
  | blank {c rest} : Text.isBlank c = true → Gap rest → Gap (c :: rest)
  | comment {body rest} : '\n' ∉ body → Gap rest → Gap (';' :: (body ++ '\n' :: rest))

/-- The tokens are written one after the other with gaps between them; the last comment may go on
to the end. -/
inductive Written : List QueryToken → List Char → Prop
  | nil {gap} : Gap gap → Written [] gap
  | comment {gap body} : Gap gap → '\n' ∉ body → Written [] (gap ++ ';' :: body)
  | cons {gap token spelled tokens rest} : Gap gap → token.Spelled spelled →
      Written tokens rest → Written (token :: tokens) (gap ++ (spelled ++ rest))

/-- What a character stands for behind a backslash. -/
theorem Escaped.unescape {text written : List Char} (h : Escaped text written) (c : Char) :
    Escaped (unescape c :: text) ('\\' :: c :: written) := by
  by_cases hn : c = 'n'
  · subst hn
    exact .lineFeed h
  by_cases ht : c = 't'
  · subst ht
    exact .tab h
  rw [GrammarKit.unescape, if_neg hn, if_neg ht]
  exact .escape hn ht h

theorem Gap.append {gap gap' : List Char} (h : Gap gap) (h' : Gap gap') : Gap (gap ++ gap') := by
  induction h with
  | nil => exact h'
  | blank hblank _ ih => exact .blank hblank ih
  | comment hbody _ ih =>
    rw [List.cons_append, List.append_assoc]
    exact .comment hbody ih

theorem Written.behindGap {gap cs : List Char} {tokens : List QueryToken} (hgap : Gap gap)
    (h : Written tokens cs) : Written tokens (gap ++ cs) := by
  cases h with
  | nil h => exact .nil (hgap.append h)
  | comment h hbody =>
    rw [← List.append_assoc]
    exact .comment (hgap.append h) hbody
  | cons h hspelled hrest =>
    rw [← List.append_assoc]
    exact .cons (hgap.append h) hspelled hrest

/-! ## Characters -/

theorem isKindChar_iff {c : Char} : isKindChar c = true ↔ IsKindChar c := by
  rw [isKindChar, Bool.or_eq_true, Bool.or_eq_true, beq_iff_eq, beq_iff_eq, or_assoc, IsKindChar]

theorem isCaptureChar_iff {c : Char} : isCaptureChar c = true ↔ IsCaptureChar c := by
  rw [isCaptureChar, Bool.or_eq_true, isKindChar_iff, beq_iff_eq, IsCaptureChar]

/-- The code points of white space. -/
def blankCodes : List Nat :=
  [0x9, 0xA, 0xB, 0xC, 0xD, 0x20, 0x85, 0xA0, 0x1680, 0x2000, 0x2001, 0x2002, 0x2003, 0x2004,
    0x2005, 0x2006, 0x2007, 0x2008, 0x2009, 0x200A, 0x2028, 0x2029, 0x202F, 0x205F, 0x3000]

theorem mem_blankCodes {c : Char} (h : Text.isBlank c = true) : c.toNat ∈ blankCodes := by
  simp only [Text.isBlank, Bool.or_eq_true, Bool.and_eq_true, decide_eq_true_eq, beq_iff_eq] at h
  simp only [blankCodes, List.mem_cons, List.not_mem_nil, or_false]
  omega

theorem isCaptureChar_of_isBlank {c : Char} (h : Text.isBlank c = true) :
    isCaptureChar c = false := by
  have hcodes : ∀ n ∈ blankCodes, isCaptureChar (Char.ofNat n) = false := by decide +kernel
  have := hcodes c.toNat (mem_blankCodes h)
  rwa [Char.ofNat_toNat] at this

theorem isCaptureChar_of_isKindChar {c : Char} (h : isKindChar c = true) :
    isCaptureChar c = true := by
  rw [isCaptureChar, h, Bool.true_or]

/-! ## What is passed over -/

/-- What is left of a text behind the white space and the comments that it starts with. -/
def afterTrivia (inComment : Bool) (cs : List Char) : List Char :=
  cs.drop (QueryReading.triviaLength inComment cs)

section

variable {c : Char} {cs gap body rest : List Char} {token : QueryToken} {tokens : List QueryToken}

theorem afterTrivia_nil (inComment : Bool) : afterTrivia inComment [] = [] := by
  cases inComment <;> rfl

theorem afterTrivia_line (c : Char) (cs : List Char) :
    afterTrivia true (c :: cs) = afterTrivia (c != '\n') cs := rfl

theorem afterTrivia_blank (h : Text.isBlank c = true) :
    afterTrivia false (c :: cs) = afterTrivia false cs := by
  rw [afterTrivia, QueryReading.triviaLength, if_pos h]
  rfl

theorem afterTrivia_semicolon (cs : List Char) :
    afterTrivia false (';' :: cs) = afterTrivia true cs := rfl

theorem afterTrivia_of_not_blank (hblank : Text.isBlank c = false) (hc : c ≠ ';') :
    afterTrivia false (c :: cs) = c :: cs := by
  rw [afterTrivia, QueryReading.triviaLength, hblank, if_neg Bool.false_ne_true, if_neg hc]
  rfl

theorem afterTrivia_comment (hbody : '\n' ∉ body) :
    afterTrivia true (body ++ '\n' :: rest) = afterTrivia false rest := by
  induction body with
  | nil => rfl
  | cons c body ih =>
    rw [List.mem_cons, not_or] at hbody
    rw [List.cons_append, afterTrivia_line, bne_iff_ne.mpr (Ne.symm hbody.1), ih hbody.2]

theorem afterTrivia_lastComment (hbody : '\n' ∉ body) : afterTrivia true body = [] := by
  induction body with
  | nil => rfl
  | cons c body ih =>
    rw [List.mem_cons, not_or] at hbody
    rw [afterTrivia_line, bne_iff_ne.mpr (Ne.symm hbody.1), ih hbody.2]

theorem Gap.afterTrivia_append (h : Gap gap) (cs : List Char) :
    afterTrivia false (gap ++ cs) = afterTrivia false cs := by
  induction h with
  | nil => rfl
  | blank hblank _ ih => rw [List.cons_append, afterTrivia_blank hblank, ih]
  | comment hbody _ ih =>
    rw [List.cons_append, afterTrivia_semicolon, List.append_assoc, List.cons_append,
      afterTrivia_comment hbody, ih]

theorem Gap.afterTrivia_eq_nil (h : Gap gap) : afterTrivia false gap = [] := by
  have := h.afterTrivia_append []
  rwa [List.append_nil, afterTrivia_nil] at this

-- A token starts with a character that is not passed over.
theorem QueryToken.Spelled.exists_cons (h : token.Spelled cs) :
    ∃ c rest, cs = c :: rest ∧ Text.isBlank c = false ∧ c ≠ ';' := by
  cases h
  case kind name hne hname =>
    obtain ⟨c, rest, heq⟩ := List.exists_cons_of_ne_nil hne
    have hc := isCaptureChar_of_isKindChar
      (isKindChar_iff.mpr (hname c (heq ▸ List.mem_cons_self)))
    refine ⟨c, rest, heq, ?_, ?_⟩
    · cases hblank : Text.isBlank c
      · rfl
      · rw [isCaptureChar_of_isBlank hblank] at hc
        cases hc
    · rintro rfl
      exact absurd hc (by decide +kernel)
  all_goals exact ⟨_, _, rfl, by decide, by decide⟩

theorem QueryToken.Spelled.afterTrivia_eq (h : token.Spelled cs) (rest : List Char) :
    afterTrivia false (cs ++ rest) = cs ++ rest := by
  obtain ⟨c, cs, rfl, hblank, hc⟩ := h.exists_cons
  exact afterTrivia_of_not_blank hblank hc

theorem Written.tokens_eq_nil (h : Written tokens []) : tokens = [] := by
  generalize hcs : ([] : List Char) = cs at h
  cases h with
  | nil => rfl
  | comment => rfl
  | cons _ hspelled =>
    obtain ⟨c, rest, rfl, -⟩ := hspelled.exists_cons
    simp at hcs

-- What is passed over in front of a text ends there, or as the last comment with the text.
theorem written_of_afterTrivia (h : Written tokens (afterTrivia false cs)) : Written tokens cs := by
  have hboth : (Written tokens (afterTrivia false cs) → Written tokens cs) ∧
      ∀ body, '\n' ∉ body → Written tokens (afterTrivia true cs) →
        Written tokens (';' :: (body ++ cs)) := by
    clear h
    induction cs with
    | nil =>
      refine ⟨id, fun body hbody h => ?_⟩
      rw [h.tokens_eq_nil, List.append_nil]
      exact .comment .nil hbody
    | cons c cs ih =>
      constructor
      · intro h
        cases hblank : Text.isBlank c
        · by_cases hc : c = ';'
          · subst hc
            exact ih.2 [] List.not_mem_nil h
          · rwa [afterTrivia_of_not_blank hblank hc] at h
        · rw [afterTrivia_blank hblank] at h
          exact (ih.1 h).behindGap (.blank hblank .nil)
      · intro body hbody h
        rw [afterTrivia_line] at h
        by_cases hc : c = '\n'
        · subst hc
          have := (ih.1 h).behindGap (.comment hbody .nil)
          rwa [List.cons_append, List.append_assoc] at this
        · rw [bne_iff_ne.mpr hc] at h
          have hline : '\n' ∉ body ++ [c] := by simp [hbody, Ne.symm hc]
          have := ih.2 (body ++ [c]) hline h
          rwa [List.append_assoc] at this
  exact hboth.1 h

theorem Written.afterTrivia_eq_nil (h : Written [] cs) : afterTrivia false cs = [] := by
  cases h with
  | nil hgap => exact hgap.afterTrivia_eq_nil
  | comment hgap hbody =>
    rw [hgap.afterTrivia_append, afterTrivia_semicolon, afterTrivia_lastComment hbody]

/-- Behind what is passed over, the first token is spelled. -/
theorem Written.exists_spelled (h : Written (token :: tokens) cs) :
    ∃ spelled rest, token.Spelled spelled ∧ Written tokens rest ∧
      afterTrivia false cs = spelled ++ rest := by
  cases h with
  | cons hgap hspelled hrest =>
    exact ⟨_, _, hspelled, hrest, by rw [hgap.afterTrivia_append, hspelled.afterTrivia_eq]⟩

theorem Written.afterTrivia (h : Written tokens cs) : Written tokens (afterTrivia false cs) := by
  cases tokens with
  | nil =>
    rw [h.afterTrivia_eq_nil]
    exact .nil .nil
  | cons token tokens =>
    obtain ⟨spelled, rest, hspelled, hrest, heq⟩ := h.exists_spelled
    rw [heq]
    exact .cons .nil hspelled hrest

/-! ## How far names go -/

/-- The character that tells which token it is; names of kinds have none. -/
def QueryToken.sign? : QueryToken → Option Char
  | .openNode => some '('
  | .closeNode => some ')'
  | .openGroup => some '['
  | .closeGroup => some ']'
  | .kind _ => none
  | .string _ => some '"'
  | .capture _ => some '@'

/-- The first of the tokens, if there is one, has a sign, so that it can stand right behind a
name. -/
def Apart (tokens : List QueryToken) : Prop :=
  ∀ token ∈ tokens.head?, ∃ c, token.sign? = some c

theorem QueryToken.Spelled.exists_of_sign? (h : token.Spelled cs) (hsign : token.sign? = some c) :
    ∃ rest, cs = c :: rest := by
  cases h <;> cases hsign <;> exact ⟨_, rfl⟩

theorem isCaptureChar_of_sign? (h : token.sign? = some c) : isCaptureChar c = false := by
  cases token <;> cases h <;> decide +kernel

theorem Gap.isCaptureChar_head (h : Gap (c :: gap)) : isCaptureChar c = false := by
  generalize hcs : c :: gap = cs at h
  cases h with
  | nil => cases hcs
  | blank hblank =>
    cases hcs
    exact isCaptureChar_of_isBlank hblank
  | comment =>
    cases hcs
    decide +kernel

-- In front of a token with a sign, a name ends.
theorem Written.isCaptureChar_head (h : Written tokens (c :: cs)) (htokens : Apart tokens) :
    isCaptureChar c = false := by
  generalize hcs : c :: cs = text at h
  cases h with
  | nil hgap => exact Gap.isCaptureChar_head (hcs ▸ hgap)
  | @comment gap body hgap =>
    cases gap with
    | nil =>
      cases hcs
      decide +kernel
    | cons =>
      cases hcs
      exact hgap.isCaptureChar_head
  | @cons gap token spelled tokens rest hgap hspelled =>
    cases gap with
    | nil =>
      obtain ⟨c', hsign⟩ := htokens token rfl
      obtain ⟨rest', rfl⟩ := hspelled.exists_of_sign? hsign
      cases hcs
      exact isCaptureChar_of_sign? hsign
    | cons =>
      cases hcs
      exact hgap.isCaptureChar_head

theorem takeWhile_of_written {p : Char → Bool} {name : List Char} (hname : ∀ c ∈ name, p c = true)
    (hp : ∀ c, p c = true → isCaptureChar c = true) (h : Written tokens cs)
    (htokens : Apart tokens) : (name ++ cs).takeWhile p = name := by
  rw [List.takeWhile_append_of_pos hname]
  cases cs with
  | nil => exact List.append_nil _
  | cons c cs =>
    have hc : p c = false := Bool.eq_false_iff.mpr fun hc => by
      have := hp c hc
      rw [h.isCaptureChar_head htokens] at this
      cases this
    rw [List.takeWhile_cons, hc, if_neg Bool.false_ne_true, List.append_nil]

end

end GrammarKit
