import GrammarKit.Proofs.Loading

/-!
# Where tokens stand

The tokens of a text, those that the rules see and those that may stand anywhere, take stretches of
the text that do not overlap, and each kind comes in the order of the text.
-/

namespace GrammarKit

namespace Text

/-- The byte is one at which a character of the text starts, or the end of the text. -/
def IsBoundary (text : List Char) (byte : Nat) : Prop :=
  ∃ count, byte = byteLength (text.take count)

theorem isBoundary_zero (text : List Char) : IsBoundary text 0 :=
  ⟨0, rfl⟩

theorem isBoundary_byteLength (text : List Char) : IsBoundary text (byteLength text) :=
  ⟨text.length, by rw [List.take_length]⟩

theorem isBoundary_utf8ByteSize (text : String) : IsBoundary text.toList text.utf8ByteSize := by
  rw [← byteLength_toList]
  exact isBoundary_byteLength _

theorem byteLength_take_le (text : List Char) (count : Nat) :
    byteLength (text.take count) ≤ byteLength text := by
  have hsplit : byteLength (text.take count) + byteLength (text.drop count) = byteLength text := by
    rw [← byteLength_append, List.take_append_drop]
  omega

theorem eq_nil_of_byteLength {text : List Char} (h : byteLength text = 0) : text = [] := by
  cases text with
  | nil => rfl
  | cons c text =>
    have hpos := c.utf8Size_pos
    rw [byteLength_cons] at h
    omega

end Text

/-! ## Stretches that do not overlap -/

namespace Token

/-- The token takes at least one byte between `first` and `last`, and both of its ends satisfy
`bound`. -/
structure Between (bound : Nat → Prop) (first last : Nat) (t : Token) : Prop where
  first_le : first ≤ t.start
  lt : t.start < t.stop
  le_last : t.stop ≤ last
  start : bound t.start
  stop : bound t.stop

theorem Between.mono {bound : Nat → Prop} {first middle last : Nat} {t : Token}
    (h : t.Between bound middle last) (hle : first ≤ middle) : t.Between bound first last :=
  { h with first_le := Nat.le_trans hle h.first_le }

/-- One of the tokens stops before the other starts. -/
def Apart (t u : Token) : Prop :=
  t.stop ≤ u.start ∨ u.stop ≤ t.start

end Token

-- Whichever of the two lists a token joins, it is among both of them together.
theorem Lexed.mem_cons {isExtra : Bool} {t u : Token} {x : Lexed} :
    u ∈ (x.cons isExtra t).tokens ++ (x.cons isExtra t).extras ↔
      u = t ∨ u ∈ x.tokens ++ x.extras := by
  cases isExtra <;> simp [Lexed.cons]; grind

/-- The tokens of a text between two bytes stand side by side. -/
structure Lexed.Separated (bound : Nat → Prop) (first last : Nat) (x : Lexed) : Prop where
  tokens : ∀ t ∈ x.tokens, t.Between bound first last
  extras : ∀ t ∈ x.extras, t.Between bound first last
  tokensInOrder : x.tokens.Pairwise fun t u => t.stop ≤ u.start
  extrasInOrder : x.extras.Pairwise fun t u => t.stop ≤ u.start
  apart : ∀ t ∈ x.tokens, ∀ e ∈ x.extras, t.Apart e

namespace Lexed.Separated

variable {bound : Nat → Prop} {first middle last : Nat} {x : Lexed}

theorem empty (bound : Nat → Prop) (first last : Nat) : Separated bound first last {} := by
  constructor <;> simp

theorem mono (h : x.Separated bound middle last) (hle : first ≤ middle) :
    x.Separated bound first last :=
  { h with
    tokens := fun t ht => (h.tokens t ht).mono hle
    extras := fun t ht => (h.extras t ht).mono hle }

theorem cons (h : x.Separated bound middle last) (isExtra : Bool) {t : Token}
    (ht : t.Between bound first last) (hle : t.stop ≤ middle) :
    (x.cons isExtra t).Separated bound first last := by
  have hlt := ht.lt
  have hfirst := ht.first_le
  have hx := h.mono (show first ≤ middle by omega)
  have htokens (u : Token) (hu : u ∈ x.tokens) : t.stop ≤ u.start :=
    Nat.le_trans hle (h.tokens u hu).first_le
  have hextras (u : Token) (hu : u ∈ x.extras) : t.stop ≤ u.start :=
    Nat.le_trans hle (h.extras u hu).first_le
  -- whichever list the token joins, it stands before everything in both
  cases isExtra
  · refine ⟨?_, hx.extras, List.pairwise_cons.mpr ⟨htokens, h.tokensInOrder⟩, h.extrasInOrder, ?_⟩
    · exact List.forall_mem_cons.mpr ⟨ht, hx.tokens⟩
    · exact List.forall_mem_cons.mpr ⟨fun e he => .inl (hextras e he), h.apart⟩
  · refine ⟨hx.tokens, ?_, h.tokensInOrder, List.pairwise_cons.mpr ⟨hextras, h.extrasInOrder⟩, ?_⟩
    · exact List.forall_mem_cons.mpr ⟨ht, hx.extras⟩
    · intro u hu
      exact List.forall_mem_cons.mpr ⟨.inr (htokens u hu), h.apart u hu⟩

-- A character that no symbol accounts for, whether it joins a run of such characters or starts one.
theorem consUnknown (h : x.Separated bound middle last) (hfirst : bound first)
    (hmiddle : bound middle) (hlt : first < middle) (hle : middle ≤ last) :
    (x.consUnknown first middle).Separated bound first last := by
  have hone : (⟨errorSymbol, first, middle⟩ : Token).Between bound first last :=
    ⟨Nat.le_refl _, hlt, hle, hfirst, hmiddle⟩
  obtain ⟨tokens, extras⟩ := x
  match tokens with
  | [] => exact h.cons false hone (Nat.le_refl _)
  | t :: others =>
    unfold Lexed.consUnknown
    by_cases hjoin : t.isError ∧ t.start = middle
    · simp only [if_pos hjoin]
      have hx := h.mono (Nat.le_of_lt hlt)
      have ht := hx.tokens t List.mem_cons_self
      obtain ⟨horder, hothers⟩ := List.pairwise_cons.mp h.tokensInOrder
      refine ⟨?_, hx.extras, List.pairwise_cons.mpr ⟨horder, hothers⟩, h.extrasInOrder, ?_⟩
      · refine List.forall_mem_cons.mpr ⟨?_, fun u hu => hx.tokens u (List.mem_cons_of_mem t hu)⟩
        have hstop : first < t.stop := Nat.lt_of_lt_of_le hlt (hjoin.2 ▸ Nat.le_of_lt ht.lt)
        exact ⟨Nat.le_refl _, hstop, ht.le_last, hfirst, ht.stop⟩
      · refine List.forall_mem_cons.mpr ⟨?_, fun u hu => h.apart u (List.mem_cons_of_mem t hu)⟩
        -- an extra before the run would start before the character does
        intro e he
        refine (h.apart t List.mem_cons_self e he).imp id fun hstop => ?_
        have := (h.extras e he).first_le
        have := (h.extras e he).lt
        rw [hjoin.2] at hstop
        omega
    · simp only [if_neg hjoin]
      exact h.cons false hone (Nat.le_refl _)

end Lexed.Separated

/-- Every token is one of the grammar, or one that no symbol accounts for; the latter are never
among those that may stand anywhere. -/
structure Lexed.InGrammar (a : Artifact) (x : Lexed) : Prop where
  tokens : ∀ t ∈ x.tokens, t.isError = false → a.isToken t.symbol = true
  extras : ∀ t ∈ x.extras, a.isToken t.symbol = true

namespace Lexed.InGrammar

variable {a : Artifact} {x : Lexed}

theorem empty (a : Artifact) : InGrammar a {} := by
  constructor <;> simp

theorem cons (h : x.InGrammar a) (isExtra : Bool) {t : Token} (ht : a.isToken t.symbol = true) :
    (x.cons isExtra t).InGrammar a := by
  cases isExtra
  · exact ⟨List.forall_mem_cons.mpr ⟨fun _ => ht, h.tokens⟩, h.extras⟩
  · exact ⟨h.tokens, List.forall_mem_cons.mpr ⟨ht, h.extras⟩⟩

theorem consUnknown (h : x.InGrammar a) (start stop : Nat) :
    (x.consUnknown start stop).InGrammar a := by
  have hone : (⟨errorSymbol, start, stop⟩ : Token).isError = false →
      a.isToken errorSymbol = true := by simp [Token.isError]
  obtain ⟨tokens, extras⟩ := x
  match tokens with
  | [] => exact ⟨List.forall_mem_cons.mpr ⟨hone, h.tokens⟩, h.extras⟩
  | t :: others =>
    unfold Lexed.consUnknown
    obtain ⟨ht, hothers⟩ := List.forall_mem_cons.mp h.tokens
    by_cases hjoin : t.isError ∧ t.start = stop
    · simp only [if_pos hjoin]
      exact ⟨List.forall_mem_cons.mpr ⟨ht, hothers⟩, h.extras⟩
    · simp only [if_neg hjoin]
      exact ⟨List.forall_mem_cons.mpr ⟨hone, h.tokens⟩, h.extras⟩

end Lexed.InGrammar

namespace Lexer

variable {a : Artifact} {lexer : Lexer}

/-! ## One token -/

-- What is read is among what could be read.
theorem mem_candidates_of_longest {text : List Char} {c : Candidate}
    (h : lexer.longest text = some c) : c ∈ lexer.candidates text := by
  have hfold (cs : List Candidate) (best : Option Candidate)
      (hc : cs.foldl Candidate.longer best = some c) : best = some c ∨ c ∈ cs := by
    -- each candidate either takes the place of the best one or leaves it there
    induction cs generalizing best with
    | nil => exact .inl hc
    | cons d cs ih =>
      rcases ih _ hc with hbest | hmem
      · unfold Candidate.longer at hbest
        split at hbest
        · cases hbest
          exact .inr List.mem_cons_self
        · split at hbest
          · cases hbest
            exact .inr List.mem_cons_self
          · exact .inl hbest
      · exact .inr (List.mem_cons_of_mem d hmem)
  rcases hfold _ none h with hnone | hmem
  · cases hnone
  · exact hmem

-- What is read is a token of the grammar with a character at least.
theorem TokensOf.longest (hl : lexer.TokensOf a) {text : List Char} {c : Candidate}
    (h : lexer.longest text = some c) : a.isToken c.symbol = true ∧ 0 < c.length := by
  rcases List.mem_append.mp (mem_candidates_of_longest h) with hc | hc
  · obtain ⟨t, ht, hc⟩ := List.mem_filterMap.mp hc
    obtain ⟨htoken, hne⟩ := hl.literals t ht
    unfold LiteralToken.candidate? at hc
    split at hc
    · cases hc
      exact ⟨htoken, List.length_pos_iff.mpr hne⟩
    · cases hc
  · obtain ⟨t, ht, hc⟩ := List.mem_filterMap.mp hc
    unfold PatternToken.candidate? at hc
    split at hc
    · cases hc
      exact ⟨hl.patterns t ht, Nat.succ_pos _⟩
    · cases hc

/-! ## All tokens -/

-- The tokens stand side by side in what is left of the text behind the token found last.
theorem TokensOf.scan_separated (hl : lexer.TokensOf a) (bound : Nat → Prop) (skip offset : Nat)
    (text : List Char) (hbound : ∀ n, bound (offset + Text.byteLength (text.take n))) :
    (lexer.scan skip offset text).Separated bound (offset + Text.byteLength (text.take skip))
      (offset + Text.byteLength text) := by
  induction text generalizing skip offset with
  | nil => exact .empty _ _ _
  | cons c text ih =>
    have hpos := c.utf8Size_pos
    have hrest (n : Nat) : bound (offset + c.utf8Size + Text.byteLength (text.take n)) := by
      have := hbound (n + 1)
      rwa [List.take_succ_cons, Text.byteLength_cons, ← Nat.add_assoc] at this
    have hin (skip : Nat) : (lexer.scan skip (offset + c.utf8Size) text).Separated bound
        (offset + Text.byteLength ((c :: text).take (skip + 1)))
        (offset + Text.byteLength (c :: text)) := by
      have := ih skip (offset + c.utf8Size) hrest
      rwa [Nat.add_assoc, Nat.add_assoc] at this
    cases skip with
    -- the character belongs to the token found last
    | succ skip => exact hin skip
    | zero =>
      unfold scan
      split
      · exact (hin 0).mono (Nat.le_add_right _ _)
      · split
        · rename_i found hfound
          obtain ⟨-, hlength⟩ := hl.longest hfound
          -- the token takes `c` and the `n` characters that are skipped from here on
          obtain ⟨n, hn⟩ : ∃ n, found.length = n + 1 := ⟨found.length - 1, by omega⟩
          have hle := Text.byteLength_take_le (c :: text) (n + 1)
          simp only [hn, Nat.add_sub_cancel]
          refine (hin n).cons _ ⟨Nat.le_refl _, ?_, by simpa using hle, ?_, hbound (n + 1)⟩
            (Nat.le_refl _)
          · simp only [List.take_succ_cons, Text.byteLength_cons]
            omega
          · exact hbound 0
        · have hfirst := hbound 0
          have hnext := hrest 0
          have hx := hin 0
          simp only [List.take_succ_cons, List.take_zero, Text.byteLength_cons,
            Text.byteLength_nil, Nat.add_zero, Nat.zero_add] at hfirst hnext hx ⊢
          exact hx.consUnknown hfirst hnext (by omega) (by omega)

-- The tokens of a text are tokens of the grammar.
theorem TokensOf.scan_inGrammar (hl : lexer.TokensOf a) (skip offset : Nat) (text : List Char) :
    (lexer.scan skip offset text).InGrammar a := by
  induction text generalizing skip offset with
  | nil => exact .empty a
  | cons c text ih =>
    cases skip with
    | succ skip => exact ih skip _
    | zero =>
      unfold scan
      split
      · exact ih 0 _
      · split
        · rename_i found hfound
          exact (ih _ _).cons _ (hl.longest hfound).1
        · exact (ih 0 _).consUnknown _ _

/-- The tokens of a text stand side by side, with their ends between characters. -/
theorem TokensOf.tokenize_separated (hl : lexer.TokensOf a) (text : String) :
    (lexer.tokenize text).Separated (Text.IsBoundary text.toList) 0 text.utf8ByteSize := by
  have h := hl.scan_separated (Text.IsBoundary text.toList) 0 0 text.toList
    fun n => ⟨n, Nat.zero_add _⟩
  rwa [List.take_zero, Text.byteLength_nil, Nat.zero_add, Nat.zero_add,
    Text.byteLength_toList] at h

theorem TokensOf.tokenize_inGrammar (hl : lexer.TokensOf a) (text : String) :
    (lexer.tokenize text).InGrammar a :=
  hl.scan_inGrammar 0 0 text.toList

end Lexer

end GrammarKit
