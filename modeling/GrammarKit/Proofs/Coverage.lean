import GrammarKit.Proofs.WellFormed
import GrammarKit.Proofs.Lexing

/-!
# What tokens leave out

The tokens of a text leave out nothing but white space, and what no symbol accounts for is kept in
runs that are as long as possible: none of them holds white space, and no two of them touch.
-/

namespace GrammarKit

namespace Text

/-- The character of a text that a byte belongs to. -/
def charAt? : (text : List Char) → (byte : Nat) → Option Char
  | [], _ => none
  | c :: cs, byte => if byte < c.utf8Size then some c else charAt? cs (byte - c.utf8Size)

/-- The byte belongs to a character that is white space. -/
def BlankAt (text : List Char) (byte : Nat) : Prop :=
  ∃ c, charAt? text byte = some c ∧ isBlank c = true

theorem blankAt_cons_of_lt {c : Char} {cs : List Char} {byte : Nat} (h : byte < c.utf8Size) :
    BlankAt (c :: cs) byte ↔ isBlank c = true := by
  simp [BlankAt, charAt?, h]

theorem blankAt_cons_add (c : Char) (cs : List Char) (byte : Nat) :
    BlankAt (c :: cs) (c.utf8Size + byte) ↔ BlankAt cs byte := by
  have hnot : ¬ c.utf8Size + byte < c.utf8Size := by omega
  simp [BlankAt, charAt?, hnot]

end Text

/-- The byte is one of those that the token takes. -/
def Token.Holds (t : Token) (byte : Nat) : Prop :=
  t.start ≤ byte ∧ byte < t.stop

/-! ## White space and unknown characters -/

/-- Between two bytes the tokens leave out only blank bytes, and the runs of what no symbol accounts
for hold none of these and stand away from each other. -/
structure Lexed.Covers (blank : Nat → Prop) (first last : Nat) (x : Lexed) : Prop where
  gaps : ∀ byte, first ≤ byte → byte < last → blank byte ∨ ∃ t ∈ x.tokens ++ x.extras, t.Holds byte
  unknown : ∀ t ∈ x.tokens, t.isError = true → ∀ byte, t.Holds byte → ¬ blank byte
  away : x.tokens.Pairwise fun t u => t.isError = true → u.isError = true → t.stop < u.start

namespace Lexed.Covers

variable {bound blank : Nat → Prop} {first middle last : Nat} {x : Lexed}

theorem empty (blank : Nat → Prop) (last : Nat) : Covers blank last last {} :=
  ⟨fun byte hfirst hlast => absurd hfirst (Nat.not_le_of_lt hlast), by simp, by simp⟩

-- White space in front.
theorem skip (h : x.Covers blank middle last)
    (hblank : ∀ byte, first ≤ byte → byte < middle → blank byte) : x.Covers blank first last := by
  refine { h with gaps := fun byte hfirst hlast => ?_ }
  rcases Nat.lt_or_ge byte middle with hlt | hge
  · exact .inl (hblank byte hfirst hlt)
  · exact h.gaps byte hge hlast

-- A token in front.  If no symbol accounts for it, it must be a run of its own.
theorem cons (h : x.Covers blank middle last) (isExtra : Bool) {t : Token}
    (hstart : t.start = first) (hstop : t.stop = middle)
    (hunknown : t.isError = true → ∀ byte, t.Holds byte → ¬ blank byte)
    (haway : t.isError = true → ∀ u ∈ x.tokens, u.isError = true → t.stop < u.start) :
    (x.cons isExtra t).Covers blank first last := by
  have hgaps (byte : Nat) (hfirst : first ≤ byte) (hlast : byte < last) :
      blank byte ∨ t.Holds byte ∨ ∃ u ∈ x.tokens ++ x.extras, u.Holds byte := by
    rcases Nat.lt_or_ge byte middle with hlt | hge
    · exact .inr (.inl ⟨by omega, by omega⟩)
    · exact (h.gaps byte hge hlast).imp_right .inr
  have hcover : ∀ byte, first ≤ byte → byte < last → blank byte ∨
      ∃ u ∈ (x.cons isExtra t).tokens ++ (x.cons isExtra t).extras, u.Holds byte := by
    intro byte hfirst hlast
    refine (hgaps byte hfirst hlast).imp_right ?_
    rintro (hin | ⟨u, hu, hin⟩)
    · exact ⟨t, Lexed.mem_cons.mpr (.inl rfl), hin⟩
    · exact ⟨u, Lexed.mem_cons.mpr (.inr hu), hin⟩
  cases isExtra
  · refine ⟨hcover, List.forall_mem_cons.mpr ⟨hunknown, h.unknown⟩, ?_⟩
    exact List.pairwise_cons.mpr ⟨fun u hu ht => haway ht u hu, h.away⟩
  · exact ⟨hcover, h.unknown, h.away⟩

-- A run that starts where the first bytes stop is prolonged over them.
theorem prolong {t : Token} {others extras : List Token}
    (h : Covers blank middle last { tokens := t :: others, extras })
    (herror : t.isError = true) (hstart : t.start = middle) (hpos : t.start < t.stop)
    (hblank : ∀ byte, first ≤ byte → byte < middle → ¬ blank byte) :
    Covers blank first last { tokens := { t with start := first } :: others, extras } := by
  refine ⟨fun byte hfirst hlast => ?_, List.forall_mem_cons.mpr ⟨fun _ byte hin => ?_, ?_⟩, ?_⟩
  · rcases Nat.lt_or_ge byte middle with hbyte | hbyte
    · have hstop := Nat.lt_trans (hstart ▸ hbyte) hpos
      exact .inr ⟨{ t with start := first }, List.mem_cons_self, hfirst, hstop⟩
    · refine (h.gaps byte hbyte hlast).imp_right ?_
      rintro ⟨u, hu, hin⟩
      rcases List.mem_cons.mp hu with rfl | hu
      · exact ⟨_, List.mem_cons_self, hfirst, hin.2⟩
      · exact ⟨u, List.mem_cons_of_mem _ hu, hin⟩
  · rcases Nat.lt_or_ge byte middle with hbyte | hbyte
    · exact hblank byte hin.1 hbyte
    · exact h.unknown t List.mem_cons_self herror byte ⟨hstart ▸ hbyte, hin.2⟩
  · exact fun u hu => h.unknown u (List.mem_cons_of_mem t hu)
  · exact List.pairwise_cons.mpr (List.pairwise_cons.mp h.away)

-- A character that no symbol accounts for in front, whether it joins a run or starts one.
theorem consUnknown (h : x.Covers blank middle last) (hx : x.Separated bound middle last)
    (hblank : ∀ byte, first ≤ byte → byte < middle → ¬ blank byte) :
    (x.consUnknown first middle).Covers blank first last := by
  have hown (byte : Nat) (hin : (⟨errorSymbol, first, middle⟩ : Token).Holds byte) :
      ¬ blank byte := hblank byte hin.1 hin.2
  obtain ⟨tokens, extras⟩ := x
  match tokens with
  | [] => exact h.cons false rfl rfl (fun _ => hown) (by simp)
  | t :: others =>
    unfold Lexed.consUnknown
    obtain ⟨horder, -⟩ := List.pairwise_cons.mp hx.tokensInOrder
    have ht := hx.tokens t List.mem_cons_self
    by_cases hjoin : t.isError ∧ t.start = middle
    · simp only [if_pos hjoin]
      exact h.prolong hjoin.1 hjoin.2 ht.lt hblank
    · simp only [if_neg hjoin]
      refine h.cons false rfl rfl (fun _ => hown) fun _ => List.forall_mem_cons.mpr ⟨?_, ?_⟩
      · intro herror
        have hne : t.start ≠ middle := fun heq => hjoin ⟨herror, heq⟩
        exact Nat.lt_of_le_of_ne ht.first_le hne.symm
      -- the others stand behind a token that starts no earlier than the character stops
      · intro u hu _
        have := horder u hu
        have := ht.first_le
        have := ht.lt
        show middle < u.start
        omega

end Lexed.Covers

/-! ## Tokens that may stand anywhere -/

/-- The symbols that may stand anywhere are those of the extras, and of no other token. -/
structure Lexed.Sorted (extras : List Symbol) (x : Lexed) : Prop where
  tokens : ∀ t ∈ x.tokens, t.symbol ∉ extras
  extras : ∀ t ∈ x.extras, t.symbol ∈ extras

namespace Lexed.Sorted

variable {extras : List Symbol} {x : Lexed}

theorem empty (extras : List Symbol) : Sorted extras {} := by
  constructor <;> simp

theorem cons (h : x.Sorted extras) (t : Token) :
    (x.cons (extras.contains t.symbol) t).Sorted extras := by
  cases hextra : extras.contains t.symbol
  · refine ⟨List.forall_mem_cons.mpr ⟨?_, h.tokens⟩, h.extras⟩
    simpa using hextra
  · refine ⟨h.tokens, List.forall_mem_cons.mpr ⟨?_, h.extras⟩⟩
    simpa using hextra

theorem consUnknown (h : x.Sorted extras) (herror : errorSymbol ∉ extras) (start stop : Nat) :
    (x.consUnknown start stop).Sorted extras := by
  obtain ⟨tokens, others⟩ := x
  match tokens with
  | [] => exact ⟨List.forall_mem_cons.mpr ⟨herror, h.tokens⟩, h.extras⟩
  | t :: tokens =>
    unfold Lexed.consUnknown
    obtain ⟨ht, htokens⟩ := List.forall_mem_cons.mp h.tokens
    by_cases hjoin : t.isError ∧ t.start = stop
    · simp only [if_pos hjoin]
      exact ⟨List.forall_mem_cons.mpr ⟨ht, htokens⟩, h.extras⟩
    · simp only [if_neg hjoin]
      exact ⟨List.forall_mem_cons.mpr ⟨herror, h.tokens⟩, h.extras⟩

end Lexed.Sorted

/-! ## The tokens of a text -/

namespace Lexer

variable {a : Artifact} {lexer : Lexer}

-- What is left of the text behind the token found last is covered.
theorem TokensOf.scan_covers (hl : lexer.TokensOf a) (herror : a.isToken errorSymbol = false)
    (blank : Nat → Prop) (skip offset : Nat) (text : List Char)
    (hblank : ∀ byte, byte < Text.byteLength text →
      (blank (offset + byte) ↔ Text.BlankAt text byte)) :
    (lexer.scan skip offset text).Covers blank (offset + Text.byteLength (text.take skip))
      (offset + Text.byteLength text) := by
  induction text generalizing skip offset with
  | nil =>
    rw [List.take_nil]
    exact .empty blank offset
  | cons c text ih =>
    have hpos := c.utf8Size_pos
    have hrest (byte : Nat) (hbyte : byte < Text.byteLength text) :
        blank (offset + c.utf8Size + byte) ↔ Text.BlankAt text byte := by
      rw [Nat.add_assoc, hblank (c.utf8Size + byte) (by simpa using hbyte),
        Text.blankAt_cons_add]
    have hin (skip : Nat) : (lexer.scan skip (offset + c.utf8Size) text).Covers blank
        (offset + Text.byteLength ((c :: text).take (skip + 1)))
        (offset + Text.byteLength (c :: text)) := by
      have := ih skip (offset + c.utf8Size) hrest
      rwa [Nat.add_assoc, Nat.add_assoc] at this
    have hfirst (byte : Nat) (hle : offset ≤ byte) (hlt : byte < offset + c.utf8Size) :
        blank byte ↔ Text.isBlank c = true := by
      obtain ⟨k, rfl⟩ := Nat.exists_eq_add_of_le hle
      rw [hblank k (by simp; omega), Text.blankAt_cons_of_lt (by omega)]
    cases skip with
    -- the character belongs to the token found last
    | succ skip => exact hin skip
    | zero =>
      have hnext : (lexer.scan 0 (offset + c.utf8Size) text).Covers blank (offset + c.utf8Size)
          (offset + Text.byteLength (c :: text)) := by
        simpa using hin 0
      unfold scan
      split
      case isTrue hc =>
        exact hnext.skip fun byte hle hlt => (hfirst byte hle hlt).mpr hc
      case isFalse hc =>
        split
        case h_1 found hfound =>
          obtain ⟨htoken, hlength⟩ := hl.longest hfound
          have hknown (stop : Nat) : (⟨found.symbol, offset, stop⟩ : Token).isError ≠ true := by
            intro h
            have hsymbol : found.symbol = errorSymbol := beq_iff_eq.mp h
            rw [hsymbol, herror] at htoken
            cases htoken
          obtain ⟨n, hn⟩ : ∃ n, found.length = n + 1 := ⟨found.length - 1, by omega⟩
          simp only [hn, Nat.add_sub_cancel]
          exact (hin n).cons _ rfl rfl (fun h => absurd h (hknown _)) fun h => absurd h (hknown _)
        case h_2 =>
          have hseparated := hl.scan_separated (fun _ => True) 0 (offset + c.utf8Size) text
            fun _ => trivial
          rw [List.take_zero, Text.byteLength_nil, Nat.add_zero, Nat.add_assoc,
            ← Text.byteLength_cons] at hseparated
          rw [List.take_zero, Text.byteLength_nil, Nat.add_zero]
          refine hnext.consUnknown hseparated fun byte hle hlt hbyte => hc ?_
          exact (hfirst byte hle hlt).mp hbyte

theorem scan_sorted (lexer : Lexer) (herror : errorSymbol ∉ lexer.extras) (skip offset : Nat)
    (text : List Char) : (lexer.scan skip offset text).Sorted lexer.extras := by
  induction text generalizing skip offset with
  | nil => exact .empty _
  | cons c text ih =>
    cases skip with
    | succ skip => exact ih skip _
    | zero =>
      unfold scan
      split
      · exact ih 0 _
      · split
        · rename_i found _
          exact (ih (found.length - 1) _).cons ⟨found.symbol, offset, _⟩
        · exact (ih 0 _).consUnknown herror _ _

end Lexer

theorem Token.Apart.symm {t u : Token} (h : t.Apart u) : u.Apart t :=
  Or.symm h

theorem Lexed.Separated.pairwise_apart {bound : Nat → Prop} {first last : Nat} {x : Lexed}
    (h : x.Separated bound first last) : (x.tokens ++ x.extras).Pairwise Token.Apart :=
  List.pairwise_append.mpr ⟨h.tokensInOrder.imp .inl, h.extrasInOrder.imp .inl, h.apart⟩

/-- A text is divided into tokens, some of them extras, and white space.  Each token takes at least
one byte and both of its ends stand between characters. -/
structure Lexed.Divides (extras : List Symbol) (text : List Char) (x : Lexed) : Prop where
  separated : x.Separated (Text.IsBoundary text) 0 (Text.byteLength text)
  disjoint : (x.tokens ++ x.extras).Pairwise Token.Apart
  covers : x.Covers (Text.BlankAt text) 0 (Text.byteLength text)
  sorted : x.Sorted extras

theorem Language.Loadable.errorSymbol_not_mem_extras {l : Language} (hl : l.Loadable) :
    errorSymbol ∉ l.artifact.extras := by
  intro hmem
  obtain ⟨compile, hwell⟩ := hl.wellFormed
  obtain ⟨info, hinfo, -⟩ := hwell.tokens errorSymbol (.inl hmem)
  exact hl.ne_errorSymbol hinfo rfl

/-- **Lexing covers the text.** -/
theorem Language.Loadable.tokenize_divides {l : Language} (hl : l.Loadable) (text : String) :
    (l.lexer.tokenize text).Divides l.artifact.extras text.toList := by
  have hseparated := hl.tokensOf.tokenize_separated text
  rw [← Text.byteLength_toList] at hseparated
  have hcovers := hl.tokensOf.scan_covers hl.isToken_errorSymbol (Text.BlankAt text.toList) 0 0
    text.toList fun byte _ => by rw [Nat.zero_add]
  rw [List.take_zero, Text.byteLength_nil, Nat.zero_add, Nat.zero_add] at hcovers
  have hsorted := l.lexer.scan_sorted (hl.extras_eq ▸ hl.errorSymbol_not_mem_extras) 0 0 text.toList
  rw [hl.extras_eq] at hsorted
  exact ⟨hseparated, hseparated.pairwise_apart, hcovers, hsorted⟩

theorem Language.Loadable.tokenize_divides_sums :
    (Language.sums.lexer.tokenize "1 @#a@ é@;").Divides Artifact.sums.extras
      "1 @#a@ é@;".toList :=
  tokenize_divides Language.sums_loadable "1 @#a@ é@;"

-- An extra and white space both end a run of unknown characters.
example : Language.sums.lexer.tokenize "1 @#a@ é@;" =
    { tokens := [⟨3, 0, 1⟩, ⟨errorSymbol, 2, 3⟩, ⟨errorSymbol, 5, 6⟩, ⟨errorSymbol, 7, 10⟩,
        ⟨2, 10, 11⟩]
      extras := [⟨4, 3, 5⟩] } := by
  decide

end GrammarKit
