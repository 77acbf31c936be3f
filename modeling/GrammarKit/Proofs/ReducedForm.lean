import GrammarKit.Proofs.Respacing
import Mathlib.Data.List.Chain

/-!
# The reduced form of S-expressions

White space tells no more in an S-expression than which of its characters stand apart, and behind an
opening parenthesis or before a closing one not even that.  Among the texts that tell the same there
is exactly one in which no white space can be spared, and this is the one that a text is reduced to.
-/

namespace GrammarKit.Sexp

/-! ## What white space tells -/

/-- The characters of a text that are no white space. -/
def marks (text : List Char) : List Char :=
  text.filter (!Text.isBlank ·)

/-- White space stands between the mark with the number `i`, counted from zero, and the next
one. -/
def SeparatedAt (text : List Char) (i : Nat) : Prop :=
  ∃ before blank after, text = before ++ blank :: after ∧ Text.isBlank blank = true ∧
    (marks before).length = i + 1 ∧ marks after ≠ []

/-- The texts have the same marks, and white space between the same of them, not counting what
stands behind an opening parenthesis or before a closing one. -/
structure SameLayout (text text' : List Char) : Prop where
  marks_eq : marks text = marks text'
  separatedAt_iff : ∀ i c d, (marks text)[i]? = some c → (marks text)[i + 1]? = some d →
    c ≠ '(' → d ≠ ')' → (SeparatedAt text i ↔ SeparatedAt text' i)

/-- White space in the text is single spaces between two marks, none of them behind an opening
parenthesis or before a closing one. -/
structure IsReduced (text : List Char) : Prop where
  space : ∀ c ∈ text, Text.isBlank c = true → c = ' '
  start : ∀ c ∈ text.head?, Text.isBlank c = false
  stop : ∀ c ∈ text.getLast?, Text.isBlank c = false
  neighbours : text.IsChain fun c d =>
    (Text.isBlank c = true → Text.isBlank d = false ∧ d ≠ ')') ∧
      (c = '(' → Text.isBlank d = false)

variable {c d : Char} {i : Nat} {text text' text'' : List Char}

@[simp] theorem marks_cons_blank (h : Text.isBlank c = true) : marks (c :: text) = marks text := by
  simp [marks, h]

@[simp] theorem marks_cons (h : Text.isBlank c = false) :
    marks (c :: text) = c :: marks text := by
  simp [marks, h]

theorem marks_append (before after : List Char) :
    marks (before ++ after) = marks before ++ marks after :=
  List.filter_append before after

-- White space in front of all marks separates none.
theorem separatedAt_blank (h : Text.isBlank c = true) :
    SeparatedAt (c :: text) i ↔ SeparatedAt text i := by
  constructor
  · rintro ⟨before, blank, after, heq, hblank, hlength, hafter⟩
    cases before with
    | nil => simp [marks] at hlength
    | cons b before =>
      obtain ⟨rfl, rfl⟩ := List.cons.inj heq
      rw [marks_cons_blank h] at hlength
      exact ⟨before, blank, after, rfl, hblank, hlength, hafter⟩
  · rintro ⟨before, blank, after, rfl, hblank, hlength, hafter⟩
    refine ⟨c :: before, blank, after, rfl, hblank, ?_, hafter⟩
    rw [marks_cons_blank h, hlength]

theorem separatedAt_succ (h : Text.isBlank c = false) :
    SeparatedAt (c :: text) (i + 1) ↔ SeparatedAt text i := by
  constructor
  · rintro ⟨before, blank, after, heq, hblank, hlength, hafter⟩
    cases before with
    | nil => simp [marks] at hlength
    | cons b before =>
      obtain ⟨rfl, rfl⟩ := List.cons.inj heq
      rw [marks_cons h, List.length_cons] at hlength
      exact ⟨before, blank, after, rfl, hblank, by omega, hafter⟩
  · rintro ⟨before, blank, after, rfl, hblank, hlength, hafter⟩
    refine ⟨c :: before, blank, after, rfl, hblank, ?_, hafter⟩
    rw [marks_cons h, List.length_cons, hlength]

-- The first mark is separated from the next one if white space follows it.
theorem separatedAt_zero (h : Text.isBlank c = false) :
    SeparatedAt (c :: text) 0 ↔ (∃ b ∈ text.head?, Text.isBlank b = true) ∧ marks text ≠ [] := by
  constructor
  · rintro ⟨before, blank, after, heq, hblank, hlength, hafter⟩
    cases before with
    | nil => simp [marks] at hlength
    | cons b before =>
      rw [List.cons_append] at heq
      obtain ⟨rfl, rfl⟩ := List.cons.inj heq
      constructor
      · cases before with
        | nil => exact ⟨blank, rfl, hblank⟩
        | cons b before =>
          refine ⟨b, rfl, ?_⟩
          by_contra hb
          rw [Bool.not_eq_true] at hb
          rw [marks_cons h, marks_cons hb] at hlength
          simp at hlength
      · rw [marks_append, marks_cons_blank hblank]
        exact List.append_ne_nil_of_right_ne_nil _ hafter
  · rintro ⟨⟨b, hb, hblank⟩, hmarks⟩
    obtain ⟨rest, rfl⟩ := List.head?_eq_some_iff.mp hb
    refine ⟨[c], b, rest, rfl, hblank, by simp [marks, h], ?_⟩
    rwa [marks_cons_blank hblank] at hmarks

namespace SameLayout

theorem symm (h : SameLayout text text') : SameLayout text' text where
  marks_eq := h.marks_eq.symm
  separatedAt_iff i c d hc hd hopen hclose :=
    (h.separatedAt_iff i c d (h.marks_eq ▸ hc) (h.marks_eq ▸ hd) hopen hclose).symm

theorem trans (h : SameLayout text text') (h' : SameLayout text' text'') :
    SameLayout text text'' where
  marks_eq := h.marks_eq.trans h'.marks_eq
  separatedAt_iff i c d hc hd hopen hclose :=
    (h.separatedAt_iff i c d hc hd hopen hclose).trans
      (h'.separatedAt_iff i c d (h.marks_eq ▸ hc) (h.marks_eq ▸ hd) hopen hclose)

theorem blank_left (hc : Text.isBlank c = true) :
    SameLayout (c :: text) text' ↔ SameLayout text text' := by
  constructor
  · intro h
    refine ⟨(marks_cons_blank hc).symm.trans h.marks_eq, fun i a b ha hb hopen hclose => ?_⟩
    rw [← separatedAt_blank hc]
    rw [← marks_cons_blank hc] at ha hb
    exact h.separatedAt_iff i a b ha hb hopen hclose
  · intro h
    refine ⟨(marks_cons_blank hc).trans h.marks_eq, fun i a b ha hb hopen hclose => ?_⟩
    rw [separatedAt_blank hc]
    rw [marks_cons_blank hc] at ha hb
    exact h.separatedAt_iff i a b ha hb hopen hclose

theorem blank_right (hc : Text.isBlank c = true) :
    SameLayout text (c :: text') ↔ SameLayout text text' :=
  ⟨fun h => ((blank_left hc).mp h.symm).symm, fun h => ((blank_left hc).mpr h.symm).symm⟩

-- Texts that start with the same mark agree behind it and on whether it stands apart.
theorem cons_iff (hc : Text.isBlank c = false) :
    SameLayout (c :: text) (c :: text') ↔ SameLayout text text' ∧
      ∀ d ∈ (marks text).head?, c ≠ '(' → d ≠ ')' →
        ((∃ b ∈ text.head?, Text.isBlank b = true) ↔
          ∃ b ∈ text'.head?, Text.isBlank b = true) := by
  have hfirst (h : marks text = marks text') (d : Char) (hd : d ∈ (marks text).head?) :
      (SeparatedAt (c :: text) 0 ↔ ∃ b ∈ text.head?, Text.isBlank b = true) ∧
        (SeparatedAt (c :: text') 0 ↔ ∃ b ∈ text'.head?, Text.isBlank b = true) := by
    have hne : marks text ≠ [] := by
      rintro hnil
      simp [hnil] at hd
    rw [separatedAt_zero hc, separatedAt_zero hc]
    exact ⟨and_iff_left hne, and_iff_left (h ▸ hne)⟩
  constructor
  · intro h
    have hmarks : marks text = marks text' := by
      have := h.marks_eq
      rw [marks_cons hc, marks_cons hc] at this
      exact (List.cons.inj this).2
    refine ⟨⟨hmarks, fun i a b ha hb hopen hclose => ?_⟩, fun d hd hopen hclose => ?_⟩
    · rw [← separatedAt_succ hc, ← @separatedAt_succ c i text' hc]
      apply h.separatedAt_iff (i + 1) a b _ _ hopen hclose
      · rwa [marks_cons hc, List.getElem?_cons_succ]
      · rwa [marks_cons hc, List.getElem?_cons_succ]
    · rw [← (hfirst hmarks d hd).1, ← (hfirst hmarks d hd).2]
      apply h.separatedAt_iff 0 c d _ _ hopen hclose
      · rw [marks_cons hc, List.getElem?_cons_zero]
      · rwa [marks_cons hc, List.getElem?_cons_succ, ← List.head?_eq_getElem?]
  · rintro ⟨h, hgap⟩
    refine ⟨by rw [marks_cons hc, marks_cons hc, h.marks_eq], fun i a b ha hb hopen hclose => ?_⟩
    rw [marks_cons hc] at ha hb
    cases i with
    | zero =>
      obtain rfl : c = a := Option.some.inj ha
      have hhead : b ∈ (marks text).head? := by rwa [List.head?_eq_getElem?]
      rw [(hfirst h.marks_eq b hhead).1, (hfirst h.marks_eq b hhead).2]
      exact hgap b hhead hopen hclose
    | succ i =>
      rw [separatedAt_succ hc, separatedAt_succ hc]
      exact h.separatedAt_iff i a b ha hb hopen hclose

end SameLayout

/-! ## Reduced texts -/

namespace IsReduced

theorem nil : IsReduced [] where
  space := by simp
  start := by simp
  stop := by simp
  neighbours := .nil

theorem cons (hc : Text.isBlank c = false) (h : IsReduced text) : IsReduced (c :: text) where
  space d hd hblank := by
    obtain rfl | hd := List.mem_cons.mp hd
    · rw [hc] at hblank
      cases hblank
    · exact h.space d hd hblank
  start d hd := by
    obtain rfl : c = d := Option.some.inj hd
    exact hc
  stop d hd := by
    cases text with
    | nil =>
      obtain rfl : c = d := Option.some.inj hd
      exact hc
    | cons e rest => exact h.stop d (by rwa [List.getLast?_cons_cons] at hd)
  neighbours := by
    refine List.isChain_cons.mpr ⟨fun d hd => ⟨fun hblank => ?_, fun _ => h.start d hd⟩,
      h.neighbours⟩
    rw [hc] at hblank
    cases hblank

theorem cons_space (hc : Text.isBlank c = false) (hopen : c ≠ '(') (hclose : d ≠ ')')
    (h : IsReduced (d :: text)) : IsReduced (c :: ' ' :: d :: text) where
  space e he hblank := by
    obtain rfl | he := List.mem_cons.mp he
    · rw [hc] at hblank
      cases hblank
    · obtain rfl | he := List.mem_cons.mp he
      · rfl
      · exact h.space e he hblank
  start e he := by
    obtain rfl : c = e := Option.some.inj he
    exact hc
  stop e he := by
    rw [List.getLast?_cons_cons, List.getLast?_cons_cons] at he
    exact h.stop e he
  neighbours := by
    refine List.isChain_cons_cons.mpr ⟨⟨fun hblank => ?_, fun heq => absurd heq hopen⟩,
      List.isChain_cons_cons.mpr ⟨⟨fun _ => ⟨h.start d rfl, hclose⟩, fun heq => ?_⟩, h.neighbours⟩⟩
    · rw [hc] at hblank
      cases hblank
    · cases heq

-- A rest that starts with a mark.
theorem suffix (h : IsReduced text) (hsuffix : text' <:+ text)
    (hstart : ∀ d ∈ text'.head?, Text.isBlank d = false) : IsReduced text' where
  space d hd hblank := h.space d (hsuffix.subset hd) hblank
  start := hstart
  stop d hd := by
    obtain ⟨before, rfl⟩ := hsuffix
    apply h.stop d
    rw [List.getLast?_append, Option.mem_def.mp hd]
    rfl
  neighbours := h.neighbours.suffix hsuffix

/-- Behind a mark the text goes on with another one, if there is one, or with one space and then
another one. -/
theorem cons_cases (h : IsReduced (c :: text)) :
    Text.isBlank c = false ∧ (IsReduced text ∨ ∃ d rest, text = ' ' :: d :: rest ∧ c ≠ '(' ∧
      d ≠ ')' ∧ IsReduced (d :: rest)) := by
  refine ⟨h.start c rfl, ?_⟩
  cases text with
  | nil => exact .inl nil
  | cons b rest =>
    cases hb : Text.isBlank b with
    | false =>
      apply Or.inl
      apply h.suffix (List.suffix_cons c _)
      rintro _ ⟨⟩
      exact hb
    | true =>
      obtain rfl : b = ' ' := h.space b (by simp) hb
      obtain ⟨hopening, hrest⟩ := List.isChain_cons_cons.mp h.neighbours
      cases rest with
      | nil => exact absurd (h.stop ' ' rfl) (by decide)
      | cons d rest =>
        obtain ⟨hd, hclose⟩ := (List.isChain_cons_cons.mp hrest).1.1 hb
        refine .inr ⟨d, rest, rfl, ?_, hclose, ?_⟩
        · rintro rfl
          exact absurd (hopening.2 rfl) (by decide)
        · apply h.suffix ((List.suffix_cons ' ' _).trans (List.suffix_cons c _))
          rintro _ ⟨⟩
          exact hd

theorem exists_cons_of_marks (h : IsReduced text) {ms : List Char} (hms : marks text = c :: ms) :
    ∃ rest, text = c :: rest ∧ marks rest = ms := by
  cases text with
  | nil => cases hms
  | cons d rest =>
    rw [marks_cons (h.start d rfl)] at hms
    obtain ⟨rfl, rfl⟩ := List.cons.inj hms
    exact ⟨rest, rfl, rfl⟩

theorem eq_nil_of_marks (h : IsReduced text) (hms : marks text = []) : text = [] := by
  cases text with
  | nil => rfl
  | cons d rest =>
    rw [marks_cons (h.start d rfl)] at hms
    cases hms

-- If one of two texts has a space behind its first mark, the other one does not go on with a mark.
theorem not_sameLayout_space (hc : Text.isBlank c = false) (hopen : c ≠ '(') (hclose : d ≠ ')')
    (hd : Text.isBlank d = false) (h : IsReduced text) :
    ¬ SameLayout (c :: ' ' :: d :: text') (c :: text) := by
  intro hsame
  have hfirst : d ∈ (marks (' ' :: d :: text')).head? := by
    rw [marks_cons_blank (by decide), marks_cons hd]
    rfl
  obtain ⟨b, hb, hblank⟩ :=
    (((SameLayout.cons_iff hc).mp hsame).2 d hfirst hopen hclose).mp ⟨' ', rfl, by decide⟩
  rw [h.start b hb] at hblank
  cases hblank

/-- There is only one reduced text of a layout. -/
theorem eq_of_sameLayout (h : IsReduced text) (h' : IsReduced text')
    (hsame : SameLayout text text') : text = text' := by
  have hmarks := hsame.marks_eq
  -- both texts are followed from mark to mark
  induction hms : marks text generalizing text text' with
  | nil => rw [h.eq_nil_of_marks hms, h'.eq_nil_of_marks (hmarks ▸ hms)]
  | cons c ms ih =>
    obtain ⟨rest, rfl, hrest⟩ := h.exists_cons_of_marks hms
    obtain ⟨rest', rfl, hrest'⟩ := h'.exists_cons_of_marks (hmarks ▸ hms)
    obtain ⟨hc, hnext⟩ := h.cons_cases
    obtain ⟨-, hnext'⟩ := h'.cons_cases
    obtain ⟨htail, -⟩ := (SameLayout.cons_iff hc).mp hsame
    rcases hnext with hnext | ⟨d, rest, rfl, hopen, hclose, hnext⟩
    · rcases hnext' with hnext' | ⟨d, rest', rfl, hopen, hclose, hnext'⟩
      · rw [ih hnext hnext' htail htail.marks_eq hrest]
      · exact absurd hsame.symm
          (not_sameLayout_space hc hopen hclose (hnext'.start d rfl) hnext)
    · rcases hnext' with hnext' | ⟨d', rest', rfl, -, -, hnext'⟩
      · exact absurd hsame (not_sameLayout_space hc hopen hclose (hnext.start d rfl) hnext')
      · have hspace : Text.isBlank ' ' = true := by decide
        have hbehind := (SameLayout.blank_left hspace).mp ((SameLayout.blank_right hspace).mp htail)
        rw [marks_cons_blank hspace] at hrest
        rw [ih hnext hnext' hbehind hbehind.marks_eq hrest]

end IsReduced

/-! ## What texts are reduced to -/

-- White space that was passed over is written before the next mark.
theorem head?_normalizeFrom (hopen : c ≠ '(') (hd : d ∈ (marks text).head?) (hclose : d ≠ ')') :
    (normalizeFrom (some c) true text).head? = some ' ' := by
  induction text with
  | nil => cases hd
  | cons b text ih =>
    cases hb : Text.isBlank b with
    | true =>
      rw [marks_cons_blank hb] at hd
      rw [normalizeFrom_cons_blank hb]
      exact ih hd
    | false =>
      rw [marks_cons hb] at hd
      obtain rfl : b = d := Option.some.inj hd
      simp [normalizeFrom_cons hb, hopen, hclose]

theorem sameLayout_normalizeFrom (last : Option Char) (gap : Bool) (text : List Char) :
    SameLayout text (normalizeFrom last gap text) := by
  induction text generalizing last gap with
  | nil => exact ⟨rfl, fun _ _ _ _ _ _ _ => Iff.rfl⟩
  | cons c text ih =>
    cases hc : Text.isBlank c with
    | true =>
      rw [normalizeFrom_cons_blank hc]
      exact (SameLayout.blank_left hc).mpr (ih last last.isSome)
    | false =>
      have hsame : SameLayout (c :: text) (c :: normalizeFrom (some c) false text) := by
        refine (SameLayout.cons_iff hc).mpr ⟨ih (some c) false, fun d hd hopen hclose => ?_⟩
        cases text with
        | nil => cases hd
        | cons b text =>
          cases hb : Text.isBlank b with
          | true =>
            rw [marks_cons_blank hb] at hd
            rw [normalizeFrom_cons_blank hb]
            show _ ↔ ∃ b ∈ (normalizeFrom (some c) true text).head?, Text.isBlank b = true
            rw [head?_normalizeFrom hopen hd hclose]
            exact iff_of_true ⟨b, rfl, hb⟩ ⟨' ', rfl, by decide⟩
          | false => simp [normalizeFrom_cons hb]
      rw [normalizeFrom_cons hc]
      split
      · exact (SameLayout.blank_right (by decide)).mpr hsame
      · exact hsame

theorem isReduced_normalizeFrom (hc : Text.isBlank c = false) (gap : Bool) (text : List Char) :
    IsReduced (c :: normalizeFrom (some c) gap text) := by
  induction text generalizing c gap with
  | nil => exact IsReduced.nil.cons hc
  | cons d text ih =>
    cases hd : Text.isBlank d with
    | true =>
      rw [normalizeFrom_cons_blank hd]
      exact ih hc true
    | false =>
      rw [normalizeFrom_cons hd]
      split
      · rename_i hgap
        simp only [Bool.and_eq_true, bne_iff_ne, ne_eq, Option.some.injEq] at hgap
        exact (ih hd false).cons_space hc hgap.2 hgap.1.2
      · exact (ih hd false).cons hc

theorem isReduced_normalize (text : List Char) : IsReduced (normalize text) := by
  unfold normalize
  induction text with
  | nil => exact .nil
  | cons c text ih =>
    cases hc : Text.isBlank c with
    | true =>
      rw [normalizeFrom_cons_blank hc]
      exact ih
    | false =>
      rw [normalizeFrom_cons hc]
      exact isReduced_normalizeFrom hc false text

theorem sameLayout_normalize (text : List Char) : SameLayout text (normalize text) :=
  sameLayout_normalizeFrom none false text

/-- **A text is reduced to the only reduced text of its layout.**  So texts are reduced alike
exactly if they have the same layout, and to reduce a text twice is to reduce it once. -/
theorem normalizeText_eq_iff (s t : String) :
    (normalizeText s = normalizeText t ↔ SameLayout s.toList t.toList) ∧
      normalizeText (normalizeText s) = normalizeText s ∧
      IsReduced (normalizeText s).toList := by
  have hlayout (s : String) : SameLayout s.toList (normalizeText s).toList := by
    rw [normalizeText, String.toList_ofList]
    exact sameLayout_normalize s.toList
  have hreduced (s : String) : IsReduced (normalizeText s).toList := by
    rw [normalizeText, String.toList_ofList]
    exact isReduced_normalize s.toList
  refine ⟨⟨fun heq => ?_, fun hsame => ?_⟩, ?_, hreduced s⟩
  · have := (hlayout t).symm
    rw [← heq] at this
    exact (hlayout s).trans this
  · apply String.toList_inj.mp
    apply (hreduced s).eq_of_sameLayout (hreduced t)
    exact ((hlayout s).symm.trans hsame).trans (hlayout t)
  · apply String.toList_inj.mp
    exact (hreduced (normalizeText s)).eq_of_sameLayout (hreduced s)
      (hlayout (normalizeText s)).symm

example : normalizeText "  ( sum(n) \n\t(n ) )" = "(sum(n) (n))" := by decide

end GrammarKit.Sexp
