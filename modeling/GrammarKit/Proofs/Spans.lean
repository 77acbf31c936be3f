import GrammarKit.Highlight
import Mathlib.Data.List.Basic

/-!
# Spans

Spans that stand in the order of the text, and none of which could be joined with the next, are the
runs of a map from bytes to highlights.  There is one list of them for each such map.
-/

namespace GrammarKit

namespace Span

/-- The span gives the byte the highlight. -/
def Covers (s : Span) (byte highlight : Nat) : Prop :=
  s.start ≤ byte ∧ byte < s.stop ∧ s.highlight = highlight

/-- The span `s'` stands behind `s`, and they could not be one span. -/
def Follows (s s' : Span) : Prop :=
  s.stop < s'.start ∨ s.stop = s'.start ∧ s.highlight ≠ s'.highlight

/-- One of the spans gives the byte the highlight. -/
def Shown (spans : List Span) (byte highlight : Nat) : Prop :=
  ∃ s ∈ spans, s.Covers byte highlight

/-- Spans with at least one byte each, in the order of the text. -/
structure Ordered (spans : List Span) : Prop where
  nonempty : ∀ s ∈ spans, s.start < s.stop
  follows : spans.Pairwise Follows

/-- The spans are the runs of bytes that the map sends to the same highlight. -/
structure Encodes (spans : List Span) (f : Nat → Option Nat) : Prop where
  ordered : Ordered spans
  shown : ∀ byte highlight, Shown spans byte highlight ↔ f byte = some highlight

/-! ## There is one way to write highlights as spans -/

section

variable {s s' : Span} {rest rest' : List Span} {byte highlight : Nat}

theorem Ordered.tail (h : Ordered (s :: rest)) : Ordered rest :=
  ⟨fun r hr => h.nonempty r (List.mem_cons_of_mem _ hr), (List.pairwise_cons.mp h.follows).2⟩

theorem Ordered.stop_le (h : Ordered (s :: rest)) {r : Span} (hr : r ∈ rest) :
    s.stop ≤ r.start := by
  rcases (List.pairwise_cons.mp h.follows).1 r hr with hlt | ⟨heq, -⟩
  · exact Nat.le_of_lt hlt
  · exact Nat.le_of_eq heq

-- The spans behind the first one show what is shown behind it.
theorem Ordered.shown_tail (h : Ordered (s :: rest)) :
    Shown rest byte highlight ↔ Shown (s :: rest) byte highlight ∧ s.stop ≤ byte := by
  constructor
  · rintro ⟨r, hr, hcovers⟩
    exact ⟨⟨r, List.mem_cons_of_mem _ hr, hcovers⟩, Nat.le_trans (h.stop_le hr) hcovers.1⟩
  · rintro ⟨⟨r, hr, hcovers⟩, hle⟩
    rcases List.mem_cons.mp hr with rfl | hr
    · exact absurd hcovers.2.1 (Nat.not_lt_of_le hle)
    · exact ⟨r, hr, hcovers⟩

theorem Ordered.shown_start (h : Ordered (s :: rest)) : Shown (s :: rest) s.start s.highlight :=
  ⟨s, List.mem_cons_self, Nat.le_refl _, h.nonempty s List.mem_cons_self, rfl⟩

-- Before its end, only the first span shows anything.
theorem Ordered.of_shown_lt (h : Ordered (s :: rest)) (hshown : Shown (s :: rest) byte highlight)
    (hlt : byte < s.stop) : s.start ≤ byte ∧ s.highlight = highlight := by
  obtain ⟨r, hr, hcovers⟩ := hshown
  rcases List.mem_cons.mp hr with rfl | hr
  · exact ⟨hcovers.1, hcovers.2.2⟩
  · exact absurd (Nat.le_trans (h.stop_le hr) hcovers.1) (Nat.not_le_of_lt hlt)

theorem Ordered.start_le (h : Ordered (s :: rest)) (hshown : Shown (s :: rest) byte highlight) :
    s.start ≤ byte := by
  rcases Nat.lt_or_ge byte s.stop with hlt | hge
  · exact (h.of_shown_lt hshown hlt).1
  · exact Nat.le_trans (Nat.le_of_lt (h.nonempty s List.mem_cons_self)) hge

-- The highlight of a span is not shown at its end.
theorem Ordered.not_shown_stop (h : Ordered (s :: rest)) :
    ¬ Shown (s :: rest) s.stop s.highlight := by
  rintro ⟨r, hr, hle, hlt, heq⟩
  rcases List.mem_cons.mp hr with rfl | hr
  · exact Nat.lt_irrefl _ hlt
  · rcases (List.pairwise_cons.mp h.follows).1 r hr with hlt | ⟨-, hne⟩
    · exact absurd hle (Nat.not_le_of_lt hlt)
    · exact hne heq.symm

theorem Ordered.stop_le_stop (h : Ordered (s :: rest))
    (hshown : ∀ byte highlight, Shown (s' :: rest') byte highlight →
      Shown (s :: rest) byte highlight)
    (hstart : s'.start ≤ s.start) (hhighlight : s'.highlight = s.highlight) :
    s'.stop ≤ s.stop := by
  by_contra hlt
  have hlt := Nat.lt_of_not_le hlt
  have hstart := Nat.le_trans hstart (Nat.le_of_lt (h.nonempty s List.mem_cons_self))
  exact h.not_shown_stop (hshown _ _ ⟨s', List.mem_cons_self, hstart, hlt, hhighlight⟩)

theorem Ordered.head_eq (h : Ordered (s :: rest)) (h' : Ordered (s' :: rest'))
    (hshown : ∀ byte highlight, Shown (s :: rest) byte highlight ↔
      Shown (s' :: rest') byte highlight) : s = s' := by
  have hstart : s.start = s'.start := Nat.le_antisymm
    (h.start_le ((hshown _ _).mpr h'.shown_start)) (h'.start_le ((hshown _ _).mp h.shown_start))
  have hhighlight : s'.highlight = s.highlight := by
    refine (h'.of_shown_lt ((hshown _ _).mp h.shown_start) ?_).2
    rw [hstart]
    exact h'.nonempty s' List.mem_cons_self
  have hstop : s.stop = s'.stop := Nat.le_antisymm
    (h'.stop_le_stop (fun b x => (hshown b x).mp) (Nat.le_of_eq hstart) hhighlight.symm)
    (h.stop_le_stop (fun b x => (hshown b x).mpr) (Nat.le_of_eq hstart.symm) hhighlight)
  cases s
  cases s'
  simp only [mk.injEq]
  exact ⟨hstart, hstop, hhighlight.symm⟩

end

theorem Ordered.eq_of_shown {spans spans' : List Span} (h : Ordered spans) (h' : Ordered spans')
    (hshown : ∀ byte highlight, Shown spans byte highlight ↔ Shown spans' byte highlight) :
    spans = spans' := by
  induction spans generalizing spans' with
  | nil =>
    cases spans' with
    | nil => rfl
    | cons s' rest' =>
      obtain ⟨r, hr, -⟩ := (hshown _ _).mpr h'.shown_start
      cases hr
  | cons s rest ih =>
    cases spans' with
    | nil =>
      obtain ⟨r, hr, -⟩ := (hshown _ _).mp h.shown_start
      cases hr
    | cons s' rest' =>
      obtain rfl := h.head_eq h' hshown
      refine congrArg (s :: ·) (ih h.tail h'.tail fun byte highlight => ?_)
      rw [h.shown_tail, h'.shown_tail, hshown]

/-- The spans for a map from bytes to highlights are unique. -/
theorem Encodes.unique {spans spans' : List Span} {f : Nat → Option Nat} (h : Encodes spans f)
    (h' : Encodes spans' f) : spans = spans' :=
  h.ordered.eq_of_shown h'.ordered fun byte highlight =>
    (h.shown byte highlight).trans (h'.shown byte highlight).symm

end Span

end GrammarKit
