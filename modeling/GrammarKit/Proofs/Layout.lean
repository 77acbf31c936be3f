import GrammarKit.Proofs.Spans

/-!
# Laying out spans

Ranges that nest, entered from left to right, become spans: each byte gets the highlight of the
range entered last of those that cover it.
-/

namespace GrammarKit

namespace CapturedRange

/-- Whether the range takes the byte. -/
def covers (r : CapturedRange) (byte : Nat) : Bool :=
  r.start ≤ byte && byte < r.stop

theorem covers_iff {r : CapturedRange} {byte : Nat} :
    r.covers byte = true ↔ r.start ≤ byte ∧ byte < r.stop := by
  simp [covers]

/-- The range `b` starts no earlier than `a` and stops no later, unless `a` stops before it. -/
def Fits (a b : CapturedRange) : Prop :=
  a.start ≤ b.start ∧ (a.stop ≤ b.start ∨ b.stop ≤ a.stop)

/-- The last of the ranges that take the byte. -/
def lastCovering? (ranges : List CapturedRange) (byte : Nat) : Option CapturedRange :=
  ranges.reverse.find? (·.covers byte)

theorem lastCovering?_cons (r : CapturedRange) (ranges : List CapturedRange) (byte : Nat) :
    lastCovering? (r :: ranges) byte =
      (lastCovering? ranges byte).or (if r.covers byte then some r else none) := by
  rw [lastCovering?, List.reverse_cons, List.find?_append, List.find?_singleton]
  rfl

end CapturedRange

namespace Layout

/-- The highlight of the innermost open range that does not stop by the byte. -/
def openAt (opened : List (Nat × Nat)) (byte : Nat) : Option Nat :=
  (opened.find? (byte < ·.1)).map (·.2)

/-- What the layout gives the byte, if no more ranges are entered: a span that is done shows it or
an open range. -/
def Shows (layout : Layout) (byte highlight : Nat) : Prop :=
  Span.Shown layout.spans byte highlight ∨
    layout.done ≤ byte ∧ openAt layout.opened byte = some highlight

/-- Spans, the last one first, that stand in order before the byte `done`.  Their ends satisfy
`bound`. -/
structure Written (bound : Nat → Prop) (spans : List Span) (done : Nat) : Prop where
  nonempty : ∀ s ∈ spans, s.start < s.stop
  follows : spans.Pairwise fun s s' => s'.Follows s
  stop_le : ∀ s ∈ spans, s.stop ≤ done
  bounds : ∀ s ∈ spans, bound s.start ∧ bound s.stop

/-- The spans that are done stand before the rest of the text, and the open ranges stop there, inner
ones first. -/
structure Ready (bound : Nat → Prop) (layout : Layout) : Prop where
  written : Written bound layout.spans layout.done
  done : bound layout.done
  opened : layout.opened.Pairwise fun a b => a.1 ≤ b.1
  done_le : ∀ e ∈ layout.opened, layout.done ≤ e.1
  bounds : ∀ e ∈ layout.opened, bound e.1

section

variable {bound : Nat → Prop} {layout : Layout} {byte highlight : Nat}

theorem ready_empty (hbound : bound 0) : Ready bound {} where
  written := by constructor <;> simp
  done := hbound
  opened := .nil
  done_le := by simp
  bounds := by simp

theorem openAt_cons_of_lt {stop x : Nat} {outer : List (Nat × Nat)} (h : byte < stop) :
    openAt ((stop, x) :: outer) byte = some x := by
  simp [openAt, h]

theorem openAt_cons_of_le {stop x : Nat} {outer : List (Nat × Nat)} (h : stop ≤ byte) :
    openAt ((stop, x) :: outer) byte = openAt outer byte := by
  simp [openAt, Nat.not_lt_of_le h]

/-! ## Giving bytes a highlight -/

@[simp] theorem push_opened (stop x : Nat) : (layout.push stop x).opened = layout.opened := by
  unfold push
  split
  · split
    · split <;> rfl
    · rfl
  · rfl

@[simp] theorem push_done (stop x : Nat) : (layout.push stop x).done = stop := by
  unfold push
  split
  · split
    · split <;> rfl
    · rfl
  · rfl

-- The open ranges play no role.
theorem push_withOpened (opened : List (Nat × Nat)) (stop x : Nat) :
    { layout with opened }.push stop x = { layout.push stop x with opened } := by
  unfold push
  dsimp only
  split
  · split
    · split <;> rfl
    · rfl
  · rfl

theorem push_spans_of_le {stop : Nat} (h : stop ≤ layout.done) (x : Nat) :
    (layout.push stop x).spans = layout.spans := by
  rw [push, if_neg (Nat.not_lt_of_le h)]

-- The bytes join the last span, or they become a span that could not be joined with it.
theorem push_spans_cases {stop : Nat} (h : layout.done < stop) (x : Nat) :
    (∃ last others, layout.spans = last :: others ∧ last.highlight = x ∧
      last.stop = layout.done ∧ (layout.push stop x).spans = { last with stop } :: others) ∨
    (layout.push stop x).spans = ⟨layout.done, stop, x⟩ :: layout.spans ∧
      ∀ last others, layout.spans = last :: others → last.stop = layout.done →
        last.highlight ≠ x := by
  rw [push, if_pos h]
  split
  case h_1 last others hspans =>
    rw [hspans]
    by_cases hjoin : last.highlight = x ∧ last.stop = layout.done
    · rw [if_pos hjoin]
      exact .inl ⟨last, others, rfl, hjoin.1, hjoin.2, rfl⟩
    · rw [if_neg hjoin]
      refine .inr ⟨rfl, fun last' others' heq hstop hx => hjoin ?_⟩
      obtain ⟨rfl, rfl⟩ := List.cons.inj heq
      exact ⟨hx, hstop⟩
  case h_2 hspans =>
    rw [hspans]
    exact .inr ⟨rfl, fun _ _ heq => by cases heq⟩

theorem shown_cons {s : Span} {spans : List Span} :
    Span.Shown (s :: spans) byte highlight ↔
      s.Covers byte highlight ∨ Span.Shown spans byte highlight :=
  List.exists_mem_cons_iff _ _ _

-- The bytes up to `stop` are shown with the highlight, and nothing else changes.
theorem push_shown (h : Written bound layout.spans layout.done)
    {stop x : Nat} :
    Span.Shown (layout.push stop x).spans byte highlight ↔
      Span.Shown layout.spans byte highlight ∨
        layout.done ≤ byte ∧ byte < stop ∧ x = highlight := by
  rcases Nat.lt_or_ge layout.done stop with hlt | hge
  · rcases push_spans_cases hlt x with ⟨last, others, hspans, hx, hdone, hpush⟩ | ⟨hpush, -⟩
    · have hlast := h.nonempty last (hspans ▸ List.mem_cons_self)
      -- the bytes of the longer span are those of the last one and the new ones
      have hcovers : ({ last with stop } : Span).Covers byte highlight ↔
          last.Covers byte highlight ∨ layout.done ≤ byte ∧ byte < stop ∧ x = highlight := by
        simp only [Span.Covers, hx]
        omega
      rw [hpush, hspans, shown_cons, shown_cons, hcovers]
      exact or_right_comm
    · rw [hpush, shown_cons]
      exact or_comm
  · rw [push_spans_of_le hge]
    refine ⟨.inl, fun hshown => hshown.resolve_right fun ⟨hle, hbyte, _⟩ => ?_⟩
    omega

-- A span from the byte reached on stands behind those that are done.
theorem Written.follows_done (h : Written bound layout.spans layout.done) {stop x : Nat}
    (hjoin : ∀ last others, layout.spans = last :: others → last.stop = layout.done →
      last.highlight ≠ x) :
    ∀ s ∈ layout.spans, s.Follows ⟨layout.done, stop, x⟩ := by
  intro s hs
  obtain ⟨hnonempty, hfollows, hstop, -⟩ := h
  cases hspans : layout.spans with
  | nil =>
    rw [hspans] at hs
    cases hs
  | cons last others =>
    rw [hspans] at hs hnonempty hfollows hstop
    rcases List.mem_cons.mp hs with rfl | hs'
    · rcases Nat.lt_or_eq_of_le (hstop s hs) with hlt | heq
      · exact .inl hlt
      · exact .inr ⟨heq, hjoin s others hspans heq⟩
    · -- the last span has at least one byte
      have hlt := hnonempty last List.mem_cons_self
      have hle := hstop last List.mem_cons_self
      have hbehind : s.stop ≤ last.start := by
        rcases (List.pairwise_cons.mp hfollows).1 s hs' with hlt | ⟨heq, -⟩
        · exact Nat.le_of_lt hlt
        · exact Nat.le_of_eq heq
      exact .inl (Nat.lt_of_le_of_lt hbehind (Nat.lt_of_lt_of_le hlt hle))

theorem Written.cons {spans : List Span} {last : Span} {done : Nat} (h : Written bound spans done)
    (hlast : last.start < last.stop) (hfollows : ∀ s ∈ spans, s.Follows last)
    (hle : done ≤ last.stop) (hbounds : bound last.start ∧ bound last.stop) :
    Written bound (last :: spans) last.stop where
  nonempty := List.forall_mem_cons.mpr ⟨hlast, h.nonempty⟩
  follows := List.pairwise_cons.mpr ⟨hfollows, h.follows⟩
  stop_le := List.forall_mem_cons.mpr
    ⟨Nat.le_refl _, fun s hs => Nat.le_trans (h.stop_le s hs) hle⟩
  bounds := List.forall_mem_cons.mpr ⟨hbounds, h.bounds⟩

theorem Written.tail {spans : List Span} {last : Span} {done : Nat}
    (h : Written bound (last :: spans) done) : Written bound spans done where
  nonempty := (List.forall_mem_cons.mp h.nonempty).2
  follows := (List.pairwise_cons.mp h.follows).2
  stop_le := (List.forall_mem_cons.mp h.stop_le).2
  bounds := (List.forall_mem_cons.mp h.bounds).2

theorem Ready.push_written (h : Ready bound layout) {stop x : Nat} (hstop : layout.done ≤ stop)
    (hbound : bound stop) : Written bound (layout.push stop x).spans stop := by
  have hwritten := h.written
  rcases Nat.lt_or_eq_of_le hstop with hlt | rfl
  · rcases push_spans_cases hlt x with ⟨last, others, hspans, hx, hdone, hpush⟩ | ⟨hpush, hjoin⟩
    · rw [hspans] at hwritten
      have hlast := (List.forall_mem_cons.mp hwritten.nonempty).1
      have hfollows := (List.pairwise_cons.mp hwritten.follows).1
      have hbounds := (List.forall_mem_cons.mp hwritten.bounds).1
      rw [hpush]
      exact hwritten.tail.cons (Nat.lt_trans hlast (hdone ▸ hlt)) hfollows hstop
        ⟨hbounds.1, hbound⟩
    · rw [hpush]
      exact hwritten.cons hlt (hwritten.follows_done hjoin) hstop ⟨h.done, hbound⟩
  · rwa [push_spans_of_le (Nat.le_refl _)]

/-! ## Closing ranges -/

section

variable {stop x : Nat} {outer : List (Nat × Nat)}

-- The text can be done up to any place before the innermost open range stops.
theorem Ready.push (h : Ready bound layout) (hopened : layout.opened = (stop, x) :: outer)
    {place : Nat} (hdone : layout.done ≤ place) (hplace : place ≤ stop) (hbound : bound place) :
    Ready bound (layout.push place x) := by
  have hinner := h.opened
  rw [hopened] at hinner
  refine ⟨?_, ?_, ?_, ?_, ?_⟩
  · rw [push_done]
    exact h.push_written hdone hbound
  · rwa [push_done]
  · rw [push_opened]
    exact h.opened
  · rw [push_opened, push_done, hopened]
    exact List.forall_mem_cons.mpr
      ⟨hplace, fun e he => Nat.le_trans hplace ((List.pairwise_cons.mp hinner).1 e he)⟩
  · rw [push_opened]
    exact h.bounds

theorem Ready.push_shows (h : Ready bound layout) (hopened : layout.opened = (stop, x) :: outer)
    {place : Nat} (hdone : layout.done ≤ place) (hplace : place ≤ stop) :
    (layout.push place x).Shows byte highlight ↔ layout.Shows byte highlight := by
  rw [Shows, Shows, push_shown h.written, push_done, push_opened, hopened, or_assoc]
  refine or_congr_right ?_
  rcases Nat.lt_or_ge byte place with hlt | hge
  · rw [openAt_cons_of_lt (Nat.lt_of_lt_of_le hlt hplace), Option.some.injEq]
    omega
  · constructor
    · rintro (⟨-, hlt, -⟩ | ⟨-, hopen⟩)
      · omega
      · exact ⟨Nat.le_trans hdone hge, hopen⟩
    · rintro ⟨-, hopen⟩
      exact .inr ⟨hge, hopen⟩

-- An open range that stops at the byte reached has nothing more to show.
theorem Ready.drop (h : Ready bound layout) (hopened : layout.opened = (stop, x) :: outer) :
    Ready bound { layout with opened := outer } where
  written := h.written
  done := h.done
  opened := (List.pairwise_cons.mp (hopened ▸ h.opened)).2
  done_le := (List.forall_mem_cons.mp (hopened ▸ h.done_le)).2
  bounds := (List.forall_mem_cons.mp (hopened ▸ h.bounds)).2

theorem drop_shows (hopened : layout.opened = (stop, x) :: outer) (hstop : stop ≤ layout.done) :
    { layout with opened := outer }.Shows byte highlight ↔ layout.Shows byte highlight := by
  rw [Shows, Shows, hopened]
  refine or_congr_right (and_congr_right fun hle => ?_)
  rw [openAt_cons_of_le (Nat.le_trans hstop hle)]

end

/-- The open ranges that stop by a byte were closed, which shows what was shown before. -/
structure Closed (bound : Nat → Prop) (place : Nat) (layout layout' : Layout) : Prop where
  ready : Ready bound layout'
  shows : ∀ byte highlight, layout'.Shows byte highlight ↔ layout.Shows byte highlight
  opened : ∀ e ∈ layout'.opened, place < e.1 ∧ e ∈ layout.opened
  done_le : layout'.done ≤ max layout.done place

theorem closeBy_withOpened (opened opened' : List (Nat × Nat)) (place : Nat) (layout : Layout) :
    closeBy place opened { layout with opened := opened' } = closeBy place opened layout := by
  induction opened generalizing layout with
  | nil => rfl
  | cons e outer ih =>
    unfold closeBy
    split
    · rw [push_withOpened, ih]
    · rfl

theorem withOpened_eq {opened : List (Nat × Nat)} (hopened : layout.opened = opened) :
    { layout with opened } = layout := by
  cases hopened
  rfl

theorem Ready.closeBy (h : Ready bound layout) (place : Nat) :
    Closed bound place layout (closeBy place layout.opened layout) := by
  generalize hopened : layout.opened = opened
  induction opened generalizing layout with
  | nil =>
    rw [Layout.closeBy, withOpened_eq hopened]
    exact ⟨h, fun _ _ => .rfl, by simp [hopened], Nat.le_max_left _ _⟩
  | cons e outer ih =>
    obtain ⟨stop, x⟩ := e
    by_cases hstop : stop ≤ place
    · -- the range is closed, and the search goes on among the outer ones
      have hdone : layout.done ≤ stop := h.done_le (stop, x) (hopened ▸ List.mem_cons_self)
      have hbound : bound stop := h.bounds (stop, x) (hopened ▸ List.mem_cons_self)
      have hopened' : (layout.push stop x).opened = (stop, x) :: outer := by
        rw [push_opened, hopened]
      have hclosed := ih ((h.push hopened hdone (Nat.le_refl _) hbound).drop hopened') rfl
      rw [Layout.closeBy, if_pos hstop, ← closeBy_withOpened outer outer]
      refine ⟨hclosed.ready, fun byte highlight => ?_, fun e he => ?_, ?_⟩
      · rw [hclosed.shows, drop_shows hopened' (Nat.le_of_eq (push_done stop x).symm),
          h.push_shows hopened hdone (Nat.le_refl _)]
      · obtain ⟨hlt, hmem⟩ := hclosed.opened e he
        exact ⟨hlt, hopened ▸ List.mem_cons_of_mem _ hmem⟩
      · refine Nat.le_trans hclosed.done_le (Nat.max_le.mpr ⟨?_, Nat.le_max_right _ _⟩)
        exact Nat.le_trans (Nat.le_of_eq (push_done stop x))
          (Nat.le_trans hstop (Nat.le_max_right _ _))
    · rw [Layout.closeBy, if_neg hstop, withOpened_eq hopened]
      refine ⟨h, fun _ _ => .rfl, fun e he => ⟨?_, he⟩, Nat.le_max_left _ _⟩
      have hinner := h.opened
      rw [hopened] at hinner he
      rcases List.mem_cons.mp he with rfl | he
      · exact Nat.lt_of_not_le hstop
      · exact Nat.lt_of_lt_of_le (Nat.lt_of_not_le hstop)
          ((List.pairwise_cons.mp hinner).1 e he)

-- Closing everything is closing what stops by a byte behind which no range reaches.
theorem closeAll_eq {opened : List (Nat × Nat)} {place : Nat}
    (hplace : ∀ e ∈ opened, e.1 ≤ place) (layout : Layout) :
    closeAll opened layout = Layout.closeBy place opened layout := by
  induction opened generalizing layout with
  | nil => rfl
  | cons e outer ih =>
    obtain ⟨hstop, houter⟩ := List.forall_mem_cons.mp hplace
    rw [closeAll, Layout.closeBy, if_pos hstop, ih houter]

theorem exists_place (opened : List (Nat × Nat)) : ∃ place, ∀ e ∈ opened, e.1 ≤ place := by
  induction opened with
  | nil => exact ⟨0, by simp⟩
  | cons e outer ih =>
    obtain ⟨place, hplace⟩ := ih
    exact ⟨max e.1 place, List.forall_mem_cons.mpr
      ⟨Nat.le_max_left _ _, fun d hd => Nat.le_trans (hplace d hd) (Nat.le_max_right _ _)⟩⟩

-- What was shown is then shown by spans.
theorem Ready.closeAll (h : Ready bound layout) :
    Ready bound (closeAll layout.opened layout) ∧
      ∀ byte highlight, Span.Shown (closeAll layout.opened layout).spans byte highlight ↔
        layout.Shows byte highlight := by
  obtain ⟨place, hplace⟩ := exists_place layout.opened
  have hclosed := h.closeBy place
  rw [closeAll_eq hplace]
  refine ⟨hclosed.ready, fun byte highlight => ?_⟩
  have hnone : (Layout.closeBy place layout.opened layout).opened = [] := by
    refine List.eq_nil_iff_forall_not_mem.mpr fun e he => ?_
    obtain ⟨hlt, hmem⟩ := hclosed.opened e he
    exact absurd (hplace e hmem) (Nat.not_le_of_lt hlt)
  rw [← hclosed.shows, Shows, hnone]
  simp [openAt]

/-! ## Opening ranges -/

/-- A range was entered: it shows its highlight on its bytes, and nothing else changes. -/
structure Entered (bound : Nat → Prop) (range : CapturedRange) (layout layout' : Layout) :
    Prop where
  ready : Ready bound layout'
  done : layout'.done = range.start
  shows : ∀ byte highlight, layout'.Shows byte highlight ↔
    if range.covers byte then range.highlight = highlight else layout.Shows byte highlight
  opened : ∀ e ∈ layout'.opened, e.1 = range.stop ∨ e ∈ layout.opened

theorem Written.mono {spans : List Span} {done later : Nat} (h : Written bound spans done)
    (hle : done ≤ later) : Written bound spans later :=
  { h with stop_le := fun s hs => Nat.le_trans (h.stop_le s hs) hle }

theorem Written.not_shown {spans : List Span} {done : Nat} (h : Written bound spans done)
    (hle : done ≤ byte) : ¬ Span.Shown spans byte highlight := by
  rintro ⟨s, hs, -, hlt, -⟩
  exact absurd hlt (Nat.not_lt_of_le (Nat.le_trans (h.stop_le s hs) hle))

-- A range is opened at the byte reached, or where no range is open.
theorem Ready.open (h : Ready bound layout) {range : CapturedRange}
    (hdone : layout.done ≤ range.start) (hlt : range.start < range.stop)
    (hstart : bound range.start) (hstop : bound range.stop)
    (hinside : ∀ e ∈ layout.opened, range.stop ≤ e.1)
    (hopened : layout.done = range.start ∨ layout.opened = []) :
    Entered bound range layout { layout with
      opened := (range.stop, range.highlight) :: layout.opened
      done := range.start } where
  ready :=
    { written := h.written.mono hdone
      done := hstart
      opened := List.pairwise_cons.mpr ⟨hinside, h.opened⟩
      done_le := List.forall_mem_cons.mpr
        ⟨Nat.le_of_lt hlt, fun e he => Nat.le_trans (Nat.le_of_lt hlt) (hinside e he)⟩
      bounds := List.forall_mem_cons.mpr ⟨hstop, h.bounds⟩ }
  done := rfl
  shows := by
    intro byte highlight
    simp only [Shows]
    by_cases hcovers : range.covers byte = true
    · rw [if_pos hcovers]
      obtain ⟨hle, hbyte⟩ := CapturedRange.covers_iff.mp hcovers
      rw [openAt_cons_of_lt hbyte, Option.some.injEq]
      exact ⟨fun hshows => (hshows.resolve_left
        (h.written.not_shown (Nat.le_trans hdone hle))).2, fun heq => .inr ⟨hle, heq⟩⟩
    · rw [if_neg hcovers]
      refine or_congr_right ?_
      rw [CapturedRange.covers_iff] at hcovers
      rcases Nat.lt_or_ge byte range.start with hbefore | hle
      · -- before the range nothing more is open
        refine iff_of_false (fun hopen => Nat.not_lt_of_le hopen.1 hbefore) ?_
        rintro ⟨hle, hopen⟩
        rcases hopened with heq | hnone
        · omega
        · rw [hnone] at hopen
          cases hopen
      · have hbehind : range.stop ≤ byte := by omega
        rw [openAt_cons_of_le hbehind]
        exact and_congr_left fun _ => ⟨fun _ => Nat.le_trans hdone hle, fun _ => hle⟩
  opened := by
    intro e he
    rcases List.mem_cons.mp he with rfl | he
    · exact .inl rfl
    · exact .inr he

theorem Ready.enter (h : Ready bound layout) {range : CapturedRange}
    (hdone : layout.done ≤ range.start) (hlt : range.start < range.stop)
    (hstart : bound range.start) (hstop : bound range.stop)
    (hfits : ∀ e ∈ layout.opened, e.1 ≤ range.start ∨ range.stop ≤ e.1) :
    Entered bound range layout (layout.enter range) := by
  have hclosed := h.closeBy range.start
  have hready := hclosed.ready
  have hle : (Layout.closeBy range.start layout.opened layout).done ≤ range.start :=
    Nat.le_trans hclosed.done_le (Nat.max_le.mpr ⟨hdone, Nat.le_refl _⟩)
  -- what is still open reaches beyond the start of the range
  have hinside : ∀ e ∈ (Layout.closeBy range.start layout.opened layout).opened,
      range.stop ≤ e.1 := by
    intro e he
    obtain ⟨hbeyond, hmem⟩ := hclosed.opened e he
    exact (hfits e hmem).resolve_left (Nat.not_le_of_lt hbeyond)
  unfold Layout.enter
  dsimp only
  split
  case h_1 hnone =>
    have hentered := hready.open hle hlt hstart hstop hinside (.inr hnone)
    rw [hnone] at hentered
    refine ⟨hentered.ready, rfl, fun byte highlight => ?_, fun e he => ?_⟩
    · rw [hentered.shows, hclosed.shows]
    · exact .inl (congrArg Prod.fst (List.mem_singleton.mp he))
  case h_2 stop x outer hopened =>
    have hmem : (stop, x) ∈ (Layout.closeBy range.start layout.opened layout).opened :=
      hopened ▸ List.mem_cons_self
    have hplace : range.start ≤ stop := Nat.le_of_lt (hclosed.opened _ hmem).1
    have hopened' : ((Layout.closeBy range.start layout.opened layout).push range.start x).opened =
        (stop, x) :: outer := by rw [push_opened, hopened]
    have hentered := (hready.push hopened hle hplace hstart).open
      (Nat.le_of_eq (push_done _ _)) hlt hstart hstop (by rwa [push_opened])
      (.inl (push_done _ _))
    rw [hopened'] at hentered
    rw [Nat.min_eq_left (hinside _ hmem)]
    refine ⟨hentered.ready, rfl, fun byte highlight => ?_, fun e he => ?_⟩
    · rw [hentered.shows, hready.push_shows hopened hle hplace, hclosed.shows]
    · refine (hentered.opened e he).imp_right fun he => (hclosed.opened e ?_).2
      rwa [push_opened] at he

/-! ## All ranges -/

-- Each range shows its highlight unless one that was entered later shows its own.
theorem Ready.enterAll {ranges : List CapturedRange} (h : Ready bound layout)
    (hlt : ∀ r ∈ ranges, r.start < r.stop) (hbounds : ∀ r ∈ ranges, bound r.start ∧ bound r.stop)
    (hpairwise : ranges.Pairwise CapturedRange.Fits)
    (hbehind : ∀ r ∈ ranges, layout.done ≤ r.start ∧
      ∀ e ∈ layout.opened, e.1 ≤ r.start ∨ r.stop ≤ e.1) :
    Ready bound (ranges.foldl Layout.enter layout) ∧ ∀ byte highlight,
      (ranges.foldl Layout.enter layout).Shows byte highlight ↔
        match CapturedRange.lastCovering? ranges byte with
        | some r => r.highlight = highlight
        | none => layout.Shows byte highlight := by
  induction ranges generalizing layout with
  | nil => exact ⟨h, fun _ _ => .rfl⟩
  | cons r ranges ih =>
    obtain ⟨hr, hpairwise⟩ := List.pairwise_cons.mp hpairwise
    obtain ⟨hbound, hbounds⟩ := List.forall_mem_cons.mp hbounds
    obtain ⟨hltr, hlt⟩ := List.forall_mem_cons.mp hlt
    obtain ⟨⟨hdone, hfits⟩, hbehind⟩ := List.forall_mem_cons.mp hbehind
    have hentered := h.enter hdone hltr hbound.1 hbound.2 hfits
    have hbehind' : ∀ r' ∈ ranges, (layout.enter r).done ≤ r'.start ∧
        ∀ e ∈ (layout.enter r).opened, e.1 ≤ r'.start ∨ r'.stop ≤ e.1 := by
      intro r' hr'
      refine ⟨hentered.done ▸ (hr r' hr').1, fun e he => ?_⟩
      rcases hentered.opened e he with heq | he
      · rw [heq]
        exact (hr r' hr').2
      · exact (hbehind r' hr').2 e he
    obtain ⟨hready, hshows⟩ := ih hentered.ready hlt hbounds hpairwise hbehind'
    refine ⟨hready, fun byte highlight => ?_⟩
    rw [List.foldl_cons, hshows, CapturedRange.lastCovering?_cons]
    cases CapturedRange.lastCovering? ranges byte with
    | some last => rfl
    | none =>
      rw [Option.none_or]
      dsimp only
      rw [hentered.shows]
      split <;> rfl

/-- **Ranges that nest are laid out in runs.**  Each byte has the highlight of the last range that
takes it, and spans start and stop where ranges do. -/
theorem ofRanges_encodes {ranges : List CapturedRange} (hzero : bound 0)
    (hlt : ∀ r ∈ ranges, r.start < r.stop) (hbounds : ∀ r ∈ ranges, bound r.start ∧ bound r.stop)
    (hpairwise : ranges.Pairwise CapturedRange.Fits) :
    Span.Encodes (ofRanges ranges)
        (fun byte => (CapturedRange.lastCovering? ranges byte).map (·.highlight)) ∧
      ∀ s ∈ ofRanges ranges, bound s.start ∧ bound s.stop := by
  obtain ⟨hready, hshows⟩ := (ready_empty hzero).enterAll hlt hbounds hpairwise
    fun _ _ => ⟨Nat.zero_le _, by simp⟩
  obtain ⟨hready, hshown⟩ := hready.closeAll
  have hwritten := hready.written
  refine ⟨⟨⟨fun s hs => ?_, ?_⟩, fun byte highlight => ?_⟩, fun s hs => ?_⟩
  · exact hwritten.nonempty s (List.mem_reverse.mp hs)
  · exact List.pairwise_reverse.mpr hwritten.follows
  · have hreverse : Span.Shown (ofRanges ranges) byte highlight ↔
        Span.Shown (closeAll (ranges.foldl Layout.enter {}).opened
          (ranges.foldl Layout.enter {})).spans byte highlight := by
      simp [Span.Shown, ofRanges]
    rw [hreverse, hshown, hshows]
    cases CapturedRange.lastCovering? ranges byte with
    | some r => simp
    | none => simp [Shows, Span.Shown, openAt]
  · exact hwritten.bounds s (List.mem_reverse.mp hs)

end

end Layout

end GrammarKit
