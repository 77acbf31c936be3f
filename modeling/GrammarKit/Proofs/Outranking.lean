import GrammarKit.Proofs.Layout

/-!
# The range that counts

Of the ranges that take a byte the shortest counts, and of those with the same bytes the one of the
earliest pattern.  Sorted, and with one range for each stretch of bytes, ranges that nest have it
behind all others that take the byte.
-/

namespace GrammarKit.CapturedRange

/-- Whether the range `a` counts and `b` does not where both take a byte. -/
def outranks (a b : CapturedRange) : Bool :=
  a.stop - a.start < b.stop - b.start || a.sameBytes b && a.pattern < b.pattern

/-- The range that counts at the byte: the first that takes the byte and that none outranks. -/
def decisive? (ranges : List CapturedRange) (byte : Nat) : Option CapturedRange :=
  ranges.find? fun r => r.covers byte && !ranges.any fun o => o.covers byte && o.outranks r

/-- One of the ranges lies within the other or they have no byte in common. -/
def Nests (a b : CapturedRange) : Prop :=
  a.stop ≤ b.start ∨ b.stop ≤ a.start ∨ a.start ≤ b.start ∧ b.stop ≤ a.stop ∨
    b.start ≤ a.start ∧ a.stop ≤ b.stop

/-- The range `a` starts before `b`, or where `b` starts and is longer. -/
def Precedes (a b : CapturedRange) : Prop :=
  a.start < b.start ∨ a.start = b.start ∧ b.stop < a.stop

section

variable {a b c : CapturedRange} {byte : Nat}

theorem le_iff : a.le b = true ↔ a.start < b.start ∨ a.start = b.start ∧
    (b.stop < a.stop ∨ a.stop = b.stop ∧ a.pattern ≤ b.pattern) := by
  simp [le]

theorem sameBytes_iff : a.sameBytes b = true ↔ a.start = b.start ∧ a.stop = b.stop := by
  simp [sameBytes]

theorem outranks_iff : a.outranks b = true ↔ a.stop - a.start < b.stop - b.start ∨
    (a.start = b.start ∧ a.stop = b.stop) ∧ a.pattern < b.pattern := by
  simp [outranks, sameBytes]

theorem le_trans (hab : a.le b = true) (hbc : b.le c = true) : a.le c = true := by
  rw [le_iff] at *
  omega

theorem le_total (a b : CapturedRange) : (a.le b || b.le a) = true := by
  rw [Bool.or_eq_true, le_iff, le_iff]
  omega

theorem covers_congr (h : a.sameBytes b = true) : a.covers byte = b.covers byte := by
  obtain ⟨hstart, hstop⟩ := sameBytes_iff.mp h
  rw [covers, covers, hstart, hstop]

theorem sameBytes_congr (h : a.sameBytes b = true) (c : CapturedRange) :
    a.sameBytes c = b.sameBytes c := by
  obtain ⟨hstart, hstop⟩ := sameBytes_iff.mp h
  rw [sameBytes, sameBytes, hstart, hstop]

theorem Precedes.trans (hab : a.Precedes b) (hbc : b.Precedes c) : a.Precedes c := by
  unfold Precedes at *
  omega

theorem precedes_of_le (h : a.le b = true) (hne : a.sameBytes b = false) : a.Precedes b := by
  rw [Bool.eq_false_iff, Ne, sameBytes_iff] at hne
  rw [le_iff] at h
  unfold Precedes
  omega

theorem Precedes.congr (h : b.Precedes c) (hsame : a.sameBytes b = true) : a.Precedes c := by
  obtain ⟨hstart, hstop⟩ := sameBytes_iff.mp hsame
  rwa [Precedes, hstart, hstop]

theorem Precedes.sameBytes_eq (h : a.Precedes b) : a.sameBytes b = false := by
  rw [Bool.eq_false_iff, Ne, sameBytes_iff]
  unfold Precedes at h
  omega

theorem Precedes.fits (h : a.Precedes b) (hnests : a.Nests b) (ha : a.start < a.stop) :
    a.Fits b := by
  unfold Precedes at h
  unfold Nests at hnests
  unfold Fits
  omega

-- Of two ranges that take a byte the one that precedes is longer.
theorem Precedes.length_lt (h : a.Precedes b) (hnests : a.Nests b) (ha : a.covers byte = true)
    (hb : b.covers byte = true) : b.stop - b.start < a.stop - a.start := by
  rw [covers_iff] at ha hb
  unfold Precedes at h
  unfold Nests at hnests
  omega

end

/-! ## One range for each stretch of bytes -/

variable {ranges : List CapturedRange}

theorem distinct_sublist (ranges : List CapturedRange) : (distinct ranges).Sublist ranges := by
  induction ranges with
  | nil => exact .slnil
  | cons a rest ih =>
    rw [distinct]
    split
    case h_1 => exact (List.nil_sublist rest).cons_cons a
    case h_2 b others heq =>
      rw [heq] at ih
      split
      · exact ((List.sublist_cons_self b others).trans ih).cons_cons a
      · exact ih.cons_cons a

theorem pairwise_distinct (h : ranges.Pairwise fun a b => a.le b = true) :
    (distinct ranges).Pairwise Precedes := by
  induction ranges with
  | nil => exact .nil
  | cons a rest ih =>
    obtain ⟨ha, hrest⟩ := List.pairwise_cons.mp h
    have hbehind := ih hrest
    rw [distinct]
    split
    case h_1 => exact List.pairwise_singleton _ _
    case h_2 b others heq =>
      rw [heq] at hbehind
      obtain ⟨hb, hothers⟩ := List.pairwise_cons.mp hbehind
      split
      case isTrue hsame =>
        exact List.pairwise_cons.mpr ⟨fun c hc => (hb c hc).congr hsame, hothers⟩
      case isFalse hne =>
        have hmem : b ∈ rest := (distinct_sublist rest).subset (heq ▸ List.mem_cons_self)
        have hab := precedes_of_le (ha b hmem) (Bool.eq_false_iff.mpr hne)
        refine List.pairwise_cons.mpr ⟨List.forall_mem_cons.mpr ⟨hab, fun c hc => ?_⟩, hbehind⟩
        exact hab.trans (hb c hc)

-- A search for bytes finds the same range.
theorem find?_distinct {p : CapturedRange → Bool}
    (hp : ∀ a b : CapturedRange, a.sameBytes b = true → p a = p b) (ranges : List CapturedRange) :
    (distinct ranges).find? p = ranges.find? p := by
  induction ranges with
  | nil => rfl
  | cons a rest ih =>
    have hcons : (a :: rest).find? p = (a :: distinct rest).find? p := by
      rw [List.find?_cons, List.find?_cons, ih]
    rw [hcons, distinct]
    split
    case h_1 heq => rw [heq]
    case h_2 b others heq =>
      rw [heq]
      split
      case isTrue hsame =>
        -- what holds of the range that is left out holds of the one before it
        rw [List.find?_cons, List.find?_cons, List.find?_cons, ← hp a b hsame]
        cases p a <;> rfl
      case isFalse => rfl

/-! ## Sorting keeps the order of equals -/

theorem pairwise_mergeSort (ranges : List CapturedRange) :
    (ranges.mergeSort le).Pairwise fun a b => a.le b = true :=
  List.pairwise_mergeSort (fun a b c => @le_trans a b c) le_total ranges

theorem filter_mergeSort {p : CapturedRange → Bool}
    (hp : ∀ a b : CapturedRange, p a = true → p b = true → a.le b = true)
    (ranges : List CapturedRange) : (ranges.mergeSort le).filter p = ranges.filter p := by
  have hsorted : (ranges.filter p).Pairwise fun a b => a.le b = true := by
    refine List.pairwise_of_forall_mem_list fun a ha b hb => ?_
    exact hp a b (List.mem_filter.mp ha).2 (List.mem_filter.mp hb).2
  have hsub : (ranges.filter p).Sublist (ranges.mergeSort le) :=
    List.sublist_mergeSort (fun a b c => @le_trans a b c) le_total hsorted List.filter_sublist
  have hfiltered : (ranges.filter p).Sublist ((ranges.mergeSort le).filter p) := by
    simpa using hsub.filter p
  exact (hfiltered.eq_of_length
    ((List.mergeSort_perm ranges le).filter p).length_eq.symm).symm

theorem find?_mergeSort {p : CapturedRange → Bool}
    (hp : ∀ a b : CapturedRange, p a = true → p b = true → a.le b = true)
    (ranges : List CapturedRange) : (ranges.mergeSort le).find? p = ranges.find? p := by
  rw [← List.head?_filter, ← List.head?_filter, filter_mergeSort hp]

/-! ## The last range that takes a byte -/

theorem find?_congr {p q : CapturedRange → Bool} (h : ∀ r ∈ ranges, p r = q r) :
    ranges.find? p = ranges.find? q := by
  rw [← List.head?_filter, ← List.head?_filter, List.filter_congr h]

/-- The sorted ranges, one for each stretch of bytes. -/
def chosen (ranges : List CapturedRange) : List CapturedRange :=
  distinct (ranges.mergeSort le)

theorem pairwise_chosen (ranges : List CapturedRange) : (chosen ranges).Pairwise Precedes :=
  pairwise_distinct (pairwise_mergeSort ranges)

theorem mem_of_mem_chosen {r : CapturedRange} (h : r ∈ chosen ranges) : r ∈ ranges :=
  List.mem_mergeSort.mp ((distinct_sublist _).subset h)

-- Each stretch of bytes has one range among those that are chosen.
theorem exists_chosen {r : CapturedRange} (h : r ∈ ranges) :
    ∃ c ∈ chosen ranges, c.sameBytes r = true := by
  have hfind := find?_distinct (fun a b hab => sameBytes_congr hab r) (ranges.mergeSort le)
  have hsome : ((ranges.mergeSort le).find? (·.sameBytes r)).isSome = true :=
    List.find?_isSome.mpr ⟨r, List.mem_mergeSort.mpr h, by simp [sameBytes]⟩
  rw [← hfind] at hsome
  obtain ⟨c, hc⟩ := Option.isSome_iff_exists.mp hsome
  have hsame := List.find?_some hc
  exact ⟨c, List.mem_of_find?_eq_some hc, hsame⟩

-- The range that was chosen comes first among those with the same bytes.
theorem find?_sameBytes_of_mem_chosen {r : CapturedRange} (h : r ∈ chosen ranges) :
    (ranges.mergeSort le).find? (·.sameBytes r) = some r := by
  rw [← find?_distinct (fun a b hab => sameBytes_congr hab r), List.find?_eq_some_iff_append]
  obtain ⟨before, after, heq⟩ := List.append_of_mem h
  refine ⟨by simp [sameBytes], before, after, heq, fun a ha => ?_⟩
  have hpairwise := pairwise_chosen ranges
  rw [heq] at hpairwise
  have hprecedes := (List.pairwise_append.mp hpairwise).2.2 a ha r List.mem_cons_self
  rw [hprecedes.sameBytes_eq]
  rfl

-- It is of the earliest pattern.
theorem pattern_le_of_mem_chosen {r o : CapturedRange} (h : r ∈ chosen ranges) (ho : o ∈ ranges)
    (hsame : o.sameBytes r = true) : r.pattern ≤ o.pattern := by
  obtain ⟨-, before, after, heq, hbefore⟩ :=
    List.find?_eq_some_iff_append.mp (find?_sameBytes_of_mem_chosen h)
  have hsorted := pairwise_mergeSort ranges
  have hmem : o ∈ ranges.mergeSort le := List.mem_mergeSort.mpr ho
  rw [heq] at hsorted hmem
  rcases List.mem_append.mp hmem with hmem | hmem
  · have := hbefore o hmem
    rw [hsame] at this
    cases this
  · rcases List.mem_cons.mp hmem with rfl | hmem
    · exact Nat.le_refl _
    · have hle := (List.pairwise_cons.mp (List.pairwise_append.mp hsorted).2.1).1 o hmem
      rw [le_iff] at hle
      rw [sameBytes_iff] at hsame
      omega

-- It is the first one of that pattern.
theorem find?_of_mem_chosen {r : CapturedRange} (h : r ∈ chosen ranges) :
    ranges.find? (fun o => o.sameBytes r && o.pattern == r.pattern) = some r := by
  rw [← find?_mergeSort]
  · obtain ⟨-, before, after, heq, hbefore⟩ :=
      List.find?_eq_some_iff_append.mp (find?_sameBytes_of_mem_chosen h)
    refine List.find?_eq_some_iff_append.mpr
      ⟨by simp [sameBytes], before, after, heq, fun o ho => ?_⟩
    have hne : o.sameBytes r = false := by simpa using hbefore o ho
    rw [hne]
    rfl
  · intro a b ha hb
    simp only [Bool.and_eq_true, sameBytes_iff, beq_iff_eq] at ha hb
    rw [le_iff]
    omega

-- A range that takes a byte has the same bytes as the last one that was chosen, or it is longer.
theorem sameBytes_or_length_lt {d : CapturedRange} {byte : Nat}
    (hnests : ∀ a ∈ ranges, ∀ b ∈ ranges, a.Nests b)
    (hlast : lastCovering? (chosen ranges) byte = some d) :
    ∀ o ∈ ranges, o.covers byte = true →
      o.sameBytes d = true ∨ d.stop - d.start < o.stop - o.start := by
  obtain ⟨hd, after, before, heq, hafter⟩ := List.find?_eq_some_iff_append.mp hlast
  have hsplit : chosen ranges = before.reverse ++ d :: after.reverse := by
    rw [← List.reverse_inj, heq]
    simp
  have hpairwise := pairwise_chosen ranges
  rw [hsplit] at hpairwise
  intro o ho hcovers
  obtain ⟨c, hc, hsame⟩ := exists_chosen ho
  have hcmem := mem_of_mem_chosen hc
  have hccovers : c.covers byte = true := by rwa [covers_congr hsame]
  rw [hsplit] at hc
  rcases List.mem_append.mp hc with hc | hc
  · have hdmem : d ∈ ranges := mem_of_mem_chosen (by simp [hsplit])
    have hprecedes := (List.pairwise_append.mp hpairwise).2.2 c hc d List.mem_cons_self
    have hlt := hprecedes.length_lt (hnests c hcmem d hdmem) hccovers hd
    rw [sameBytes_iff] at hsame
    omega
  · rcases List.mem_cons.mp hc with rfl | hc
    · rw [sameBytes_iff] at hsame ⊢
      omega
    · have := hafter c (List.mem_reverse.mp hc)
      rw [hccovers] at this
      cases this

/-- The last of the chosen ranges that take a byte is the one that counts there. -/
theorem lastCovering?_chosen (hnests : ∀ a ∈ ranges, ∀ b ∈ ranges, a.Nests b) (byte : Nat) :
    lastCovering? (chosen ranges) byte = decisive? ranges byte := by
  cases hlast : lastCovering? (chosen ranges) byte with
  | none =>
    refine (List.find?_eq_none.mpr fun r hr hcounts => ?_).symm
    obtain ⟨c, hc, hsame⟩ := exists_chosen hr
    have hnone := List.find?_eq_none.mp hlast c (List.mem_reverse.mpr hc)
    rw [covers_congr hsame] at hnone
    exact hnone (Bool.and_eq_true_iff.mp hcounts).1
  | some d =>
    obtain ⟨hd, -⟩ := List.find?_eq_some_iff_append.mp hlast
    have hchosen : d ∈ chosen ranges := List.mem_reverse.mp (List.mem_of_find?_eq_some hlast)
    have hshortest := sameBytes_or_length_lt hnests hlast
    -- the range that counts is the first of its pattern with the bytes of the last one chosen
    rw [decisive?, ← find?_of_mem_chosen hchosen]
    refine find?_congr fun r hr => ?_
    rw [Bool.eq_iff_iff, Bool.and_eq_true, Bool.and_eq_true, Bool.not_eq_true', beq_iff_eq,
      List.any_eq_false]
    constructor
    · rintro ⟨hsame, hpattern⟩
      refine ⟨by rwa [covers_congr hsame], fun o ho houtranks => ?_⟩
      obtain ⟨hcovers, houtranks⟩ := Bool.and_eq_true_iff.mp houtranks
      have hle := pattern_le_of_mem_chosen hchosen ho
      have hor := hshortest o ho hcovers
      rw [outranks_iff] at houtranks
      rw [sameBytes_iff] at hsame hor hle
      omega
    · rintro ⟨hcovers, hnone⟩
      have hle := pattern_le_of_mem_chosen hchosen hr
      have hor := hshortest r hr hcovers
      have hdr : ¬ d.outranks r = true := fun h =>
        hnone d (mem_of_mem_chosen hchosen) (by rw [hd, h]; rfl)
      rw [outranks_iff] at hdr
      rw [sameBytes_iff] at hor hle ⊢
      omega

-- Where a range takes the byte, one counts.
theorem decisive?_eq_none (hnests : ∀ a ∈ ranges, ∀ b ∈ ranges, a.Nests b) {byte : Nat} :
    decisive? ranges byte = none ↔ ∀ r ∈ ranges, r.covers byte = false := by
  rw [← lastCovering?_chosen hnests, lastCovering?, List.find?_eq_none]
  constructor
  · intro h r hr
    obtain ⟨c, hc, hsame⟩ := exists_chosen hr
    rw [← covers_congr hsame]
    exact Bool.eq_false_iff.mpr (h c (List.mem_reverse.mpr hc))
  · intro h c hc
    exact Bool.eq_false_iff.mp (h c (mem_of_mem_chosen (List.mem_reverse.mp hc)))

-- Ranges without a byte do not count.
theorem decisive?_filter (ranges : List CapturedRange) (byte : Nat) :
    decisive? (ranges.filter fun r => r.start < r.stop) byte = decisive? ranges byte := by
  have hcovers (r : CapturedRange) : (decide (r.start < r.stop) && r.covers byte) =
      r.covers byte := by
    rw [Bool.eq_iff_iff, Bool.and_eq_true, covers_iff, decide_eq_true_eq]
    omega
  simp only [decisive?, List.find?_filter, List.any_filter, Bool.decide_and, Bool.decide_eq_true,
    ← Bool.and_assoc, hcovers]

/-- The chosen ranges can be entered one after the other. -/
theorem pairwise_fits_chosen (hnests : ∀ a ∈ ranges, ∀ b ∈ ranges, a.Nests b)
    (hlt : ∀ r ∈ ranges, r.start < r.stop) : (chosen ranges).Pairwise Fits := by
  refine (pairwise_chosen ranges).imp_of_mem fun {a b} ha hb h => ?_
  exact h.fits (hnests a (mem_of_mem_chosen ha) b (mem_of_mem_chosen hb))
    (hlt a (mem_of_mem_chosen ha))

end GrammarKit.CapturedRange
