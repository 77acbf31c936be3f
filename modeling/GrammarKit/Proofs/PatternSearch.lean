import GrammarKit.Pattern.Search
import Mathlib.Data.List.Basic

/-!
# Searches with enough steps

What remains to be matched at some place of a pattern depends on the place only, so a pattern has no
more remainders than places.  As each of them is followed once, the steps of a search are never used
up, and more of them change nothing.  From this it follows that a pattern which first asks for the
start of the text is matched there as the pattern behind that is, and nowhere else, and that a
search finds the leftmost match.
-/

namespace GrammarKit.Pattern

/-! ## Remainders -/

/-- What remains to be matched at each place of a pattern that has `rest` behind it. -/
def remainders : Pattern → (rest : Remainder) → List Remainder
  | .seq p q, rest => (.seq p q :: rest) :: (p.remainders (q :: rest) ++ q.remainders rest)
  | .alt p q, rest => (.alt p q :: rest) :: (p.remainders rest ++ q.remainders rest)
  | .loop p greedy, rest =>
    (.loop p greedy :: rest) :: p.remainders (.loop p greedy :: rest)
  | p, rest => [p :: rest]

/-- The remainders that follow one, be it at once or behind a character. -/
def following : Pattern → (rest : Remainder) → List Remainder
  | .seq p q, rest => [p :: q :: rest]
  | .alt p q, rest => [p :: rest, q :: rest]
  | .loop p greedy, rest => [p :: .loop p greedy :: rest, rest]
  | _, rest => [rest]

/-- The remainders that follow one at once, in order of preference. -/
def next (place : Place) : Pattern → (rest : Remainder) → List Remainder
  | .empty, rest => [rest]
  | .chars _, _ => []
  | .assertion a, rest => if a.holds place then [rest] else []
  | .seq p q, rest => [p :: q :: rest]
  | .alt p q, rest => [p :: rest, q :: rest]
  | .loop p greedy, rest =>
    if greedy then [p :: .loop p greedy :: rest, rest] else [rest, p :: .loop p greedy :: rest]

/-- The way that waits for a character at a remainder, if one does. -/
def thread : Pattern → (rest : Remainder) → List Waiting
  | .chars set, rest => [⟨set, rest⟩]
  | _, _ => []

variable {p q r : Pattern} {place : Place} {rest way : Remainder} {ways seen seen' : List Remainder}
  {steps : Nat}

theorem length_remainders (p : Pattern) (rest : Remainder) :
    (p.remainders rest).length = p.size := by
  induction p generalizing rest with
  | seq p q hp hq | alt p q hp hq =>
    rw [remainders, size, List.length_cons, List.length_append, hp, hq]
  | loop p greedy ih => rw [remainders, size, List.length_cons, ih]
  | empty | chars | assertion => rfl

theorem self_mem_remainders (p : Pattern) (rest : Remainder) : p :: rest ∈ p.remainders rest := by
  cases p <;> exact List.mem_cons_self

-- What follows a remainder is the remainder at another place of the pattern, or is behind it.
theorem mem_remainders_of_following {behind : Remainder} (h : p :: rest ∈ r.remainders behind)
    (hway : way ∈ p.following rest) : way ∈ r.remainders behind ∨ way = behind := by
  induction r generalizing behind with
  | empty | chars | assertion =>
    obtain ⟨rfl, rfl⟩ := List.cons.inj (List.mem_singleton.mp h)
    exact .inr (List.mem_singleton.mp hway)
  | seq r₁ r₂ ih₁ ih₂ =>
    have hleft {w : Remainder} (hw : w ∈ r₁.remainders (r₂ :: behind)) :
        w ∈ (seq r₁ r₂).remainders behind := List.mem_cons_of_mem _ (List.mem_append_left _ hw)
    have hright {w : Remainder} (hw : w ∈ r₂.remainders behind) :
        w ∈ (seq r₁ r₂).remainders behind := List.mem_cons_of_mem _ (List.mem_append_right _ hw)
    rcases List.mem_cons.mp h with heq | h
    · obtain ⟨rfl, rfl⟩ := List.cons.inj heq
      rw [List.mem_singleton.mp hway]
      exact .inl (hleft (self_mem_remainders r₁ _))
    · rcases List.mem_append.mp h with h | h
      · rcases ih₁ h with hw | rfl
        · exact .inl (hleft hw)
        · exact .inl (hright (self_mem_remainders r₂ _))
      · exact (ih₂ h).imp_left hright
  | alt r₁ r₂ ih₁ ih₂ =>
    have hleft {w : Remainder} (hw : w ∈ r₁.remainders behind) :
        w ∈ (alt r₁ r₂).remainders behind := List.mem_cons_of_mem _ (List.mem_append_left _ hw)
    have hright {w : Remainder} (hw : w ∈ r₂.remainders behind) :
        w ∈ (alt r₁ r₂).remainders behind := List.mem_cons_of_mem _ (List.mem_append_right _ hw)
    rcases List.mem_cons.mp h with heq | h
    · obtain ⟨rfl, rfl⟩ := List.cons.inj heq
      rcases List.mem_pair.mp hway with rfl | rfl
      · exact .inl (hleft (self_mem_remainders r₁ _))
      · exact .inl (hright (self_mem_remainders r₂ _))
    · rcases List.mem_append.mp h with h | h
      · exact (ih₁ h).imp_left hleft
      · exact (ih₂ h).imp_left hright
  | loop r greedy ih =>
    have hbody {w : Remainder} (hw : w ∈ r.remainders (.loop r greedy :: behind)) :
        w ∈ (loop r greedy).remainders behind := List.mem_cons_of_mem _ hw
    rcases List.mem_cons.mp h with heq | h
    · obtain ⟨rfl, rfl⟩ := List.cons.inj heq
      rcases List.mem_pair.mp hway with rfl | rfl
      · exact .inl (hbody (self_mem_remainders r _))
      · exact .inr rfl
    · rcases ih h with hw | rfl
      · exact .inl (hbody hw)
      · exact .inl List.mem_cons_self

theorem size_le_of_mem_remainders {behind : Remainder} (h : p :: rest ∈ r.remainders behind) :
    p.size ≤ r.size := by
  induction r generalizing behind with
  | empty | chars | assertion =>
    obtain ⟨rfl, rfl⟩ := List.cons.inj (List.mem_singleton.mp h)
    exact Nat.le_refl _
  | seq r₁ r₂ ih₁ ih₂ | alt r₁ r₂ ih₁ ih₂ =>
    rcases List.mem_cons.mp h with heq | h
    · exact Nat.le_of_eq (congrArg size (List.cons.inj heq).1)
    · have hle : p.size ≤ r₁.size ∨ p.size ≤ r₂.size :=
        (List.mem_append.mp h).imp (fun h => ih₁ h) fun h => ih₂ h
      rw [size]
      omega
  | loop r greedy ih =>
    rcases List.mem_cons.mp h with heq | h
    · exact Nat.le_of_eq (congrArg size (List.cons.inj heq).1)
    · have hle := ih h
      rw [size]
      omega

theorem following_of_next (h : way ∈ p.next place rest) : way ∈ p.following rest := by
  cases p with
  | chars set => exact absurd h List.not_mem_nil
  | assertion a =>
    rw [next] at h
    split at h
    · exact h
    · exact absurd h List.not_mem_nil
  | loop p greedy =>
    rw [next] at h
    split at h
    · exact h
    · exact List.mem_pair.mpr (List.mem_pair.mp h).symm
  | empty | seq p q | alt p q => exact h

theorem length_next_le (p : Pattern) (place : Place) (rest : Remainder) :
    (p.next place rest).length ≤ 2 := by
  cases p with
  | assertion a => rw [next]; split <;> simp
  | loop p greedy => rw [next]; split <;> exact Nat.le_refl 2
  | empty | chars | seq | alt => simp [next]

/-! ## Steps -/

theorem waiting_seen (h : way ∈ seen) :
    waiting place (steps + 1) (way :: ways) seen = waiting place steps ways seen :=
  if_pos (List.contains_iff_mem.mpr h)

theorem waiting_ended (h : [] ∉ seen) :
    waiting place (steps + 1) ([] :: ways) seen = ([], true) :=
  if_neg (mt List.contains_iff_mem.mp h)

/-- A remainder that was not met before waits for a character, or is replaced by what follows it. -/
theorem waiting_cons (h : p :: rest ∉ seen) :
    waiting place (steps + 1) ((p :: rest) :: ways) seen =
      (p.thread rest ++
          (waiting place steps (p.next place rest ++ ways) ((p :: rest) :: seen)).1,
        (waiting place steps (p.next place rest ++ ways) ((p :: rest) :: seen)).2) := by
  rw [waiting.eq_def]
  simp only [if_neg (mt List.contains_iff_mem.mp h)]
  cases p with
  | assertion a => cases ha : a.holds place <;> simp [next, thread, ha]
  | loop p greedy => cases greedy <;> rfl
  | empty | chars | seq | alt => rfl

/-- The ways are remainders of the pattern, or have reached its end. -/
def Follows (r : Pattern) (ways : List Remainder) : Prop :=
  ∀ way ∈ ways, way ∈ r.remainders [] ∨ way = []

/-- How many remainders of the pattern were not met before. -/
def unseen (r : Pattern) (seen : List Remainder) : Nat :=
  ((r.remainders []).filter (· ∉ seen)).length

theorem unseen_nil (r : Pattern) : r.unseen [] = r.size := by
  rw [unseen, List.filter_eq_self.mpr (by simp), length_remainders]

theorem unseen_cons (h : way ∈ r.remainders []) (hseen : way ∉ seen) :
    r.unseen (way :: seen) < r.unseen seen := by
  have hfilter : (r.remainders []).filter (· ∉ way :: seen) =
      ((r.remainders []).filter (· ∉ seen)).filter (· ≠ way) := by
    rw [List.filter_filter]
    congr 1
    funext w
    simp [not_or]
  rw [unseen, unseen, hfilter]
  refine List.length_filter_lt_length_iff_exists.mpr ⟨way, ?_, by simp⟩
  exact List.mem_filter.mpr ⟨h, by simpa using hseen⟩

theorem Follows.next (place : Place) (h : r.Follows ((p :: rest) :: ways)) :
    p :: rest ∈ r.remainders [] ∧ r.Follows (p.next place rest ++ ways) := by
  obtain ⟨hway, hways⟩ := List.forall_mem_cons.mp h
  have hway := hway.resolve_right (List.cons_ne_nil p rest)
  refine ⟨hway, fun w hw => ?_⟩
  rcases List.mem_append.mp hw with hw | hw
  · exact mem_remainders_of_following hway (following_of_next hw)
  · exact hways w hw

/-- Steps beyond those that cover the ways and the remainders not yet met change nothing. -/
theorem waiting_steps (hways : r.Follows ways) (hsteps : ways.length + 2 * r.unseen seen < steps)
    (more : Nat) : waiting place (steps + more) ways seen = waiting place steps ways seen := by
  induction steps generalizing ways seen with
  | zero => exact absurd hsteps (Nat.not_lt_zero _)
  | succ steps ih =>
    rw [Nat.add_right_comm]
    match ways with
    | [] => rfl
    | way :: ways =>
      rw [List.length_cons] at hsteps
      by_cases hseen : way ∈ seen
      · rw [waiting_seen hseen, waiting_seen hseen]
        exact ih (fun w hw => hways w (List.mem_cons_of_mem way hw)) (by omega)
      · match way with
        | [] => rw [waiting_ended hseen, waiting_ended hseen]
        | p :: rest =>
          obtain ⟨hway, hnext⟩ := hways.next place
          have hunseen := unseen_cons hway hseen
          have htwo := length_next_le p place rest
          rw [waiting_cons hseen, waiting_cons hseen,
            ih hnext (by rw [List.length_append]; omega)]

/-- Every way that waits for a character goes on with a remainder, and there are no more such ways
than remainders that were not met before. -/
theorem waiting_follows (place : Place) (steps : Nat) (seen : List Remainder)
    (hways : r.Follows ways) :
    r.Follows ((waiting place steps ways seen).1.map (·.rest)) ∧
      (waiting place steps ways seen).1.length ≤ r.unseen seen := by
  induction steps generalizing ways seen with
  | zero => exact ⟨nofun, Nat.zero_le _⟩
  | succ steps ih =>
    match ways with
    | [] => exact ⟨nofun, Nat.zero_le _⟩
    | way :: ways =>
      by_cases hseen : way ∈ seen
      · rw [waiting_seen hseen]
        exact ih seen fun w hw => hways w (List.mem_cons_of_mem way hw)
      · match way with
        | [] => rw [waiting_ended hseen]; exact ⟨nofun, Nat.zero_le _⟩
        | p :: rest =>
          obtain ⟨hway, hnext⟩ := hways.next place
          have hunseen := unseen_cons hway hseen
          obtain ⟨hfollows, hlength⟩ := ih ((p :: rest) :: seen) hnext
          rw [waiting_cons hseen]
          cases p with
          | chars set =>
            refine ⟨List.forall_mem_cons.mpr ⟨?_, hfollows⟩, ?_⟩
            · exact mem_remainders_of_following hway List.mem_cons_self
            · rw [thread, List.length_append, List.length_singleton]
              omega
          | empty | assertion | seq | alt | loop =>
            exact ⟨hfollows, by simpa [thread] using by omega⟩

/-- The remainders of the ways that take the character they waited for. -/
def taking (c : Char) (threads : List Waiting) : List Remainder :=
  threads.filterMap fun w => if w.set.contains c then some w.rest else none

theorem advance_none (steps : Nat) (before : Option Char) (text : List Char) (taken : Nat)
    (best : Option Nat) : advance steps before text [] taken best = best := by
  cases text <;> cases steps <;> rfl

theorem advance_cons (steps : Nat) (before : Option Char) (c : Char) (text : List Char)
    (ways : List Remainder) (taken : Nat) (best : Option Nat) :
    advance steps before (c :: text) ways taken best =
      advance steps (some c) text (taking c (waiting ⟨before, some c⟩ steps ways []).1) (taken + 1)
        (if (waiting ⟨before, some c⟩ steps ways []).2 then some taken else best) := by
  rw [advance, taking]
  simp only
  split
  next h => rw [h, advance_none]
  next => rfl

-- After a character there are again no more ways than remainders.
theorem taking_follows (place : Place) (steps : Nat) (hways : r.Follows ways) (c : Char) :
    r.Follows (taking c (waiting place steps ways []).1) ∧
      (taking c (waiting place steps ways []).1).length ≤ r.size := by
  obtain ⟨hfollows, hlength⟩ := waiting_follows place steps [] hways
  rw [unseen_nil] at hlength
  refine ⟨fun way hway => ?_, Nat.le_trans (List.length_filterMap_le _ _) hlength⟩
  obtain ⟨w, hw, htake⟩ := List.mem_filterMap.mp hway
  obtain ⟨-, htake⟩ := Option.ite_none_right_eq_some.mp htake
  exact hfollows way (List.mem_map.mpr ⟨w, hw, Option.some.inj htake⟩)

theorem waiting_enough (hways : r.Follows ways) (hlength : ways.length ≤ r.size + 1) (more : Nat) :
    waiting place (r.steps + more) ways [] = waiting place r.steps ways [] := by
  refine waiting_steps hways ?_ more
  rw [unseen_nil, Pattern.steps]
  omega

/-- The steps of a pattern are enough for it at every place. -/
theorem advance_enough (more : Nat) {before : Option Char} {text : List Char} {taken : Nat}
    {best : Option Nat} (hways : r.Follows ways) (hlength : ways.length ≤ r.size + 1) :
    advance (r.steps + more) before text ways taken best =
      advance r.steps before text ways taken best := by
  induction text generalizing before ways taken best with
  | nil => rw [advance, advance, waiting_enough hways hlength]
  | cons c text ih =>
    obtain ⟨hfollows, hshort⟩ := taking_follows ⟨before, some c⟩ r.steps hways c
    rw [advance_cons, advance_cons, waiting_enough hways hlength]
    exact ih hfollows (Nat.le_succ_of_le hshort)

/-! ## Patterns at the start of the text -/

/-- The pattern, only at the start of the text. -/
def fromStart (p : Pattern) : Pattern :=
  .seq (.assertion .textStart) p

theorem size_fromStart (p : Pattern) : p.fromStart.size = p.size + 2 :=
  Nat.add_right_comm 1 p.size 1 |>.trans (Nat.add_comm 2 p.size)

theorem fromStart_not_mem_remainders (p : Pattern) : [p.fromStart] ∉ p.remainders [] := by
  intro h
  have hsize := size_le_of_mem_remainders h
  rw [size_fromStart] at hsize
  omega

theorem next_textStart (hplace : place.before = none) :
    next place (.assertion .textStart) rest = [rest] := by
  simp [next, Assertion.holds, hplace]

/-- With the two remainders that lead to the pattern counted as met, the same ways are found: the
longer one is none of the pattern's own, and the other one only leads to the pattern again. -/
theorem waiting_fromStart (hplace : place.before = none) (hways : p.Follows ways)
    (hsteps : ways.length + 2 * p.unseen seen < steps) (hself : [p] ∈ seen)
    (hseen : ∀ way, way ∈ seen' ↔
      way ∈ seen ∨ way = [.assertion .textStart, p] ∨ way = [p.fromStart]) :
    waiting place steps ways seen' = waiting place steps ways seen := by
  induction steps generalizing ways seen seen' with
  | zero => exact absurd hsteps (Nat.not_lt_zero _)
  | succ steps ih =>
    match ways with
    | [] => rfl
    | way :: ways =>
      rw [List.length_cons] at hsteps
      have htail : p.Follows ways := fun w hw => hways w (List.mem_cons_of_mem way hw)
      by_cases hmet : way ∈ seen
      · rw [waiting_seen hmet, waiting_seen ((hseen way).mpr (.inl hmet))]
        exact ih htail (by omega) hself hseen
      · match way with
        | [] =>
          have hmet' : [] ∉ seen' := by simpa [hseen] using hmet
          rw [waiting_ended hmet, waiting_ended hmet']
        | q :: rest =>
          obtain ⟨hway, hnext⟩ := hways.next place
          have hunseen := unseen_cons hway hmet
          by_cases hlead : q :: rest = [.assertion .textStart, p]
          · -- it leads to the pattern, which was met
            obtain ⟨rfl, rfl⟩ := List.cons.inj hlead
            obtain ⟨steps, rfl⟩ : ∃ n, steps = n + 1 := ⟨steps - 1, by omega⟩
            have hspare : waiting place (steps + 1) ways ([.assertion .textStart, p] :: seen) =
                waiting place steps ways ([.assertion .textStart, p] :: seen) :=
              waiting_steps htail (by omega) 1
            rw [waiting_seen ((hseen _).mpr (.inr (.inl rfl))), waiting_cons hmet,
              next_textStart hplace, List.singleton_append,
              waiting_seen (List.mem_cons_of_mem _ hself), ← hspare]
            refine ih htail (by omega) (List.mem_cons_of_mem _ hself) fun way => ?_
            rw [hseen, List.mem_cons]
            constructor
            · rintro (h | h | h)
              · exact .inl (.inr h)
              · exact .inl (.inl h)
              · exact .inr (.inr h)
            · rintro ((h | h) | h)
              · exact .inr (.inl h)
              · exact .inl h
              · exact .inr h
          · have hown : q :: rest ≠ [p.fromStart] := by
              intro heq
              exact fromStart_not_mem_remainders p (heq ▸ hway)
            have hmet' : q :: rest ∉ seen' := by
              rw [hseen]
              simp [hmet, hlead, hown]
            rw [waiting_cons hmet, waiting_cons hmet', ih hnext _ (List.mem_cons_of_mem _ hself)]
            · intro way
              rw [List.mem_cons, List.mem_cons, hseen, or_assoc]
            · have htwo := length_next_le q place rest
              rw [List.length_append]
              omega

theorem follows_self (p : Pattern) : p.Follows [[p]] := by
  intro way hway
  rw [List.mem_singleton.mp hway]
  exact .inl (self_mem_remainders p [])

-- The first two steps lead to the pattern.
theorem waiting_start (hplace : place.before = none) :
    waiting place p.fromStart.steps [[p.fromStart]] [] = waiting place p.steps [[p]] [] := by
  have hsteps : p.fromStart.steps = p.steps + 3 + 1 + 1 + 1 := by
    rw [Pattern.steps, Pattern.steps, size_fromStart]
    omega
  have hself : [p] ∉ [[.assertion .textStart, p], [p.fromStart]] := by
    intro h
    rcases List.mem_pair.mp h with heq | heq
    · exact absurd (List.cons.inj heq).2 (List.cons_ne_nil p []).symm
    · exact fromStart_not_mem_remainders p (heq ▸ self_mem_remainders p [])
  have hlead :
      waiting place (p.steps + 3 + 1 + 1 + 1) [[p.fromStart]] [] =
        waiting place (p.steps + 3 + 1) [[p]] [[.assertion .textStart, p], [p.fromStart]] := by
    rw [waiting_cons List.not_mem_nil, fromStart, next, List.append_nil, waiting_cons (by simp),
      next_textStart hplace, List.append_nil]
    rfl
  rw [hsteps, hlead, ← waiting_enough (follows_self p) (Nat.le_add_left 1 _) (3 + 1),
    ← Nat.add_assoc, waiting_cons hself, waiting_cons List.not_mem_nil]
  have hmet := unseen_cons (self_mem_remainders p []) List.not_mem_nil
  rw [unseen_nil] at hmet
  have hsame : waiting place (p.steps + 3) (p.next place [] ++ [])
      [[p], [.assertion .textStart, p], [p.fromStart]] =
        waiting place (p.steps + 3) (p.next place [] ++ []) [[p]] := by
    refine waiting_fromStart hplace ((follows_self p).next place).2 ?_ List.mem_cons_self
      fun way => ?_
    · have htwo := length_next_le p place []
      rw [List.append_nil, Pattern.steps]
      omega
    · simp
  rw [hsame]

/-- At the start of a text a pattern is matched as if it were not asked for only there. -/
theorem matchAt_fromStart (p : Pattern) (text : List Char) :
    p.fromStart.matchAt none text = p.matchAt none text := by
  rw [matchAt, matchAt]
  cases text with
  | nil => rw [advance, advance, waiting_start rfl]
  | cons c text =>
    obtain ⟨hfollows, hshort⟩ := taking_follows ⟨none, some c⟩ p.steps (follows_self p) c
    have hsteps : p.fromStart.steps = p.steps + 6 := by
      rw [Pattern.steps, Pattern.steps, size_fromStart]
      omega
    rw [advance_cons, advance_cons, waiting_start rfl, hsteps]
    exact advance_enough 6 hfollows (Nat.le_succ_of_le hshort)

theorem waiting_behind {c : Char} (hplace : place.before = some c) :
    waiting place p.fromStart.steps [[p.fromStart]] [] = ([], false) := by
  obtain ⟨more, hsteps⟩ : ∃ n, p.fromStart.steps = n + 1 + 1 + 1 :=
    ⟨p.fromStart.steps - 3, by rw [Pattern.steps]; omega⟩
  have hnext : next place (.assertion .textStart) [p] = [] := by
    simp [next, Assertion.holds, hplace]
  rw [hsteps, waiting_cons List.not_mem_nil, fromStart, next, List.append_nil,
    waiting_cons (by simp), hnext]
  rfl

/-- Behind a character it is not matched at all. -/
theorem matchAt_fromStart_behind (p : Pattern) (before : Char) (text : List Char) :
    p.fromStart.matchAt (some before) text = none := by
  rw [matchAt]
  cases text with
  | nil => rw [advance, waiting_behind rfl]; rfl
  | cons c text => rw [advance_cons, waiting_behind rfl]; exact advance_none _ _ _ _ _

/-! ## The leftmost match -/

/-- Where the preferred match ends of those that begin at a place of the text. -/
def matchFrom (p : Pattern) (text : List Char) (start : Nat) : Option Nat :=
  if start ≤ text.length then
    (p.matchAt (text.take start).getLast? (text.drop start)).map (start + ·)
  else none

/-- Of the matches that begin at the place `first` of the text or behind it, this is the one that
begins first. -/
structure Leftmost (p : Pattern) (text : List Char) (first : Nat) (found : Stretch) : Prop where
  begins : first ≤ found.start
  stops : p.matchFrom text found.start = some found.stop
  none_before : ∀ i, first ≤ i → i < found.start → p.matchFrom text i = none

variable {text before behind : List Char} {first stop : Nat} {found : Stretch}

theorem matchFrom_append (p : Pattern) (before behind : List Char) :
    p.matchFrom (before ++ behind) before.length =
      (p.matchAt before.getLast? behind).map (before.length + ·) := by
  rw [matchFrom, if_pos (by simp), List.take_left, List.drop_left]

theorem le_of_matchFrom {start : Nat} (h : p.matchFrom text start = some stop) :
    start ≤ text.length :=
  (Option.ite_none_right_eq_some.mp h).1

theorem leftmost_of_matchFrom (h : p.matchFrom text first = some stop) :
    p.Leftmost text first found ↔ ⟨first, stop⟩ = found := by
  constructor
  · rintro ⟨hbegins, hstops, hnone⟩
    obtain heq | hlt := Nat.eq_or_lt_of_le hbegins
    · rw [← heq, h] at hstops
      exact Stretch.ext heq (Option.some.inj hstops)
    · rw [hnone _ (Nat.le_refl _) hlt] at h
      cases h
  · rintro rfl
    exact ⟨Nat.le_refl _, h, fun i hle hlt => absurd hle (Nat.not_le.mpr hlt)⟩

theorem leftmost_of_matchFrom_eq_none (h : p.matchFrom text first = none) :
    p.Leftmost text first found ↔ p.Leftmost text (first + 1) found := by
  constructor
  · rintro ⟨hbegins, hstops, hnone⟩
    refine ⟨Nat.lt_of_le_of_ne hbegins ?_, hstops, fun i hle => hnone i (Nat.le_of_succ_le hle)⟩
    rintro rfl
    rw [hstops] at h
    cases h
  · rintro ⟨hbegins, hstops, hnone⟩
    refine ⟨Nat.le_of_succ_le hbegins, hstops, fun i hle hlt => ?_⟩
    obtain rfl | hbehind := Nat.eq_or_lt_of_le hle
    · exact h
    · exact hnone i hbehind hlt

-- The search goes on behind each place at which no match begins.
theorem findFrom_eq_some_iff :
    p.findFrom before.getLast? behind before.length = some found ↔
      p.Leftmost (before ++ behind) before.length found := by
  induction behind generalizing before with
  | nil =>
    have hhere := p.matchFrom_append before []
    rw [findFrom]
    cases hn : p.matchAt before.getLast? [] with
    | some n =>
      rw [hn] at hhere
      rw [leftmost_of_matchFrom hhere]
      exact Option.some_inj
    | none =>
      rw [hn] at hhere
      rw [leftmost_of_matchFrom_eq_none hhere]
      refine ⟨fun h => (by cases h), fun h => ?_⟩
      have hlength := le_of_matchFrom h.stops
      rw [List.append_nil] at hlength
      exact absurd h.begins (Nat.not_le.mpr (Nat.lt_succ_of_le hlength))
  | cons c behind ih =>
    have hhere := p.matchFrom_append before (c :: behind)
    rw [findFrom]
    cases hn : p.matchAt before.getLast? (c :: behind) with
    | some n =>
      rw [hn] at hhere
      rw [leftmost_of_matchFrom hhere]
      exact Option.some_inj
    | none =>
      rw [hn] at hhere
      rw [leftmost_of_matchFrom_eq_none hhere]
      have hrest := @ih (before ++ [c])
      rwa [List.getLast?_concat, List.length_append, List.append_assoc] at hrest

theorem anchored_iff : p.anchored = true ↔ ∃ q : Pattern, p = q.fromStart := by
  constructor
  · intro h
    unfold anchored at h
    split at h
    · exact ⟨_, rfl⟩
    · cases h
  · rintro ⟨q, rfl⟩
    rfl

theorem matchFrom_fromStart (p : Pattern) (text : List Char) (start : Nat) :
    p.fromStart.matchFrom text start = if start = 0 then p.matchFrom text 0 else none := by
  by_cases hstart : start = 0
  · subst hstart
    rw [if_pos rfl, matchFrom, matchFrom, List.take_zero, List.getLast?_nil, matchAt_fromStart]
  · rw [if_neg hstart, matchFrom]
    split
    next hle =>
      obtain ⟨before, hbefore⟩ : ∃ c, (text.take start).getLast? = some c := by
        refine Option.ne_none_iff_exists'.mp (mt List.getLast?_eq_none_iff.mp fun hnil => ?_)
        have hlength := congrArg List.length hnil
        rw [List.length_take, List.length_nil] at hlength
        omega
      rw [hbefore, matchAt_fromStart_behind]
      rfl
    next => rfl

/-- A search finds the leftmost match. -/
theorem find_eq_some_iff : p.find text = some found ↔ p.Leftmost text 0 found := by
  rw [find]
  split
  next h =>
    obtain ⟨q, rfl⟩ := anchored_iff.mp h
    have hhere : q.fromStart.matchFrom text 0 = q.fromStart.matchAt none text := by
      simpa using q.fromStart.matchFrom_append [] text
    cases hn : q.fromStart.matchAt none text with
    | some n =>
      rw [hn] at hhere
      rw [leftmost_of_matchFrom hhere]
      exact Option.some_inj
    | none =>
      rw [hn] at hhere
      refine ⟨fun h => (by cases h), fun h => ?_⟩
      -- there is no match at the start and none behind it
      have hstops := h.stops
      by_cases hstart : found.start = 0
      · rw [hstart, hhere] at hstops
        cases hstops
      · rw [matchFrom_fromStart, if_neg hstart] at hstops
        cases hstops
  next =>
    have h := @findFrom_eq_some_iff p [] text found
    rwa [List.getLast?_nil, List.length_nil, List.nil_append] at h

end GrammarKit.Pattern
