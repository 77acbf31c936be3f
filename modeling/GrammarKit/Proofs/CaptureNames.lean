import GrammarKit.Proofs.Embedding
import GrammarKit.Proofs.Loading
import GrammarKit.Query.Reader

/-!
# Captures have names

The captures of a query that was read are indexes of its capture names: reading a pattern only adds
names, and a capture gets the index of a name that is there.
-/

namespace GrammarKit

/-- The captures in the pattern are indexes below `count`. -/
inductive QueryPattern.Indexed (count : Nat) : QueryPattern → Prop
  | node {test children captures} : (∀ i ∈ captures, i < count) →
      (∀ p ∈ children, Indexed count p) → Indexed count (.node test children captures)
  | alternation {alternatives captures} : (∀ i ∈ captures, i < count) →
      (∀ p ∈ alternatives, Indexed count p) → Indexed count (.alternation alternatives captures)

theorem QueryPattern.Indexed.mono {count count' : Nat} {p : QueryPattern} (h : p.Indexed count)
    (hle : count ≤ count') : p.Indexed count' := by
  induction h with
  | node hcaptures _ ih => exact .node (fun i hi => Nat.lt_of_lt_of_le (hcaptures i hi) hle) ih
  | alternation hcaptures _ ih =>
    exact .alternation (fun i hi => Nat.lt_of_lt_of_le (hcaptures i hi) hle) ih

/-! ## Reading -/

namespace QueryReading

variable {r r' : QueryReading}

/-- Reading went on from `r` to `r'`: the names met before keep their indexes. -/
def Leads (r r' : QueryReading) : Prop :=
  r.names <+: r'.names

theorem Leads.refl (r : QueryReading) : r.Leads r :=
  List.prefix_refl _

theorem Leads.trans {r'' : QueryReading} (h : r.Leads r') (h' : r'.Leads r'') : r.Leads r'' :=
  List.IsPrefix.trans h h'

theorem leads_of_names_eq (h : r'.names = r.names) : r.Leads r' := by
  rw [Leads, h]

theorem Leads.length_le (h : r.Leads r') : r.names.length ≤ r'.names.length :=
  List.IsPrefix.length_le h

theorem captureIndex_lt (r : QueryReading) (name : String) :
    (r.captureIndex name).1 < (r.captureIndex name).2.names.length := by
  unfold captureIndex
  split
  case h_1 i hi => exact (List.findIdx?_eq_some_iff_getElem.mp hi).1
  case h_2 => simp

theorem leads_captureIndex (r : QueryReading) (name : String) :
    r.Leads (r.captureIndex name).2 := by
  unfold captureIndex
  split
  · exact .refl r
  · exact List.prefix_append _ _

end QueryReading

open QueryReading

variable {l : Language} {r r' : QueryReading}

theorem readCaptures_indexed {count : Nat} {captures : List Nat}
    (h : readCaptures count r = .ok (captures, r')) :
    r.Leads r' ∧ ∀ i ∈ captures, i < r'.names.length := by
  induction count generalizing r r' captures with
  | zero =>
    cases h
    exact ⟨.refl _, by simp⟩
  | succ count ih =>
    rw [readCaptures] at h
    dsimp only at h
    split at h
    case h_4 =>
      split at h
      · cases h
      · obtain ⟨⟨others, r''⟩, hothers, h⟩ := Except.of_bind_eq_ok h
        cases h
        obtain ⟨hleads, hindexed⟩ := ih hothers
        let named := (r.skipTrivia.advance 1).takeWhile isCaptureChar
        have hnew : r.Leads (named.2.captureIndex (String.ofList named.1)).2 :=
          leads_captureIndex named.2 _
        have hfirst := captureIndex_lt named.2 (String.ofList named.1)
        refine ⟨hnew.trans hleads, List.forall_mem_cons.mpr ⟨?_, hindexed⟩⟩
        exact Nat.lt_of_lt_of_le hfirst hleads.length_le
    case h_5 =>
      cases h
      exact ⟨.refl r, by simp⟩
    all_goals cases h

theorem readString_names {names : List String} {text rest : List Char} {offset : Nat}
    {out : List Char} (h : readString names text offset rest = .ok (out, r')) :
    r'.names = names := by
  fun_induction readString names text offset rest with
  | case1 => cases h
  | case2 =>
    cases h
    rfl
  | case3 => cases h
  | case4 =>
    rename_i ih
    exact ih h
  | case5 =>
    rename_i ih
    exact ih h

theorem readLiteral_names {test : NodeTest} (h : readLiteral l r = .ok (test, r')) :
    r'.names = r.names := by
  obtain ⟨⟨text, r''⟩, hstring, h⟩ := Except.of_bind_eq_ok h
  dsimp only at h
  split at h
  · cases h
    exact readString_names hstring
  · cases h

theorem readTest_names {test : NodeTest} (h : readTest l r = .ok (test, r')) :
    r'.names = r.names := by
  unfold readTest at h
  dsimp only at h
  split at h
  · cases h
  · split at h
    case h_1 => cases h
    case h_2 heq =>
      cases h
      exact congrArg (·.2.names) heq.symm
    case h_3 heq =>
      split at h
      · split at h
        · cases h
          exact congrArg (·.2.names) heq.symm
        · cases h
      · cases h

theorem refuseAtom_ne_ok {α : Type} {a : α} : refuseAtom r ≠ .ok a := by
  intro h
  unfold refuseAtom at h
  split at h
  case h_5 =>
    split at h
    · split at h <;> cases h
    · cases h
  all_goals cases h

/-- What reading a pattern and reading patterns up to their end say of captures. -/
theorem readPattern_indexed (l : Language) (steps : Nat) :
    (∀ r p r', readPattern l steps r = .ok (p, r') →
      r.Leads r' ∧ p.Indexed r'.names.length) ∧
    ∀ close unclosed r ps r', readPatterns l steps close unclosed r = .ok (ps, r') →
      r.Leads r' ∧ ∀ p ∈ ps, p.Indexed r'.names.length := by
  induction steps with
  | zero => exact ⟨fun _ _ _ h => (by cases h), fun _ _ _ _ _ h => (by cases h)⟩
  | succ steps ih =>
    obtain ⟨ihpattern, ihpatterns⟩ := ih
    constructor
    · intro r p r' h
      rw [readPattern] at h
      dsimp only at h
      split at h
      case h_1 =>
        obtain ⟨⟨test, r₁⟩, htest, h⟩ := Except.of_bind_eq_ok h
        obtain ⟨⟨children, r₂⟩, hchildren, h⟩ := Except.of_bind_eq_ok h
        obtain ⟨⟨captures, r₃⟩, hcaptures, h⟩ := Except.of_bind_eq_ok h
        cases h
        have htest : r.Leads r₁ := leads_of_names_eq (by rw [readTest_names htest]; rfl)
        obtain ⟨hchildren, hindexed⟩ := ihpatterns _ _ _ _ _ hchildren
        obtain ⟨hcaptures, hcaptured⟩ := readCaptures_indexed hcaptures
        exact ⟨(htest.trans hchildren).trans hcaptures,
          .node hcaptured fun p hp => (hindexed p hp).mono hcaptures.length_le⟩
      case h_2 =>
        obtain ⟨⟨test, r₁⟩, htest, h⟩ := Except.of_bind_eq_ok h
        obtain ⟨⟨captures, r₂⟩, hcaptures, h⟩ := Except.of_bind_eq_ok h
        cases h
        have htest : r.Leads r₁ := leads_of_names_eq (by rw [readLiteral_names htest]; rfl)
        obtain ⟨hcaptures, hcaptured⟩ := readCaptures_indexed hcaptures
        exact ⟨htest.trans hcaptures, .node hcaptured (by simp)⟩
      case h_3 =>
        obtain ⟨⟨alternatives, r₁⟩, halternatives, h⟩ := Except.of_bind_eq_ok h
        dsimp only at h
        split at h
        · cases h
        · obtain ⟨⟨captures, r₂⟩, hcaptures, h⟩ := Except.of_bind_eq_ok h
          cases h
          obtain ⟨halternatives, hindexed⟩ := ihpatterns _ _ _ _ _ halternatives
          have halternatives : r.Leads r₁ := halternatives
          obtain ⟨hcaptures, hcaptured⟩ := readCaptures_indexed hcaptures
          exact ⟨halternatives.trans hcaptures,
            .alternation hcaptured fun p hp => (hindexed p hp).mono hcaptures.length_le⟩
      case h_4 => exact absurd h refuseAtom_ne_ok
    · intro close unclosed r ps r' h
      rw [readPatterns] at h
      dsimp only at h
      split at h
      · cases h
      · split at h
        · cases h
          exact ⟨.refl _, by simp⟩
        · obtain ⟨⟨p, r₁⟩, hp, h⟩ := Except.of_bind_eq_ok h
          obtain ⟨⟨others, r₂⟩, hothers, h⟩ := Except.of_bind_eq_ok h
          cases h
          obtain ⟨hleads, hindexed⟩ := ihpattern _ _ _ hp
          -- the names do not change with what is passed over in front of the pattern
          have hleads : r.Leads r₁ := hleads
          obtain ⟨hrest, hothers⟩ := ihpatterns _ _ _ _ _ hothers
          exact ⟨hleads.trans hrest,
            List.forall_mem_cons.mpr ⟨hindexed.mono hrest.length_le, hothers⟩⟩

theorem readQuery_indexed {count : Nat} {ps : List QueryPattern}
    (h : readQuery l count r = .ok (ps, r')) :
    r.Leads r' ∧ ∀ p ∈ ps, p.Indexed r'.names.length := by
  induction count generalizing r r' ps with
  | zero =>
    cases h
    exact ⟨.refl _, by simp⟩
  | succ count ih =>
    rw [readQuery] at h
    dsimp only at h
    split at h
    · cases h
      exact ⟨.refl _, by simp⟩
    · obtain ⟨⟨p, r₁⟩, hp, h⟩ := Except.of_bind_eq_ok h
      obtain ⟨⟨others, r₂⟩, hothers, h⟩ := Except.of_bind_eq_ok h
      cases h
      obtain ⟨hleads, hindexed⟩ := (readPattern_indexed l _).1 _ _ _ hp
      have hleads : r.Leads r₁ := hleads
      obtain ⟨hrest, hothers⟩ := ih hothers
      exact ⟨hleads.trans hrest,
        List.forall_mem_cons.mpr ⟨hindexed.mono hrest.length_le, hothers⟩⟩

/-- The captures of a query that was read have names. -/
theorem Query.indexed_of_ofText {text : String} {q : Query} (h : Query.ofText l text = .ok q) :
    ∀ p ∈ q.patterns, p.Indexed q.captureNames.length := by
  obtain ⟨⟨patterns, r⟩, hread, h⟩ := Except.of_bind_eq_ok h
  cases h
  exact (readQuery_indexed hread).2

/-! ## Matching -/

mutual

theorem QueryPattern.First.index_lt {tree : Tree} {count : Nat} {p : QueryPattern} {n : Node tree}
    {captured : List (Capture tree)} :
    p.First n captured → p.Indexed count → ∀ c ∈ captured, c.index < count
  | .node _ _ h _, .node hcaptures hchildren => by
    intro c hc
    rcases List.mem_append.mp hc with hc | hc
    · obtain ⟨i, hi, rfl⟩ := List.mem_map.mp hc
      exact hcaptures i hi
    · exact h.index_lt hchildren c hc
  | .alternation heq _ h, .alternation hcaptures halternatives => by
    intro c hc
    rcases List.mem_append.mp hc with hc | hc
    · obtain ⟨i, hi, rfl⟩ := List.mem_map.mp hc
      exact hcaptures i hi
    · exact h.index_lt (halternatives _ (heq ▸ List.mem_append_right _ List.mem_cons_self)) c hc

theorem QueryPattern.FirstAt.index_lt {tree : Tree} {count : Nat} {ps : List QueryPattern}
    {n : Node tree} {positions : List Nat} {captured : List (Capture tree)} :
    FirstAt ps n positions captured → (∀ p ∈ ps, p.Indexed count) →
      ∀ c ∈ captured, c.index < count
  | .nil, _ => by simp
  | .cons _ hp hps, hindexed => by
    intro c hc
    obtain ⟨hfirst, hrest⟩ := List.forall_mem_cons.mp hindexed
    rcases List.mem_append.mp hc with hc | hc
    · exact hp.index_lt hfirst c hc
    · exact hps.index_lt hrest c hc

end

/-- What a query that was read captures has a name. -/
theorem Query.index_lt_of_mem_run {m : Language} {t : Subtree} {text : List Char} {source : String}
    {q : Query} (hq : Query.ofText l source = .ok q) {n : Node (Tree.ofSubtree m t text)}
    {found : QueryMatch (Tree.ofSubtree m t text)} (hfound : found ∈ q.run n) :
    ∀ c ∈ found.captures, c.index < q.captureNames.length := by
  obtain ⟨d, -, hmem⟩ := List.mem_flatMap.mp hfound
  obtain ⟨k, p, hp, -, hfirst⟩ := Query.mem_matchesAt.mp hmem
  exact hfirst.index_lt (Query.indexed_of_ofText hq p (List.mem_of_getElem? hp))

end GrammarKit
