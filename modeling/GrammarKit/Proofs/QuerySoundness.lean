import GrammarKit.Proofs.QueryGrammar

/-!
# What is read of a query is written so

The reader takes nothing but what the grammar has: the characters that it passed are tokens with
gaps between them, and the tokens are those of the patterns that it gives.
-/

namespace GrammarKit

open QueryReading QueryPattern

variable {l : Language} {r r' : QueryReading}

/-! ## Captures -/

theorem readCaptures_spelled {count : Nat} {captures : List Nat}
    (h : readCaptures count r = .ok (captures, r')) :
    ∃ behind, r.Passes r' behind ∧ ∀ names, r'.names <+: names →
      List.Forall₂ (CapturedAs names) captures behind := by
  induction count generalizing r captures with
  | zero =>
    cases h
    exact ⟨[], .refl _, fun _ _ => .nil⟩
  | succ count ih =>
    rw [readCaptures] at h
    dsimp only at h
    split at h
    case h_4 hpeek =>
      split at h
      · cases h
      · rename_i hname
        obtain ⟨⟨others, r''⟩, hothers, h⟩ := Except.of_bind_eq_ok h
        cases h
        obtain ⟨behind, hpasses, hbehind⟩ := ih hothers
        have hcapture := passes_capture hpeek rfl fun hnil => hname (List.isEmpty_iff.mpr hnil)
        refine ⟨_ :: behind, (hcapture.trans hpasses).afterSkip, fun names hnames => ?_⟩
        refine .cons ⟨_, ?_, rfl⟩ (hbehind names hnames)
        exact getElem?_of_names_prefix (List.IsPrefix.trans hpasses.leads hnames)
          (getElem?_captureIndex _ _)
    case h_5 =>
      cases h
      exact ⟨[], .skipTrivia r, fun _ _ => .nil⟩
    all_goals cases h

/-! ## Atoms -/

theorem readString_escaped {names : List String} {text rest out : List Char} {offset : Nat}
    (h : readString names text offset rest = .ok (out, r')) :
    ∃ string written, out = text.reverse ++ string ∧ Escaped string written ∧
      rest = written ++ '"' :: r'.rest := by
  fun_induction readString names text offset rest with
  | case1 => cases h
  | case2 text =>
    cases h
    exact ⟨[], [], (List.append_nil _).symm, .nil, rfl⟩
  | case3 => cases h
  | case4 text offset c rest ih =>
    obtain ⟨string, written, rfl, hstring, rfl⟩ := ih h
    exact ⟨unescape c :: string, '\\' :: c :: written, by simp, hstring.unescape c, rfl⟩
  | case5 text offset c rest hquote hend hbackslash ih =>
    obtain ⟨string, written, rfl, hstring, rfl⟩ := ih h
    refine ⟨c :: string, c :: written, by simp, .plain ?_ ?_ hstring, rfl⟩
    · rintro rfl
      exact hquote rfl
    · rintro rfl
      cases written <;> exact hbackslash _ _ rfl rfl

theorem readLiteral_spelled {test : NodeTest} (hpeek : r.peek = some '"')
    (h : readLiteral l r = .ok (test, r')) :
    ∃ text s, l.kindOfName? text false = some s ∧ test = .kind s ∧ r.Passes r' [.string text] := by
  have hnames := readLiteral_names h
  obtain ⟨⟨out, r''⟩, hstring, h⟩ := Except.of_bind_eq_ok h
  dsimp only at h
  split at h
  case h_1 s hs =>
    cases h
    obtain ⟨_, written, rfl, hescaped, hrest⟩ := readString_escaped hstring
    refine ⟨String.ofList out, s, hs, rfl, ?_⟩
    have hspelled : QueryToken.Spelled (.string (String.ofList out)) ('"' :: (written ++ ['"'])) :=
      .string (by rwa [String.toList_ofList])
    refine .spelled hspelled rfl ?_ hnames
    rw [rest_of_peek hpeek]
    change '"' :: r.rest.drop 1 = _
    rw [hrest]
    simp
  case h_2 => cases h

theorem readTest_spelled {test : NodeTest} (h : readTest l r = .ok (test, r')) :
    ∃ name, test.Named l name ∧ r.Passes r' [.kind name] := by
  have htaken := rest_takeWhile r.skipTrivia isKindChar
  have hchars : ∀ c ∈ (r.skipTrivia.takeWhile isKindChar).1, IsKindChar c :=
    fun c hc => isKindChar_iff.mp (of_mem_takeWhile hc)
  have hnames : (r.skipTrivia.takeWhile isKindChar).2.names = r.skipTrivia.names := rfl
  unfold readTest at h
  dsimp only at h
  split at h
  · cases h
  · generalize r.skipTrivia.takeWhile isKindChar = taken at *
    obtain ⟨name, rest⟩ := taken
    -- whatever the name is, it was passed
    have hpasses (hne : name ≠ []) : r.Passes rest [.kind (String.ofList name)] := by
      have hspelled : QueryToken.Spelled (.kind (String.ofList name))
          (String.ofList name).toList :=
        .kind (by rwa [String.toList_ofList]) (by rwa [String.toList_ofList])
      rw [String.toList_ofList] at hspelled
      exact (Passes.spelled hspelled rfl htaken hnames).afterSkip
    split at h
    case h_1 => cases h
    case h_2 heq =>
      cases heq
      cases h
      exact ⟨"_", .anyNamed, hpasses (by simp)⟩
    case h_3 hempty hany heq =>
      cases heq
      split at h
      case h_1 s hs =>
        split at h
        case isTrue hvisible =>
          cases h
          refine ⟨_, .kind ?_ hs hvisible, hpasses hempty⟩
          intro hname
          refine hany ?_
          rw [← String.toList_ofList (l := name), hname]
          rfl
        case isFalse => cases h
      case h_2 => cases h

/-! ## Patterns -/

/-- The character that is the token behind patterns. -/
inductive QueryToken.Closes : QueryToken → Char → Prop
  | node : Closes .closeNode ')'
  | group : Closes .closeGroup ']'

namespace QueryToken.Closes

variable {closing : QueryToken} {close : Char}

theorem spelled (h : closing.Closes close) : closing.Spelled [close] := by
  cases h
  · exact .closeNode
  · exact .closeGroup

theorem eq_singleton (h : closing.Closes close) {spelled : List Char}
    (hspelled : closing.Spelled spelled) : spelled = [close] := by
  cases h <;> cases hspelled <;> rfl

theorem captured?_eq_none (h : closing.Closes close) : closing.captured? = none := by
  cases h <;> rfl

end QueryToken.Closes

/-- Whatever pattern is read within the steps is written so. -/
def ReadsSpelled (l : Language) (steps : Nat) : Prop :=
  ∀ ⦃r p r'⦄, readPattern l steps r = .ok (p, r') →
    ∃ tokens, tokens ≠ [] ∧ r.Passes r' tokens ∧
      ∀ names, r'.names <+: names → p.Spelled l names tokens

/-- Whatever patterns are read within the steps, up to what closes them, are written so. -/
def ReadsAllSpelled (l : Language) (steps : Nat) : Prop :=
  ∀ ⦃close unclosed r ps r'⦄ ⦃closing : QueryToken⦄, closing.Closes close →
    readPatterns l steps close unclosed r = .ok (ps, r') →
    ∃ inner, r.Passes r' (inner ++ [closing]) ∧
      ∀ names, r'.names <+: names → AllSpelled l names ps inner

theorem ReadsAllSpelled.pattern {steps : Nat} (hall : ReadsAllSpelled l steps) :
    ReadsSpelled l (steps + 1) := by
  intro r p r' h
  rw [readPattern] at h
  dsimp only at h
  split at h
  case h_1 hpeek =>
    obtain ⟨⟨test, r₁⟩, htest, h⟩ := Except.of_bind_eq_ok h
    obtain ⟨⟨children, r₂⟩, hchildren, h⟩ := Except.of_bind_eq_ok h
    obtain ⟨⟨captures, r₃⟩, hcaptures, h⟩ := Except.of_bind_eq_ok h
    cases h
    have hopen : r.skipTrivia.Passes (r.skipTrivia.advance 1) [.openNode] :=
      .spelled .openNode rfl (rest_of_peek hpeek) rfl
    obtain ⟨name, hnamed, hname⟩ := readTest_spelled htest
    obtain ⟨inner, hinner, hspelled⟩ := hall .node hchildren
    obtain ⟨behind, hbehind, hcaptured⟩ := readCaptures_spelled hcaptures
    have hpasses : r.Passes r₃ (.openNode :: .kind name :: (inner ++ .closeNode :: behind)) := by
      simpa using (((hopen.trans hname).trans hinner).trans hbehind).afterSkip
    refine ⟨_, by simp, hpasses, fun names hnames => ?_⟩
    exact .node hnamed (hspelled names (List.IsPrefix.trans hbehind.leads hnames))
      (hcaptured names hnames)
  case h_2 hpeek =>
    obtain ⟨⟨test, r₁⟩, htest, h⟩ := Except.of_bind_eq_ok h
    obtain ⟨⟨captures, r₂⟩, hcaptures, h⟩ := Except.of_bind_eq_ok h
    cases h
    obtain ⟨text, s, hs, rfl, htext⟩ := readLiteral_spelled hpeek htest
    obtain ⟨behind, hbehind, hcaptured⟩ := readCaptures_spelled hcaptures
    exact ⟨_, by simp, (htext.trans hbehind).afterSkip,
      fun names hnames => .literal hs (hcaptured names hnames)⟩
  case h_3 hpeek =>
    obtain ⟨⟨alternatives, r₁⟩, halternatives, h⟩ := Except.of_bind_eq_ok h
    dsimp only at h
    split at h
    · cases h
    · rename_i hne
      obtain ⟨⟨captures, r₂⟩, hcaptures, h⟩ := Except.of_bind_eq_ok h
      cases h
      have hopen : r.skipTrivia.Passes (r.skipTrivia.advance 1) [.openGroup] :=
        .spelled .openGroup rfl (rest_of_peek hpeek) rfl
      obtain ⟨inner, hinner, hspelled⟩ := hall .group halternatives
      obtain ⟨behind, hbehind, hcaptured⟩ := readCaptures_spelled hcaptures
      have hpasses : r.Passes r₂ (.openGroup :: (inner ++ .closeGroup :: behind)) := by
        simpa using ((hopen.trans hinner).trans hbehind).afterSkip
      refine ⟨_, by simp, hpasses, fun names hnames => ?_⟩
      exact .alternation (by simpa using hne)
        (hspelled names (List.IsPrefix.trans hbehind.leads hnames)) (hcaptured names hnames)
  case h_4 => exact absurd h refuseAtom_ne_ok

theorem ReadsSpelled.patterns {steps : Nat} (hone : ReadsSpelled l steps)
    (hall : ReadsAllSpelled l steps) : ReadsAllSpelled l (steps + 1) := by
  intro close unclosed r ps r' closing hclosing h
  rw [readPatterns] at h
  dsimp only at h
  split at h
  · cases h
  · rename_i c hpeek
    split at h
    · rename_i hc
      subst hc
      cases h
      exact ⟨[], (Passes.spelled hclosing.spelled hclosing.captured?_eq_none
        (rest_of_peek hpeek) rfl).afterSkip, fun _ _ => .nil⟩
    · obtain ⟨⟨p, r₁⟩, hp, h⟩ := Except.of_bind_eq_ok h
      obtain ⟨⟨others, r₂⟩, hothers, h⟩ := Except.of_bind_eq_ok h
      cases h
      obtain ⟨tokens, -, hpasses, hspelled⟩ := hone hp
      obtain ⟨inner, hinner, hrest⟩ := hall hclosing hothers
      have hpasses := (hpasses.trans hinner).afterSkip
      rw [← List.append_assoc] at hpasses
      exact ⟨_, hpasses, fun names hnames =>
        .cons (hspelled names (List.IsPrefix.trans hinner.leads hnames)) (hrest names hnames)⟩

theorem readPattern_spelled (l : Language) (steps : Nat) :
    ReadsSpelled l steps ∧ ReadsAllSpelled l steps := by
  induction steps with
  | zero => exact ⟨fun _ _ _ h => (by cases h), fun _ _ _ _ _ _ _ h => (by cases h)⟩
  | succ steps ih => exact ⟨ih.2.pattern, ih.1.patterns ih.2⟩

/-! ## Queries -/

theorem readQuery_spelled {count : Nat} {ps : List QueryPattern} (hcount : r.rest.length < count)
    (h : readQuery l count r = .ok (ps, r')) :
    ∃ tokens, r.Passes r' tokens ∧ r'.rest = [] ∧ AllSpelled l r'.names ps tokens := by
  induction count generalizing r r' ps with
  | zero => cases hcount
  | succ count ih =>
    rw [readQuery] at h
    dsimp only at h
    split at h
    · rename_i hempty
      cases h
      exact ⟨[], .skipTrivia r, List.isEmpty_iff.mp hempty, .nil⟩
    · obtain ⟨⟨p, r₁⟩, hp, h⟩ := Except.of_bind_eq_ok h
      obtain ⟨⟨others, r₂⟩, hothers, h⟩ := Except.of_bind_eq_ok h
      cases h
      obtain ⟨tokens, hne, hpasses, hspelled⟩ := (readPattern_spelled l _).1 hp
      have hpasses := hpasses.afterSkip
      have hlength := hpasses.length_le
      have hpos := List.length_pos_of_ne_nil hne
      obtain ⟨more, hmore, hend, hall⟩ := ih (r := r₁) (by omega) hothers
      exact ⟨_, hpasses.trans hmore, hend, .cons (hspelled _ hmore.leads) hall⟩

theorem Query.isWritten_of_ofText {text : String} {q : Query} (h : Query.ofText l text = .ok q) :
    q.IsWritten l text.toList := by
  obtain ⟨⟨patterns, r⟩, hread, h⟩ := Except.of_bind_eq_ok h
  cases h
  obtain ⟨tokens, hpasses, hend, hall⟩ := readQuery_spelled (Nat.lt_succ_self _) hread
  have hwritten : Written (tokens ++ []) text.toList :=
    hpasses.written (by rw [hend]; exact .nil .nil)
  have hnames : r.names = capturedNames ([] ++ tokens) := hpasses.names rfl
  rw [List.append_nil] at hwritten
  exact ⟨tokens, hwritten, hall, hnames⟩

end GrammarKit
