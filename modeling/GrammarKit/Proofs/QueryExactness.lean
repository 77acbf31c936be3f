import GrammarKit.Pattern.Compile
import GrammarKit.Proofs.QuerySoundness

/-!
# Queries are read exactly

The reader takes everything that is written as the grammar has it, with the patterns and the names
that it says, and nothing else.
-/

namespace GrammarKit

open QueryReading QueryPattern

variable {l : Language} {r r' : QueryReading}

/-! ## Readers in front of tokens -/

/-- The tokens are written next, with `more` behind them, and the names are in order: those met so
far and those of the tokens lead to `names`. -/
structure QueryReading.Faces (r : QueryReading) (names : List String)
    (tokens more : List QueryToken) : Prop where
  written : Written (tokens ++ more) r.rest
  names : ∃ earlier, r.names = capturedNames earlier ∧ capturedNames (earlier ++ tokens) <+: names

/-- Reading gave `x` and stopped behind the tokens, in front of `more`. -/
def QueryReading.Yields {α : Type} (r : QueryReading)
    (result : Except QueryError (α × QueryReading)) (x : α) (tokens more : List QueryToken) :
    Prop :=
  ∃ r', result = .ok (x, r') ∧ r.Passes r' tokens ∧ Written more r'.rest

namespace QueryReading

variable {names : List String} {token : QueryToken} {tokens tokens' more : List QueryToken}

theorem Faces.first (h : r.Faces names (tokens ++ tokens') more) :
    r.Faces names tokens (tokens' ++ more) := by
  obtain ⟨hwritten, earlier, hearlier, hnames⟩ := h
  refine ⟨by rwa [← List.append_assoc], earlier, hearlier, ?_⟩
  rw [← List.append_assoc] at hnames
  exact (capturedNames_prefix_append _ _).trans hnames

theorem Faces.next (h : r.Faces names (tokens ++ tokens') more) (hpasses : r.Passes r' tokens)
    (hwritten : Written (tokens' ++ more) r'.rest) : r'.Faces names tokens' more := by
  obtain ⟨-, earlier, hearlier, hnames⟩ := h
  exact ⟨hwritten, _, hpasses.names hearlier, by rwa [List.append_assoc]⟩

theorem Faces.skipTrivia (h : r.Faces names tokens more) : r.skipTrivia.Faces names tokens more :=
  ⟨h.written.afterTrivia, h.names⟩

theorem exists_spelled (h : Written (token :: more) r.rest) :
    ∃ spelled rest, token.Spelled spelled ∧ Written more rest ∧
      r.skipTrivia.rest = spelled ++ rest :=
  h.exists_spelled

theorem peek_of_rest {c : Char} {rest : List Char} (h : r.rest = c :: rest) :
    r.peek = some c ∧ (r.advance 1).rest = rest := by
  rw [peek, advance, h]
  exact ⟨rfl, rfl⟩

theorem takeWhile_of_rest {p : Char → Bool} {name rest : List Char} (h : r.rest = name ++ rest)
    (htaken : (name ++ rest).takeWhile p = name) :
    ∃ r₁, r.takeWhile p = (name, r₁) ∧ r₁.rest = rest ∧ r₁.names = r.names := by
  have hname : (r.takeWhile p).1 = name := by
    rw [← htaken, ← h]
    rfl
  have hrest := r.rest_takeWhile p
  rw [hname, h] at hrest
  exact ⟨_, Prod.ext hname rfl, (List.append_cancel_left hrest).symm, rfl⟩

end QueryReading

variable {names : List String} {more : List QueryToken}

/-! ## Captures -/

/-- The first of the tokens, if there is one, has the sign of something else than a capture. -/
def Delimited (tokens : List QueryToken) : Prop :=
  ∀ token ∈ tokens.head?, ∃ c, token.sign? = some c ∧ c ≠ '@'

theorem Delimited.apart (h : Delimited more) : Apart more := by
  intro token htoken
  obtain ⟨c, hc, -⟩ := h token htoken
  exact ⟨c, hc⟩

theorem apart_of_captured {captures : List Nat} {behind : List QueryToken}
    (hcaptured : List.Forall₂ (CapturedAs names) captures behind) (hmore : Delimited more) :
    Apart (behind ++ more) := by
  cases hcaptured with
  | nil => exact hmore.apart
  | cons hfirst _ =>
    obtain ⟨name, -, rfl⟩ := hfirst
    rintro token ⟨⟩
    exact ⟨'@', rfl⟩

-- In front of another sign nothing is left that belongs to captures.
theorem readCaptures_none {count : Nat} (hmore : Delimited more) (h : Written more r.rest) :
    readCaptures (count + 1) r = .ok ([], r.skipTrivia) := by
  have hpeek : ∀ c, r.skipTrivia.peek = some c → c ∉ ['?', '*', '+', '@'] := by
    intro c hc
    cases more with
    | nil =>
      have hend : r.skipTrivia.rest = [] := h.afterTrivia_eq_nil
      rw [peek, hend] at hc
      cases hc
    | cons token more =>
      obtain ⟨spelled, rest, hspelled, -, hrest⟩ := exists_spelled h
      obtain ⟨c', hsign, hother⟩ := hmore token rfl
      obtain ⟨others, rfl⟩ := hspelled.exists_of_sign? hsign
      rw [(peek_of_rest hrest).1] at hc
      cases hc
      cases token <;> cases hsign <;> first | decide | exact absurd rfl hother
  rw [readCaptures]
  dsimp only
  split
  case h_5 => rfl
  all_goals
    rename_i hc
    exact absurd (by decide) (hpeek _ hc)

-- The capture gets the index that its name has in the end.
theorem captureIndex_eq {earlier : List QueryToken} {name : String} {i : Nat}
    (hearlier : r.names = capturedNames earlier)
    (hnames : capturedNames (earlier ++ [.capture name]) <+: names) (hnodup : names.Nodup)
    (hi : names[i]? = some name) : (r.captureIndex name).1 = i := by
  have hindex := getElem?_captureIndex r name
  rw [names_captureIndex hearlier] at hindex
  have hlt := (List.getElem?_eq_some_iff.mp hi).1
  refine ((List.getElem?_inj hlt hnodup).mp ?_).symm
  rw [hi, getElem?_of_names_prefix hnames hindex]

theorem readCaptures_capture {count : Nat} {name : List Char} {r₁ : QueryReading}
    (hpeek : r.skipTrivia.peek = some '@')
    (hnamed : (r.skipTrivia.advance 1).takeWhile isCaptureChar = (name, r₁)) (hname : name ≠ []) :
    readCaptures (count + 1) r = do
      let (captures, r') ← readCaptures count (r₁.captureIndex (String.ofList name)).2
      return ((r₁.captureIndex (String.ofList name)).1 :: captures, r') := by
  rw [readCaptures]
  dsimp only
  rw [hpeek, hnamed]
  exact if_neg (by simpa using hname)

theorem readCaptures_reads {count : Nat} {captures : List Nat} {behind : List QueryToken}
    (hcaptured : List.Forall₂ (CapturedAs names) captures behind) (hnodup : names.Nodup)
    (hmore : Delimited more) (h : r.Faces names behind more) (hcount : r.rest.length < count) :
    r.Yields (readCaptures count r) captures behind more := by
  induction hcaptured generalizing r count with
  | nil =>
    obtain ⟨count, rfl⟩ := Nat.exists_eq_add_one_of_ne_zero (Nat.ne_zero_of_lt hcount)
    exact ⟨_, readCaptures_none hmore h.written, .skipTrivia r, h.written.afterTrivia⟩
  | @cons i token captures behind hfirst hothers ih =>
    obtain ⟨count, rfl⟩ := Nat.exists_eq_add_one_of_ne_zero (Nat.ne_zero_of_lt hcount)
    obtain ⟨name, hi, rfl⟩ := hfirst
    have h : r.Faces names ([.capture name] ++ behind) more := h
    obtain ⟨spelled, rest, hspelled, hrest, heq⟩ := exists_spelled h.written
    cases hspelled with
    | capture hne hchars =>
      obtain ⟨hpeek, hadvance⟩ := peek_of_rest heq
      have hchars (c : Char) (hc : c ∈ name.toList) : isCaptureChar c = true :=
        isCaptureChar_iff.mpr (hchars c hc)
      have htaken := takeWhile_of_written hchars (fun _ h => h) hrest
        (apart_of_captured hothers hmore)
      obtain ⟨r₁, hnamed, rfl, hnames⟩ := takeWhile_of_rest hadvance htaken
      have hpasses := (passes_capture hpeek hnamed hne).afterSkip
      have hindex : (r₁.captureIndex name).1 = i := by
        obtain ⟨-, earlier, hearlier, hprefix⟩ := h.first
        exact captureIndex_eq (hnames.trans hearlier) hprefix hnodup hi
      rw [String.ofList_toList] at hpasses
      have hnext := h.next hpasses (by rwa [rest_captureIndex])
      have hlength := hpasses.length_le
      rw [List.length_singleton] at hlength
      have hcount : (r₁.captureIndex name).2.rest.length < count := by omega
      obtain ⟨r', hread, hpasses', hmore'⟩ := ih hnext hcount
      refine ⟨r', ?_, hpasses.trans hpasses', hmore'⟩
      rw [readCaptures_capture hpeek hnamed hne, String.ofList_toList, hread, hindex]
      rfl

/-! ## Atoms -/

-- Behind a backslash the character `d` stands for `c`.
theorem readString_backslash (names : List String) (text rest : List Char) (offset : Nat)
    {c d : Char} (h : unescape d = c) :
    readString names text offset ('\\' :: d :: rest) =
      readString names (c :: text) (offset + 1 + d.utf8Size) rest := by
  rw [readString, h]

theorem readString_of_escaped {string written : List Char} (h : Escaped string written)
    (names : List String) (text rest : List Char) (offset : Nat) :
    ∃ offset', readString names text offset (written ++ '"' :: rest) =
      .ok (text.reverse ++ string, { rest, offset := offset', names }) := by
  induction h generalizing text offset with
  | nil => exact ⟨_, by rw [List.nil_append, readString, List.append_nil]⟩
  | @plain c string written hquote hbackslash _ ih =>
    obtain ⟨offset', hread⟩ := ih (c :: text) (offset + c.utf8Size)
    refine ⟨offset', ?_⟩
    rw [List.cons_append, readString, hread]
    · simp
    all_goals simp_all
  | lineFeed _ ih =>
    have hother : unescape 'n' = '\n' := rfl
    obtain ⟨offset', hread⟩ := ih ('\n' :: text) (offset + 1 + 'n'.utf8Size)
    refine ⟨offset', ?_⟩
    rw [List.cons_append, List.cons_append, readString_backslash names text _ offset hother, hread]
    simp
  | tab _ ih =>
    have hother : unescape 't' = '\t' := rfl
    obtain ⟨offset', hread⟩ := ih ('\t' :: text) (offset + 1 + 't'.utf8Size)
    refine ⟨offset', ?_⟩
    rw [List.cons_append, List.cons_append, readString_backslash names text _ offset hother, hread]
    simp
  | @escape c _ _ hn ht _ ih =>
    have hself : unescape c = c := by rw [unescape, if_neg hn, if_neg ht]
    obtain ⟨offset', hread⟩ := ih (c :: text) (offset + 1 + c.utf8Size)
    refine ⟨offset', ?_⟩
    rw [List.cons_append, List.cons_append, readString_backslash names text _ offset hself, hread]
    simp

theorem readLiteral_reads {text : String} {s : Symbol} (hs : l.kindOfName? text false = some s)
    {spelled rest : List Char} (hspelled : QueryToken.Spelled (.string text) spelled)
    (hrest : r.rest = spelled ++ rest) (hmore : Written more rest) :
    r.Yields (readLiteral l r) (.kind s) [.string text] more := by
  have htoken := hspelled
  cases hspelled with
  | @string _ written hescaped =>
    obtain ⟨offset, hread⟩ := readString_of_escaped hescaped r.names [] rest (r.offset + 1)
    have hdrop : r.rest.drop 1 = written ++ '"' :: rest := by
      rw [hrest]
      simp
    refine ⟨{ rest, offset, names := r.names }, ?_, .spelled htoken rfl hrest rfl, hmore⟩
    have hkind : l.kindOfName? (String.ofList text.toList) false = some s := by
      rw [String.ofList_toList, hs]
    rw [readLiteral, hdrop, hread]
    simp only [bind, Except.bind, List.reverse_nil, List.nil_append, hkind]
    rfl

theorem readTest_reads {test : NodeTest} {name : String} (hnamed : test.Named l name)
    (hmore : Apart more) (h : Written (.kind name :: more) r.rest) :
    r.Yields (readTest l r) test [.kind name] more := by
  obtain ⟨spelled, rest, hspelled, hrest, heq⟩ := exists_spelled h
  have htoken := hspelled
  cases hspelled with
  | kind hne hchars =>
    have hchars (c : Char) (hc : c ∈ name.toList) : isKindChar c = true :=
      isKindChar_iff.mpr (hchars c hc)
    have htaken := takeWhile_of_written hchars (fun c => isCaptureChar_of_isKindChar) hrest hmore
    obtain ⟨r₁, htake, rfl, hnames⟩ := takeWhile_of_rest heq htaken
    have hpasses : r.Passes r₁ [.kind name] := (Passes.spelled htoken rfl heq hnames).afterSkip
    have hpeek : r.skipTrivia.peek ≠ some '(' := by
      obtain ⟨c, cs, hcs⟩ := List.exists_cons_of_ne_nil hne
      have hc := hchars c (hcs ▸ List.mem_cons_self)
      rw [hcs] at heq
      rw [(peek_of_rest heq).1]
      rintro ⟨⟩
      exact absurd hc (by decide +kernel)
    refine ⟨r₁, ?_, hpasses, hrest⟩
    rw [readTest]
    dsimp only
    rw [if_neg hpeek, htake]
    cases hnamed with
    | anyNamed => rfl
    | @kind _ s hany hs hvisible =>
      split
      case h_1 heq => exact absurd (congrArg Prod.fst heq) hne
      case h_2 heq =>
        refine absurd ?_ hany
        rw [← String.ofList_toList (s := name), show name.toList = ['_'] from congrArg Prod.fst heq]
      case h_3 heq =>
        obtain ⟨rfl, rfl⟩ := Prod.mk.inj heq
        rw [String.ofList_toList, hs]
        exact if_pos hvisible

/-! ## Patterns -/

namespace QueryPattern

variable {p : QueryPattern} {ps : List QueryPattern} {tokens : List QueryToken}

theorem Spelled.exists_first (h : p.Spelled l names tokens) :
    ∃ token rest c, tokens = token :: rest ∧ token.sign? = some c ∧ c ∈ ['(', '"', '['] := by
  cases h <;> exact ⟨_, _, _, rfl, rfl, by decide⟩

theorem AllSpelled.delimited (h : AllSpelled l names ps tokens) (hmore : Delimited more) :
    Delimited (tokens ++ more) := by
  cases h with
  | nil => exact hmore
  | cons hp _ =>
    obtain ⟨first, rest, c, rfl, hsign, hc⟩ := hp.exists_first
    rintro token ⟨⟩
    refine ⟨c, hsign, ?_⟩
    rintro rfl
    exact absurd hc (by decide)

end QueryPattern

theorem delimited_of_closes {closing : QueryToken} {close : Char} (h : closing.Closes close)
    (more : List QueryToken) : Delimited (closing :: more) := by
  rintro token ⟨⟩
  cases h <;> exact ⟨_, rfl, by decide⟩

/-- Wherever the tokens are written, the pattern is read from them. -/
def ReadFrom (l : Language) (names : List String) (p : QueryPattern) (tokens : List QueryToken) :
    Prop :=
  ∀ {steps : Nat} {r : QueryReading} {more : List QueryToken}, Delimited more →
    r.Faces names tokens more → 2 * r.rest.length ≤ steps →
    r.Yields (readPattern l steps r) p tokens more

/-- Wherever the tokens are written with one behind them that closes, the patterns are read. -/
def AllReadFrom (l : Language) (names : List String) (ps : List QueryPattern)
    (inner : List QueryToken) : Prop :=
  ∀ {steps : Nat} {r : QueryReading} {more : List QueryToken} {closing : QueryToken} {close : Char}
    (unclosed : QueryFault), closing.Closes close → r.Faces names (inner ++ [closing]) more →
    2 * r.rest.length + 1 ≤ steps →
    r.Yields (readPatterns l steps close unclosed r) ps (inner ++ [closing]) more

section

variable {captures : List Nat} {inner behind : List QueryToken}

theorem node_readFrom {test : NodeTest} {name : String} {children : List QueryPattern}
    (hnodup : names.Nodup) (hnamed : test.Named l name)
    (hspelled : AllSpelled l names children inner) (hchildren : AllReadFrom l names children inner)
    (hcaptured : List.Forall₂ (CapturedAs names) captures behind) :
    ReadFrom l names (.node test children captures)
      (.openNode :: .kind name :: (inner ++ .closeNode :: behind)) := by
  intro steps r more hmore h hsteps
  obtain ⟨spelled, rest, hopen, hrest, heq⟩ := exists_spelled h.written
  cases hopen
  obtain ⟨hpeek, rfl⟩ := peek_of_rest heq
  have hopen : r.Passes (r.skipTrivia.advance 1) [.openNode] :=
    (Passes.spelled .openNode rfl heq rfl).afterSkip
  have h : r.Faces names ([.openNode] ++ ([.kind name] ++ ((inner ++ [.closeNode]) ++ behind)))
      more := by simpa using h
  have hkind := h.next hopen (by simpa using hrest)
  have hapart : Apart (inner ++ [.closeNode] ++ behind ++ more) := by
    rw [List.append_assoc, List.append_assoc]
    exact (hspelled.delimited (delimited_of_closes .node _)).apart
  obtain ⟨r₁, htest, hname, hrest⟩ := readTest_reads hnamed hapart (by simpa using hkind.written)
  have hinner := hkind.next hname (by simpa using hrest)
  have hlength := (hopen.trans hname).length_le
  simp only [List.length_append, List.length_singleton] at hlength
  obtain ⟨steps, rfl⟩ := Nat.exists_eq_add_one_of_ne_zero (n := steps) (by omega)
  have hfuel : 2 * r₁.rest.length + 1 ≤ steps := by omega
  obtain ⟨r₂, hread, hclosed, hrest⟩ :=
    hchildren .unclosedParenthesis .node hinner.first hfuel
  obtain ⟨r₃, hcaptures, hbehind, hrest⟩ :=
    readCaptures_reads hcaptured hnodup hmore (hinner.next hclosed hrest) (Nat.lt_succ_self _)
  refine ⟨r₃, ?_, by simpa using ((hopen.trans hname).trans hclosed).trans hbehind, hrest⟩
  rw [readPattern]
  dsimp only
  rw [hpeek, htest]
  change (readPatterns l steps ')' .unclosedParenthesis r₁ >>= _) = _
  rw [hread]
  change (readCaptures (r₂.rest.length + 1) r₂ >>= _) = _
  rw [hcaptures]
  rfl

theorem literal_readFrom {text : String} {s : Symbol} (hnodup : names.Nodup)
    (hs : l.kindOfName? text false = some s)
    (hcaptured : List.Forall₂ (CapturedAs names) captures behind) :
    ReadFrom l names (.node (.kind s) [] captures) (.string text :: behind) := by
  intro steps r more hmore h hsteps
  have h : r.Faces names ([.string text] ++ behind) more := h
  obtain ⟨spelled, rest, hspelled, hrest, heq⟩ := exists_spelled h.written
  have hpeek : r.skipTrivia.peek = some '"' := by
    cases hspelled
    exact (peek_of_rest heq).1
  obtain ⟨r₁, htest, hpasses, hrest⟩ := readLiteral_reads hs hspelled heq hrest
  have hpasses := hpasses.afterSkip
  have hlength := hpasses.length_le
  rw [List.length_singleton] at hlength
  obtain ⟨steps, rfl⟩ := Nat.exists_eq_add_one_of_ne_zero (n := steps) (by omega)
  obtain ⟨r₂, hcaptures, hbehind, hrest⟩ :=
    readCaptures_reads hcaptured hnodup hmore (h.next hpasses hrest) (Nat.lt_succ_self _)
  refine ⟨r₂, ?_, hpasses.trans hbehind, hrest⟩
  rw [readPattern]
  dsimp only
  rw [hpeek, htest]
  change (readCaptures (r₁.rest.length + 1) r₁ >>= _) = _
  rw [hcaptures]
  rfl

theorem alternation_readFrom {alternatives : List QueryPattern} (hnodup : names.Nodup)
    (hne : alternatives ≠ []) (halternatives : AllReadFrom l names alternatives inner)
    (hcaptured : List.Forall₂ (CapturedAs names) captures behind) :
    ReadFrom l names (.alternation alternatives captures)
      (.openGroup :: (inner ++ .closeGroup :: behind)) := by
  intro steps r more hmore h hsteps
  obtain ⟨spelled, rest, hopen, hrest, heq⟩ := exists_spelled h.written
  cases hopen
  obtain ⟨hpeek, rfl⟩ := peek_of_rest heq
  have hopen : r.Passes (r.skipTrivia.advance 1) [.openGroup] :=
    (Passes.spelled .openGroup rfl heq rfl).afterSkip
  have h : r.Faces names ([.openGroup] ++ ((inner ++ [.closeGroup]) ++ behind)) more := by
    simpa using h
  have hinner := h.next hopen (by simpa using hrest)
  have hlength := hopen.length_le
  rw [List.length_singleton] at hlength
  obtain ⟨steps, rfl⟩ := Nat.exists_eq_add_one_of_ne_zero (n := steps) (by omega)
  have hfuel : 2 * (r.skipTrivia.advance 1).rest.length + 1 ≤ steps := by omega
  obtain ⟨r₁, hread, hclosed, hrest⟩ :=
    halternatives .unclosedBracket .group hinner.first hfuel
  obtain ⟨r₂, hcaptures, hbehind, hrest⟩ :=
    readCaptures_reads hcaptured hnodup hmore (hinner.next hclosed hrest) (Nat.lt_succ_self _)
  refine ⟨r₂, ?_, by simpa using (hopen.trans hclosed).trans hbehind, hrest⟩
  rw [readPattern]
  dsimp only
  rw [hpeek]
  change (readPatterns l steps ']' .unclosedBracket (r.skipTrivia.advance 1) >>= _) = _
  rw [hread]
  change (if alternatives.isEmpty then _ else _) = _
  rw [if_neg (by simpa using hne)]
  change (readCaptures (r₁.rest.length + 1) r₁ >>= _) = _
  rw [hcaptures]
  rfl

theorem allReadFrom_nil : AllReadFrom l names [] [] := by
  intro steps r more closing close unclosed hclosing h hsteps
  obtain ⟨steps, rfl⟩ := Nat.exists_eq_add_one_of_ne_zero (Nat.ne_zero_of_lt hsteps)
  obtain ⟨spelled, rest, hspelled, hrest, heq⟩ := exists_spelled h.written
  rw [hclosing.eq_singleton hspelled] at heq
  obtain ⟨hpeek, rfl⟩ := peek_of_rest heq
  refine ⟨r.skipTrivia.advance 1, ?_, ?_, hrest⟩
  · rw [readPatterns]
    dsimp only
    rw [hpeek]
    exact if_pos rfl
  · exact (Passes.spelled hclosing.spelled hclosing.captured?_eq_none heq rfl).afterSkip

theorem allReadFrom_cons {p : QueryPattern} {ps : List QueryPattern} {tokens : List QueryToken}
    (hspelled : p.Spelled l names tokens) (hothers : AllSpelled l names ps inner)
    (hp : ReadFrom l names p tokens) (hps : AllReadFrom l names ps inner) :
    AllReadFrom l names (p :: ps) (tokens ++ inner) := by
  intro steps r more closing close unclosed hclosing h hsteps
  obtain ⟨steps, rfl⟩ := Nat.exists_eq_add_one_of_ne_zero (Nat.ne_zero_of_lt hsteps)
  obtain ⟨first, others, c, rfl, hsign, hc⟩ := hspelled.exists_first
  obtain ⟨spelled, rest, hfirst, -, heq⟩ := exists_spelled h.written
  obtain ⟨cs, rfl⟩ := hfirst.exists_of_sign? hsign
  have hclose : c ≠ close := by
    rintro rfl
    cases hclosing <;> exact absurd hc (by decide)
  have h : r.skipTrivia.Faces names (first :: others ++ (inner ++ [closing])) more := by
    rw [← List.append_assoc]
    exact h.skipTrivia
  have hmore : Delimited (inner ++ [closing] ++ more) := by
    rw [List.append_assoc]
    exact hothers.delimited (delimited_of_closes hclosing more)
  have hlength : r.skipTrivia.rest.length ≤ r.rest.length := (Passes.skipTrivia r).length_le
  have hfuel : 2 * r.skipTrivia.rest.length ≤ steps := by omega
  obtain ⟨r₁, hread, hpasses, hrest⟩ := hp hmore h.first hfuel
  have hlength' := hpasses.length_le
  rw [List.length_cons] at hlength'
  have hfuel' : 2 * r₁.rest.length + 1 ≤ steps := by omega
  obtain ⟨r₂, hreads, hpasses', hrest⟩ := hps unclosed hclosing (h.next hpasses hrest) hfuel'
  refine ⟨r₂, ?_, by simpa using (hpasses.trans hpasses').afterSkip, hrest⟩
  rw [readPatterns]
  dsimp only
  rw [(peek_of_rest heq).1]
  refine (if_neg hclose).trans ?_
  rw [hread]
  change (readPatterns l steps close unclosed r₁ >>= _) = _
  rw [hreads]
  rfl

end

mutual

theorem QueryPattern.Spelled.readFrom {p : QueryPattern} {tokens : List QueryToken}
    (hnodup : names.Nodup) : p.Spelled l names tokens → ReadFrom l names p tokens
  | .node hnamed hchildren hcaptured =>
    node_readFrom hnodup hnamed hchildren (hchildren.allReadFrom hnodup) hcaptured
  | .literal hs hcaptured => literal_readFrom hnodup hs hcaptured
  | .alternation hne halternatives hcaptured =>
    alternation_readFrom hnodup hne (halternatives.allReadFrom hnodup) hcaptured

theorem QueryPattern.AllSpelled.allReadFrom {ps : List QueryPattern} {inner : List QueryToken}
    (hnodup : names.Nodup) : AllSpelled l names ps inner → AllReadFrom l names ps inner
  | .nil => allReadFrom_nil
  | .cons hp hps => allReadFrom_cons hp hps (hp.readFrom hnodup) (hps.allReadFrom hnodup)

end

/-! ## Queries -/

theorem readQuery_reads {count : Nat} {ps : List QueryPattern} {tokens : List QueryToken}
    (hnodup : names.Nodup) (hps : AllSpelled l names ps tokens) (h : r.Faces names tokens [])
    (hcount : r.rest.length < count) : r.Yields (readQuery l count r) ps tokens [] := by
  induction ps generalizing r count tokens with
  | nil =>
    cases hps
    obtain ⟨count, rfl⟩ := Nat.exists_eq_add_one_of_ne_zero (Nat.ne_zero_of_lt hcount)
    have hend : r.skipTrivia.rest = [] := h.written.afterTrivia_eq_nil
    refine ⟨r.skipTrivia, ?_, .skipTrivia r, hend ▸ .nil .nil⟩
    rw [readQuery]
    exact if_pos (List.isEmpty_iff.mpr hend)
  | cons p ps ih =>
    cases hps with
    | @cons _ tokens _ others hp hps =>
      obtain ⟨count, rfl⟩ := Nat.exists_eq_add_one_of_ne_zero (Nat.ne_zero_of_lt hcount)
      obtain ⟨first, more, c, rfl, hsign, -⟩ := hp.exists_first
      obtain ⟨spelled, rest, hfirst, -, heq⟩ := exists_spelled h.written
      obtain ⟨cs, rfl⟩ := hfirst.exists_of_sign? hsign
      have hmore : Delimited (others ++ []) := hps.delimited (by simp [Delimited])
      have h := h.skipTrivia
      obtain ⟨r₁, hread, hpasses, hrest⟩ :=
        hp.readFrom hnodup hmore h.first (Nat.le_add_right _ 2)
      have hlength := hpasses.afterSkip.length_le
      rw [List.length_cons] at hlength
      have hcount : r₁.rest.length < count := by omega
      obtain ⟨r₂, hreads, hpasses', hrest⟩ := ih hps (h.next hpasses hrest) hcount
      refine ⟨r₂, ?_, hpasses.afterSkip.trans hpasses', hrest⟩
      rw [readQuery]
      dsimp only
      rw [if_neg (by rw [heq]; simp), hread]
      change (readQuery l count r₁ >>= _) = _
      rw [hreads]
      rfl

/-- A query is read from a text exactly if the text is a written form of it. -/
theorem Query.ofText_eq_ok_iff (l : Language) (text : String) (q : Query) :
    Query.ofText l text = .ok q ↔ q.IsWritten l text.toList := by
  refine ⟨Query.isWritten_of_ofText, ?_⟩
  rintro ⟨tokens, hwritten, hall, hnames⟩
  have hnodup : q.captureNames.Nodup := hnames ▸ nodup_capturedNames tokens
  have hfaces : QueryReading.Faces { rest := text.toList } q.captureNames tokens [] := by
    refine ⟨by rwa [List.append_nil], [], rfl, ?_⟩
    rw [hnames]
    exact List.prefix_refl _
  obtain ⟨r, hread, hpasses, -⟩ := readQuery_reads hnodup hall hfaces (Nat.lt_succ_self _)
  have hfinal : r.names = capturedNames ([] ++ tokens) := hpasses.names rfl
  rw [List.nil_append, ← hnames] at hfinal
  rw [Query.ofText, hread]
  change Except.ok _ = _
  rw [hfinal]

/-- Bars that differ in what stands behind them: a letter or a tab. -/
def Artifact.bars : Artifact :=
  { version := 1
    name := "bars"
    symbols :=
      #[.endOfInput, .literal "|t", .literal "|\t", .rule "file" (.zeroOrMore (.symbol 1))]
    root := 3
    extras := []
    recovery := [] }

/-- The language of the bars. -/
def Language.bars : Language :=
  (ofArtifact Pattern.compile .bars 0).toOption.get rfl

-- Behind a backslash the letter stands for a tab.
theorem Query.ofText_eq_ok_bars :
    IsWritten .bars ⟨[.node (.kind 2) [] [0]], ["tab"]⟩ "\"|\\t\" @tab".toList ∧
      Query.ofText .bars "\"|\\t\" @tab" = .ok ⟨[.node (.kind 2) [] [0]], ["tab"]⟩ := by
  have hescaped : Escaped "|\t".toList ['|', '\\', 't'] :=
    .plain (by decide) (by decide) (.tab .nil)
  have hstring : QueryToken.Spelled (.string "|\t") "\"|\\t\"".toList := .string hescaped
  have hcapture : QueryToken.Spelled (.capture "tab") "@tab".toList :=
    .capture (by decide) (by simp [IsCaptureChar, IsKindChar, Text.isAlphanumeric])
  have htext : Written [.string "|\t", .capture "tab"] "\"|\\t\" @tab".toList :=
    .cons .nil hstring (.cons (.blank rfl .nil) hcapture (.nil .nil))
  have hpattern : QueryPattern.Spelled .bars ["tab"] (.node (.kind 2) [] [0])
      [.string "|\t", .capture "tab"] :=
    .literal (by decide +kernel) (.cons ⟨"tab", rfl, rfl⟩ .nil)
  have hwritten : IsWritten .bars ⟨[.node (.kind 2) [] [0]], ["tab"]⟩ "\"|\\t\" @tab".toList :=
    ⟨_, htext, .cons hpattern .nil, by decide⟩
  exact ⟨hwritten, (ofText_eq_ok_iff _ _ _).mpr hwritten⟩

end GrammarKit
