import GrammarKit.Proofs.LongestMatch
import GrammarKit.Proofs.PatternGroups
import GrammarKit.Proofs.PatternSearch

/-!
# Tokens at the start of what is left

What is written in a grammar for a pattern is put, as it is, into a group behind the start of the
text.  If it can be compiled on its own, then of the text that is left the token takes what the
pattern on its own finds there, and what it finds starts where the token starts.
-/

namespace GrammarKit

/-! ## What is documented of regular expressions -/

/-- What is documented of an engine for regular expressions.  Here `ends written text start` is the
place at which the preferred match stops of those that begin at the place `start` of the text, if
there is one. -/
structure Regex.Compiler.Documented (compile : Regex.Compiler)
    (ends : (written text : List Char) → (start : Nat) → Option Nat) : Prop where
  /-- A search finds the match that begins first. -/
  leftmost : ∀ {written : List Char} {regex : Regex} (text : List Char) (found : Stretch),
    compile written = some regex →
    (regex.find text = some found ↔
      ends written text found.start = some found.stop ∧
        ∀ i < found.start, ends written text i = none)
  /-- A group matches what the expression in it matches. -/
  group : ∀ {written : List Char} {regex regex' : Regex} (text : List Char) (start : Nat),
    compile written = some regex →
    compile (['(', '?', ':'] ++ written ++ [')']) = some regex' →
    ends (['(', '?', ':'] ++ written ++ [')']) text start = ends written text start
  /-- What stands behind `^` is an expression of its own, if it is a group. -/
  grouped : ∀ {written : List Char} {regex regex' : Regex}, compile written = some regex →
    compile (['^', '(', '?', ':'] ++ written ++ [')']) = some regex' →
    ∃ regex'', compile (['(', '?', ':'] ++ written ++ [')']) = some regex''
  /-- It matches behind `^` what it matches at the start of the text. -/
  start : ∀ {written : List Char} {regex regex' : Regex} (text : List Char) (start : Nat),
    compile written = some regex →
    compile (['^', '(', '?', ':'] ++ written ++ [')']) = some regex' →
    ends (['^', '(', '?', ':'] ++ written ++ [')']) text start =
      if start = 0 then ends (['(', '?', ':'] ++ written ++ [')']) text 0 else none

/-- In a group behind the start of the text an expression finds what it finds on its own, and that
begins at the start. -/
theorem Regex.Compiler.Documented.find_eq_some {compile : Regex.Compiler}
    {ends : List Char → List Char → Nat → Option Nat} (hdoc : compile.Documented ends)
    {written : List Char} {regex anchored : Regex} (hregex : compile written = some regex)
    (hanchored : compile (['^', '(', '?', ':'] ++ written ++ [')']) = some anchored)
    {text : List Char} {found : Stretch} (h : anchored.find text = some found) :
    found.start = 0 ∧ regex.find text = some found := by
  obtain ⟨group, hgroup⟩ := hdoc.grouped hregex hanchored
  obtain ⟨hends, -⟩ := (hdoc.leftmost text found hanchored).mp h
  rw [hdoc.start text _ hregex hanchored] at hends
  obtain ⟨hstart, hends⟩ := Option.ite_none_right_eq_some.mp hends
  rw [hdoc.group text 0 hregex hgroup] at hends
  refine ⟨hstart, (hdoc.leftmost text found hregex).mpr ⟨hstart ▸ hends, fun i hi => ?_⟩⟩
  rw [hstart] at hi
  exact absurd hi (Nat.not_lt_zero i)

/-! ## Tokens that their pattern matches -/

/-- In the text the token takes what the regular expression finds in the text that is left, and that
begins where the token starts. -/
def Token.IsMatch (regex : Regex) (text : List Char) (t : Token) : Prop :=
  ∃ before rest n, text = before ++ rest ∧ t.start = Text.byteLength before ∧
    regex.find rest = some ⟨0, n⟩ ∧ 0 < n ∧ t.stop = t.start + Text.byteLength (rest.take n)

/-- **Tokens are anchored.**  A token whose pattern can be compiled on its own is what the pattern
finds where the token starts. -/
theorem Language.LoadedWith.tokenize_isMatch {compile : Regex.Compiler} {l : Language}
    (hl : l.LoadedWith compile) {ends : List Char → List Char → Nat → Option Nat}
    (hdoc : compile.Documented ends) (text : String) {t : Token}
    (ht : t ∈ (l.lexer.tokenize text).tokens ++ (l.lexer.tokenize text).extras)
    {written : String} (hwritten : l.artifact.definition? t.symbol = some (.pattern written))
    {regex : Regex} (hregex : compile written.toList = some regex) :
    t.IsMatch regex text.toList := by
  have hloadable : l.Loadable := ⟨compile, hl⟩
  have hbest := (Lexer.lists_ofArtifact hl.checked.lexer).scan_best hloadable.tokensOf
    hloadable.isToken_errorSymbol 0 0 text.toList
  have hknown : t.isError = false := by
    obtain ⟨info, hinfo, -⟩ := Option.map_eq_some_iff.mp hwritten
    exact beq_eq_false_iff_ne.mpr (hloadable.ne_errorSymbol hinfo)
  obtain ⟨before, rest, bytes, htext, hstart, hstop, hreads⟩ := hbest.known t ht hknown
  rcases hreads.reads with ⟨literal, ⟨info, hinfo, hliteral⟩, -⟩ | hpattern
  · simp [Artifact.definition?, hinfo, hliteral] at hwritten
  · obtain ⟨written', anchored, found, ⟨info, hinfo, hdefinition⟩, hanchored, hfound, hbytes,
      hpos⟩ := hpattern
    obtain rfl : written' = written := by
      simpa [Artifact.definition?, hinfo, hdefinition] using hwritten
    obtain ⟨hzero, hfound⟩ := hdoc.find_eq_some hregex hanchored hfound
    obtain ⟨start, stop⟩ := found
    obtain rfl : start = 0 := hzero
    refine ⟨before, rest, stop, htext, ?_, hfound, ?_, hbytes ▸ hstop⟩
    · rw [hstart, Nat.zero_add]
    · refine Nat.pos_of_ne_zero ?_
      rintro rfl
      rw [hbytes] at hpos
      exact absurd hpos (Nat.lt_irrefl 0)

/-! ## The engine -/

namespace Pattern

-- A group is one part of what it stands in, namely what is read in it.
theorem readGroup_group {text rest : List Char} {p : Pattern} {steps steps' : Nat} {r : Reading}
    (h : readGroup steps false {} text = some (p, rest)) (hle : steps ≤ steps' + 1)
    (hcase : r.anyCase = false) :
    readGroup (steps' + 2) false r (['(', '?', ':'] ++ text ++ [')']) =
      some ((r.push p).pattern, []) := by
  have hgroup : readGroup (steps' + 1) true {} (text ++ [')']) = some (p, []) :=
    readGroup_append h hle []
  simp only [List.cons_append, List.nil_append]
  rw [readGroup.eq_3, if_neg (by decide), if_neg (by decide), if_pos rfl, hcase]
  refine Option.bind_eq_some_iff.mpr ⟨(.nested false, text ++ [')']), rfl, ?_⟩
  exact Option.bind_eq_some_iff.mpr ⟨_, hgroup, rfl⟩

/-- What can be read on its own is read in the same way in a group. -/
theorem ofText?_group {text : List Char} {p : Pattern} (h : ofText? text = some p) :
    ofText? (['(', '?', ':'] ++ text ++ [')']) = some p := by
  obtain ⟨⟨p, rest⟩, hread, h⟩ := Option.bind_eq_some_iff.mp h
  obtain rfl := Option.some.inj h
  have hlength : (['(', '?', ':'] ++ text ++ [')']).length + 1 = text.length + 3 + 2 := by
    simp
  refine Option.bind_eq_some_iff.mpr ⟨(p, []), ?_, rfl⟩
  rw [hlength]
  exact readGroup_group hread (by omega) rfl

/-- And in a group behind the start of the text it is asked for only there. -/
theorem ofText?_anchored {text : List Char} {p : Pattern} (h : ofText? text = some p) :
    ofText? (['^', '(', '?', ':'] ++ text ++ [')']) = some p.fromStart := by
  obtain ⟨⟨p, rest⟩, hread, h⟩ := Option.bind_eq_some_iff.mp h
  obtain rfl := Option.some.inj h
  have hlength : (['^', '(', '?', ':'] ++ text ++ [')']).length + 1 = text.length + 3 + 2 + 1 := by
    simp
  refine Option.bind_eq_some_iff.mpr ⟨(p.fromStart, []), ?_, rfl⟩
  rw [hlength, List.append_assoc, List.cons_append, readGroup.eq_3, if_neg (by decide),
    if_neg (by decide), if_neg (by decide), if_neg (by decide)]
  refine Option.bind_eq_some_iff.mpr ⟨(.assertion .textStart, _), rfl, ?_⟩
  exact readGroup_group hread (by omega) rfl

/-- Where a match of what is written stops, if it can be read. -/
def matchEnd (written text : List Char) (start : Nat) : Option Nat :=
  (ofText? written).bind (·.matchFrom text start)

theorem compile_eq_some {written : List Char} {regex : Regex} (h : compile written = some regex) :
    ∃ p, ofText? written = some p ∧ p.toRegex = regex :=
  Option.map_eq_some_iff.mp h

theorem matchEnd_eq {written : List Char} {p : Pattern} (h : ofText? written = some p)
    (text : List Char) (start : Nat) : matchEnd written text start = p.matchFrom text start := by
  rw [matchEnd, h, Option.bind_some]

/-- The engine does what is documented. -/
theorem compile_documented : Regex.Compiler.Documented compile matchEnd where
  leftmost text found hregex := by
    obtain ⟨p, hp, rfl⟩ := compile_eq_some hregex
    simp only [matchEnd_eq hp]
    refine find_eq_some_iff.trans ⟨fun h => ?_, fun h => ?_⟩
    · exact ⟨h.stops, fun i hi => h.none_before i (Nat.zero_le i) hi⟩
    · exact ⟨Nat.zero_le _, h.1, fun i _ hi => h.2 i hi⟩
  group text start hregex _ := by
    obtain ⟨p, hp, -⟩ := compile_eq_some hregex
    rw [matchEnd_eq hp, matchEnd_eq (ofText?_group hp)]
  grouped hregex _ := by
    obtain ⟨p, hp, -⟩ := compile_eq_some hregex
    exact ⟨p.toRegex, by rw [compile, ofText?_group hp, Option.map_some]⟩
  start text start hregex _ := by
    obtain ⟨p, hp, -⟩ := compile_eq_some hregex
    rw [matchEnd_eq (ofText?_anchored hp), matchEnd_eq (ofText?_group hp), matchFrom_fromStart]

end Pattern

theorem Language.LoadedWith.tokenize_isMatch_words :
    Language.words.LoadedWith Pattern.compile ∧
      Regex.Compiler.Documented Pattern.compile Pattern.matchEnd ∧
      ∃ t ∈ (Language.words.lexer.tokenize "<if ifs").tokens ++
        (Language.words.lexer.tokenize "<if ifs").extras,
      (t.start, t.stop) = (4, 7) ∧
      Language.words.artifact.definition? t.symbol = some (.pattern "[a-z]+") ∧
      ∃ regex, Pattern.compile "[a-z]+".toList = some regex ∧
        t.IsMatch regex "<if ifs".toList := by
  have hl : Language.words.LoadedWith Pattern.compile := ⟨.words, 0, rfl⟩
  have ht : (⟨1, 4, 7⟩ : Token) ∈ (Language.words.lexer.tokenize "<if ifs").tokens ++
      (Language.words.lexer.tokenize "<if ifs").extras := by decide
  exact ⟨hl, Pattern.compile_documented, _, ht, rfl, rfl, _, rfl,
    hl.tokenize_isMatch Pattern.compile_documented "<if ifs" ht rfl rfl⟩

/-- Words whose pattern closes the group that it is put into, and opens another one. -/
def Artifact.unbalanced : Artifact :=
  { version := 1
    name := "unbalanced"
    symbols :=
      #[.endOfInput, .pattern "w" "x)|(?:y", .rule "r" (.zeroOrMore (.symbol 1))]
    root := 2
    extras := []
    recovery := [] }

/-- The language of those words. -/
def Language.unbalanced : Language :=
  (ofArtifact Pattern.compile .unbalanced 0).toOption.get rfl

-- The second alternative is found behind a character that the token takes too.
theorem Language.exists_token_not_isMatch :
    Language.unbalanced.LoadedWith Pattern.compile ∧
      ∃ t ∈ (Language.unbalanced.lexer.tokenize "ay").tokens,
      (t.start, t.stop) = (0, 2) ∧
      Language.unbalanced.artifact.definition? t.symbol = some (.pattern "x)|(?:y") ∧
      Pattern.compile "x)|(?:y".toList = none ∧
      ∃ regex, Pattern.compile "^(?:x)|(?:y)".toList = some regex ∧
        regex.find "ay".toList = some ⟨1, 2⟩ ∧ ¬ t.IsMatch regex "ay".toList := by
  refine ⟨⟨.unbalanced, 0, rfl⟩, ⟨1, 0, 2⟩, by decide, rfl, rfl, rfl, _, rfl, rfl, ?_⟩
  rintro ⟨before, rest, n, htext, hstart, hmatch, -⟩
  obtain rfl : before = [] := Text.eq_nil_of_byteLength hstart.symm
  obtain rfl : ['a', 'y'] = rest := htext
  cases hmatch

end GrammarKit
