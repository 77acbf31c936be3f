import GrammarKit.Proofs.CaptureNames
import GrammarKit.Proofs.QueryTokens
import Mathlib.Data.List.Nodup
import Mathlib.Data.List.TakeWhile

/-!
# The grammar of queries

A query is a row of patterns; a pattern is an atom with captures behind it; an atom is a kind with
patterns in parentheses, a string, or at least one pattern in brackets.  The reader takes exactly
the texts that are written in this way, and reads from each what it says.
-/

namespace GrammarKit

/-! ## The grammar -/

def QueryToken.captured? : QueryToken → Option String
  | .capture name => some name
  | _ => none

/-- The names that the tokens capture under, each once and in the order in which they appear. -/
def capturedNames (tokens : List QueryToken) : List String :=
  (tokens.filterMap QueryToken.captured?).eraseDups

/-- The token names what is captured under the index. -/
def CapturedAs (names : List String) (index : Nat) (token : QueryToken) : Prop :=
  ∃ name, names[index]? = some name ∧ token = .capture name

/-- The test asks for the kind with the name, a visible one, or for any named node. -/
inductive NodeTest.Named (l : Language) : NodeTest → String → Prop
  | anyNamed : Named l .anyNamed "_"
  | kind {name s} : name ≠ "_" → l.kindOfName? name true = some s → l.isVisible s = true →
      Named l (.kind s) name

mutual

/-- The tokens of a pattern.  No token stands for a quantifier, so that none can follow. -/
inductive QueryPattern.Spelled (l : Language) (names : List String) :
    QueryPattern → List QueryToken → Prop
  | node {test name children inner captures behind} : test.Named l name →
      QueryPattern.AllSpelled l names children inner →
      List.Forall₂ (CapturedAs names) captures behind →
      QueryPattern.Spelled l names (.node test children captures)
        (.openNode :: .kind name :: (inner ++ .closeNode :: behind))
  | literal {text s captures behind} : l.kindOfName? text false = some s →
      List.Forall₂ (CapturedAs names) captures behind →
      QueryPattern.Spelled l names (.node (.kind s) [] captures) (.string text :: behind)
  | alternation {alternatives inner captures behind} : alternatives ≠ [] →
      QueryPattern.AllSpelled l names alternatives inner →
      List.Forall₂ (CapturedAs names) captures behind →
      QueryPattern.Spelled l names (.alternation alternatives captures)
        (.openGroup :: (inner ++ .closeGroup :: behind))

/-- The tokens of some patterns, those of one after those of the other. -/
inductive QueryPattern.AllSpelled (l : Language) (names : List String) :
    List QueryPattern → List QueryToken → Prop
  | nil : QueryPattern.AllSpelled l names [] []
  | cons {p tokens ps others} : QueryPattern.Spelled l names p tokens →
      QueryPattern.AllSpelled l names ps others →
      QueryPattern.AllSpelled l names (p :: ps) (tokens ++ others)

end

/-- The text is a written form of the query: tokens of its patterns, in which the captures have
the names of the query. -/
def Query.IsWritten (l : Language) (q : Query) (text : List Char) : Prop :=
  ∃ tokens, Written tokens text ∧ QueryPattern.AllSpelled l q.captureNames q.patterns tokens ∧
    q.captureNames = capturedNames tokens

/-! ## Capture names -/

theorem eraseDups_concat (names : List String) (name : String) :
    (names ++ [name]).eraseDups =
      if name ∈ names then names.eraseDups else names.eraseDups ++ [name] := by
  rw [List.eraseDups_append]
  split
  case isTrue h => simp [List.removeAll, h]
  case isFalse h => simp [List.removeAll, h, List.eraseDups_cons]

theorem capturedNames_concat (tokens : List QueryToken) (name : String) :
    capturedNames (tokens ++ [.capture name]) =
      if name ∈ capturedNames tokens then capturedNames tokens
      else capturedNames tokens ++ [name] := by
  have hmem : name ∈ capturedNames tokens ↔ name ∈ tokens.filterMap QueryToken.captured? :=
    List.mem_eraseDups
  rw [capturedNames, List.filterMap_append]
  exact (eraseDups_concat _ name).trans (if_congr hmem.symm rfl rfl)

theorem capturedNames_append_of_none {token : QueryToken} (h : token.captured? = none)
    (tokens : List QueryToken) : capturedNames (tokens ++ [token]) = capturedNames tokens := by
  rw [capturedNames, List.filterMap_append, List.filterMap_cons, h, List.filterMap_nil,
    List.append_nil, capturedNames]

theorem capturedNames_prefix_append (tokens more : List QueryToken) :
    capturedNames tokens <+: capturedNames (tokens ++ more) := by
  rw [capturedNames, capturedNames, List.filterMap_append, List.eraseDups_append]
  exact List.prefix_append _ _

theorem getElem?_of_names_prefix {names names' : List String} (h : names <+: names') {i : Nat}
    {name : String} (hi : names[i]? = some name) : names'[i]? = some name := by
  obtain ⟨hlt, -⟩ := List.getElem?_eq_some_iff.mp hi
  obtain ⟨more, rfl⟩ := h
  rwa [List.getElem?_append_left hlt]

theorem nodup_capturedNames (tokens : List QueryToken) : (capturedNames tokens).Nodup := by
  unfold capturedNames
  induction tokens.filterMap QueryToken.captured? using List.reverseRecOn with
  | nil => exact List.nodup_nil
  | append_singleton names name ih =>
    rw [eraseDups_concat]
    split
    · exact ih
    · rename_i hname
      refine ih.append (List.nodup_singleton name) ?_
      rw [List.disjoint_singleton, List.mem_eraseDups]
      exact hname

namespace QueryReading

variable {l : Language} {r r' r'' : QueryReading}

theorem names_captureIndex {tokens : List QueryToken} (h : r.names = capturedNames tokens)
    (name : String) :
    (r.captureIndex name).2.names = capturedNames (tokens ++ [.capture name]) := by
  rw [capturedNames_concat, ← h]
  unfold captureIndex
  split
  case h_1 i hi =>
    obtain ⟨hlt, heq, -⟩ := List.findIdx?_eq_some_iff_getElem.mp hi
    rw [if_pos (beq_iff_eq.mp heq ▸ List.getElem_mem hlt)]
  case h_2 hnone =>
    rw [if_neg]
    intro hmem
    have := List.findIdx?_eq_none_iff.mp hnone name hmem
    simp at this

theorem getElem?_captureIndex (r : QueryReading) (name : String) :
    (r.captureIndex name).2.names[(r.captureIndex name).1]? = some name := by
  unfold captureIndex
  split
  case h_1 i hi =>
    obtain ⟨hlt, heq, -⟩ := List.findIdx?_eq_some_iff_getElem.mp hi
    rw [List.getElem?_eq_getElem hlt, beq_iff_eq.mp heq]
  case h_2 => simp

/-! ## Passing tokens -/

/-- From `r` to `r'` the tokens were read: before whatever is written behind them, they are
written. -/
structure Passes (r r' : QueryReading) (tokens : List QueryToken) : Prop where
  written : ∀ {more}, Written more r'.rest → Written (tokens ++ more) r.rest
  length_le : r'.rest.length + tokens.length ≤ r.rest.length
  names : ∀ {earlier}, r.names = capturedNames earlier →
    r'.names = capturedNames (earlier ++ tokens)
  leads : r.Leads r'

namespace Passes

variable {tokens tokens' : List QueryToken}

theorem refl (r : QueryReading) : r.Passes r [] where
  written h := h
  length_le := Nat.le_refl _
  names h := by rwa [List.append_nil]
  leads := .refl r

theorem trans (h : r.Passes r' tokens) (h' : r'.Passes r'' tokens') :
    r.Passes r'' (tokens ++ tokens') where
  written hmore := by
    rw [List.append_assoc]
    exact h.written (h'.written hmore)
  length_le := by
    have := h.length_le
    have := h'.length_le
    rw [List.length_append]
    omega
  names hearlier := by
    rw [← List.append_assoc]
    exact h'.names (h.names hearlier)
  leads := h.leads.trans h'.leads

theorem skipTrivia (r : QueryReading) : r.Passes r.skipTrivia [] where
  written h := written_of_afterTrivia h
  length_le := by
    have : r.skipTrivia.rest.length = _ := List.length_drop
    simp only [List.length_nil]
    omega
  names h := by
    rw [List.append_nil]
    exact h
  leads := .refl r

theorem afterSkip (h : r.skipTrivia.Passes r' tokens) : r.Passes r' tokens :=
  (skipTrivia r).trans h

theorem length_of_spelled {token : QueryToken} {spelled : List Char}
    (hspelled : token.Spelled spelled) (hrest : r.rest = spelled ++ r'.rest) :
    r'.rest.length + [token].length ≤ r.rest.length := by
  obtain ⟨c, cs, rfl, -⟩ := hspelled.exists_cons
  simp only [hrest, List.length_append, List.length_cons, List.length_nil]
  omega

theorem spelled {token : QueryToken} {spelled : List Char} (hspelled : token.Spelled spelled)
    (hnone : token.captured? = none) (hrest : r.rest = spelled ++ r'.rest)
    (hnames : r'.names = r.names) : r.Passes r' [token] where
  written hmore := by
    rw [hrest]
    exact .cons .nil hspelled hmore
  length_le := length_of_spelled hspelled hrest
  names hearlier := by rw [hnames, hearlier, capturedNames_append_of_none hnone]
  leads := leads_of_names_eq hnames

end Passes

theorem rest_of_peek {c : Char} (h : r.peek = some c) : r.rest = c :: (r.advance 1).rest := by
  obtain ⟨rest, heq⟩ := List.head?_eq_some_iff.mp h
  rw [advance, heq]
  rfl

theorem rest_takeWhile (r : QueryReading) (p : Char → Bool) :
    r.rest = (r.takeWhile p).1 ++ (r.takeWhile p).2.rest :=
  (List.prefix_iff_eq_append.mp (List.takeWhile_prefix p)).symm

theorem of_mem_takeWhile {p : Char → Bool} {c : Char} (h : c ∈ (r.takeWhile p).1) : p c = true :=
  List.mem_takeWhile_imp h

theorem rest_captureIndex (r : QueryReading) (name : String) :
    (r.captureIndex name).2.rest = r.rest := by
  unfold captureIndex
  split <;> rfl

-- A capture is passed with the name that follows its sign.
theorem passes_capture {name : List Char} {r₁ : QueryReading} (hpeek : r.peek = some '@')
    (hnamed : (r.advance 1).takeWhile isCaptureChar = (name, r₁)) (hname : name ≠ []) :
    r.Passes (r₁.captureIndex (String.ofList name)).2 [.capture (String.ofList name)] := by
  have htaken := rest_takeWhile (r.advance 1) isCaptureChar
  have hchars : ∀ c ∈ ((r.advance 1).takeWhile isCaptureChar).1, IsCaptureChar c :=
    fun c hc => isCaptureChar_iff.mp (of_mem_takeWhile hc)
  have hnames : ((r.advance 1).takeWhile isCaptureChar).2.names = r.names := rfl
  rw [hnamed] at htaken hchars hnames
  have hspelled : QueryToken.Spelled (.capture (String.ofList name))
      ('@' :: (String.ofList name).toList) :=
    .capture (by rwa [String.toList_ofList]) (by rwa [String.toList_ofList])
  rw [String.toList_ofList] at hspelled
  have hrest : r.rest = '@' :: name ++ (r₁.captureIndex (String.ofList name)).2.rest := by
    rw [rest_captureIndex, rest_of_peek hpeek, htaken]
    rfl
  refine ⟨fun hmore => ?_, Passes.length_of_spelled hspelled hrest, fun hearlier => ?_, ?_⟩
  · rw [hrest]
    exact .cons .nil hspelled hmore
  · exact names_captureIndex (hnames.trans hearlier) _
  · exact (leads_of_names_eq hnames).trans (leads_captureIndex r₁ _)

end QueryReading

end GrammarKit
