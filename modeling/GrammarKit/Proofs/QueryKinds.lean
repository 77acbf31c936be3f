import GrammarKit.Proofs.KindNames
import GrammarKit.Proofs.QueryExactness
import GrammarKit.Proofs.Skeletons

/-!
# The kinds that a query asks for

A query asks for exactly the kinds that its text names, one for each name: behind a parenthesis a
named kind that can be seen, as a string an anonymous one.  A text that names something else is
refused.
-/

namespace GrammarKit

/-! ## Kinds of a query -/

/-- The kind that a node has to have, unless any named one will do. -/
def NodeTest.symbol? : NodeTest → Option Symbol
  | .anyNamed => none
  | .kind s => some s

mutual

/-- The kinds that the pattern asks for at any depth, in the order in which they are written. -/
def QueryPattern.kinds : QueryPattern → List Symbol
  | .node test children _ => test.symbol?.toList ++ kindsOfAll children
  | .alternation alternatives _ => kindsOfAll alternatives

def QueryPattern.kindsOfAll : List QueryPattern → List Symbol
  | [] => []
  | p :: ps => p.kinds ++ kindsOfAll ps

end

def Query.kinds (q : Query) : List Symbol :=
  QueryPattern.kindsOfAll q.patterns

/-- The name that the token has for a kind, and whether it is that of a named kind. -/
def QueryToken.kindName? : QueryToken → Option (String × Bool)
  | .kind name => if name = "_" then none else some (name, true)
  | .string text => some (text, false)
  | _ => none

/-- The kind has the name and the namedness, and if it is a named one it can be seen. -/
structure Language.Calls (l : Language) (s : Symbol) (written : String × Bool) : Prop where
  name : l.kindName? s = some written.1
  named : l.isNamed s = written.2
  visible : written.2 = true → l.isVisible s = true

/-! ## Scanning -/

/-- A name goes on as long as there are characters for it. -/
def QueryToken.StopsBefore (rest : List Char) : QueryToken → Prop
  | .kind _ => ∀ c ∈ rest.head?, isKindChar c = false
  | .capture _ => ∀ c ∈ rest.head?, isCaptureChar c = false
  | _ => True

/-- The text starts with the tokens, gaps between them left out, and goes on with `rest`. -/
inductive Scans : List Char → List QueryToken → (rest : List Char) → Prop
  | nil {cs} : Scans cs [] cs
  | cons {gap token spelled behind tokens rest} : Gap gap → token.Spelled spelled →
      token.StopsBefore behind → Scans behind tokens rest →
      Scans (gap ++ (spelled ++ behind)) (token :: tokens) rest

section

variable {token token' : QueryToken} {tokens tokens' : List QueryToken} {c : Char}
  {cs cs' rest rest' : List Char}

theorem QueryToken.Spelled.sign?_eq (h : token.Spelled (c :: cs)) :
    token.sign? = if isKindChar c then none else some c := by
  generalize hcs : c :: cs = text at h
  cases h with
  | kind hne hchars =>
    rw [if_pos (isKindChar_iff.mpr (hchars c (hcs ▸ List.mem_cons_self)))]
    rfl
  | openNode | closeNode | openGroup | closeGroup | string | capture =>
    cases hcs
    rw [if_neg (by decide +kernel)]
    rfl

-- The first character tells which token it is, and what stops it how far it goes.
theorem QueryToken.Spelled.unique (h : token.Spelled cs) (h' : token'.Spelled cs')
    (hstop : token.StopsBefore rest) (hstop' : token'.StopsBefore rest')
    (heq : cs ++ rest = cs' ++ rest') : token = token' ∧ rest = rest' := by
  have hsign : token.sign? = token'.sign? := by
    obtain ⟨c, ds, rfl, -⟩ := h.exists_cons
    obtain ⟨c', ds', rfl, -⟩ := h'.exists_cons
    rw [List.cons_append, List.cons_append] at heq
    rw [h.sign?_eq, h'.sign?_eq, (List.cons.inj heq).1]
  cases h with
  | kind _ hchars =>
    cases h' <;> cases hsign
    case kind hchars' =>
      obtain ⟨hname, hrest⟩ := Sexp.append_inj_of_head?
        (fun c hc => isKindChar_iff.mpr (hchars c hc))
        (fun c hc => isKindChar_iff.mpr (hchars' c hc)) hstop hstop' heq
      exact ⟨congrArg _ (String.toList_inj.mp hname), hrest⟩
  | capture _ hchars =>
    cases h' <;> cases hsign
    case capture hchars' =>
      rw [List.cons_append, List.cons_append] at heq
      obtain ⟨hname, hrest⟩ :=
        Sexp.append_inj_of_head? (fun c hc => isCaptureChar_iff.mpr (hchars c hc))
          (fun c hc => isCaptureChar_iff.mpr (hchars' c hc)) hstop hstop' (List.cons.inj heq).2
      exact ⟨congrArg _ (String.toList_inj.mp hname), hrest⟩
  | @string text written hescaped =>
    cases h' <;> cases hsign
    case string text' written' hescaped' =>
      -- both are what the reader of strings reads
      have hwritten : written ++ '"' :: rest = written' ++ '"' :: rest' := by simpa using heq
      obtain ⟨_, hread⟩ := readString_of_escaped hescaped [] [] rest 0
      obtain ⟨_, hread'⟩ := readString_of_escaped hescaped' [] [] rest' 0
      rw [hwritten, hread'] at hread
      obtain ⟨htext, hreading⟩ := Prod.mk.inj (Except.ok.inj hread)
      refine ⟨congrArg _ (String.toList_inj.mp htext.symm), ?_⟩
      exact (congrArg QueryReading.rest hreading).symm
  | openNode | closeNode | openGroup | closeGroup =>
    cases h' <;> cases hsign
    exact ⟨rfl, List.append_cancel_left heq⟩

/-- Whatever a text starts with is the start of the tokens of all of it. -/
theorem Scans.isPrefix (h : Scans cs tokens rest) (h' : Scans cs tokens' rest')
    (hend : Written [] rest') : tokens <+: tokens' := by
  induction h generalizing tokens' with
  | nil => exact List.nil_prefix
  | @cons gap token spelled behind tokens rest hgap hspelled hstop _ ih =>
    have htrivia : afterTrivia false (gap ++ (spelled ++ behind)) = spelled ++ behind := by
      rw [hgap.afterTrivia_append, hspelled.afterTrivia_eq]
    generalize gap ++ (spelled ++ behind) = cs at h' htrivia
    cases h' with
    | nil =>
      obtain ⟨c, cs, rfl, -⟩ := hspelled.exists_cons
      rw [hend.afterTrivia_eq_nil] at htrivia
      cases htrivia
    | cons hgap' hspelled' hstop' hscans' =>
      rw [hgap'.afterTrivia_append, hspelled'.afterTrivia_eq] at htrivia
      obtain ⟨rfl, rfl⟩ := hspelled'.unique hspelled hstop' hstop htrivia
      exact List.cons_prefix_cons.mpr ⟨rfl, ih hscans'⟩

/-! ## Tokens of patterns -/

/-- Names of kinds stand right behind an opening parenthesis only. -/
inductive NamesOpened : List QueryToken → Prop
  | nil : NamesOpened []
  | signed {token : QueryToken} {tokens : List QueryToken} {c : Char} : token.sign? = some c →
      NamesOpened tokens → NamesOpened (token :: tokens)
  | opened {name : String} {tokens : List QueryToken} : NamesOpened tokens →
      NamesOpened (.openNode :: .kind name :: tokens)

theorem NamesOpened.apart (h : NamesOpened tokens) : Apart tokens := by
  cases h with
  | nil => simp [Apart]
  | signed hsign =>
    rintro _ ⟨⟩
    exact ⟨_, hsign⟩
  | opened =>
    rintro _ ⟨⟩
    exact ⟨'(', rfl⟩

theorem NamesOpened.append (h : NamesOpened tokens) (h' : NamesOpened tokens') :
    NamesOpened (tokens ++ tokens') := by
  induction h with
  | nil => exact h'
  | signed hsign _ ih => exact .signed hsign ih
  | opened _ ih => exact .opened ih

theorem Written.stopsBefore (h : Written tokens rest) (hapart : Apart tokens)
    (token : QueryToken) : token.StopsBefore rest := by
  have hhead (c : Char) (hc : c ∈ rest.head?) : isCaptureChar c = false := by
    obtain ⟨rest, rfl⟩ := List.head?_eq_some_iff.mp hc
    exact h.isCaptureChar_head hapart
  cases token with
  | kind name =>
    intro c hc
    apply Bool.eq_false_iff.mpr
    intro hkind
    exact Bool.eq_false_iff.mp (hhead c hc) (isCaptureChar_of_isKindChar hkind)
  | capture name => exact hhead
  | _ => trivial

theorem Written.scans (hopened : NamesOpened tokens) (h : Written tokens cs) :
    ∃ rest, Scans cs tokens rest ∧ Written [] rest := by
  induction hopened generalizing cs with
  | nil => exact ⟨cs, .nil, h⟩
  | signed _ hopened ih =>
    cases h with
    | cons hgap hspelled hbehind =>
      obtain ⟨rest, hscans, hend⟩ := ih hbehind
      exact ⟨rest, .cons hgap hspelled (hbehind.stopsBefore hopened.apart _) hscans, hend⟩
  | opened hopened ih =>
    cases h with
    | cons hgap hspelled hnext =>
      cases hnext with
      | cons hgap' hspelled' hbehind =>
        obtain ⟨rest, hscans, hend⟩ := ih hbehind
        refine ⟨rest, .cons hgap hspelled trivial (.cons hgap' hspelled' ?_ hscans), hend⟩
        exact hbehind.stopsBefore hopened.apart _

variable {names : List String} {captures : List Nat}

theorem namesOpened_captures (h : List.Forall₂ (CapturedAs names) captures tokens) :
    NamesOpened tokens := by
  induction h with
  | nil => exact .nil
  | cons hfirst _ ih =>
    obtain ⟨name, -, rfl⟩ := hfirst
    exact .signed rfl ih

end

/-! ## Names of patterns -/

section

variable {l : Language} {names : List String}

/-- The kinds are those that the tokens have names for. -/
def AreCalled (l : Language) (kinds : List Symbol) (tokens : List QueryToken) : Prop :=
  List.Forall₂ l.Calls kinds (tokens.filterMap QueryToken.kindName?)

-- A token without a name for a kind.
theorem AreCalled.unnamed {kinds : List Symbol} {token : QueryToken} {tokens : List QueryToken}
    (hnone : token.kindName? = none) (h : AreCalled l kinds tokens) :
    AreCalled l kinds (token :: tokens) := by
  unfold AreCalled
  rwa [List.filterMap_cons, hnone]

theorem areCalled_captures {captures : List Nat} {tokens : List QueryToken}
    (h : List.Forall₂ (CapturedAs names) captures tokens) : AreCalled l [] tokens := by
  induction h with
  | nil => exact .nil
  | cons hfirst _ ih =>
    obtain ⟨name, -, rfl⟩ := hfirst
    exact ih.unnamed rfl

theorem AreCalled.exists_calls {kinds : List Symbol} {tokens : List QueryToken}
    {written : String × Bool} (h : AreCalled l kinds tokens)
    (hmem : written ∈ tokens.filterMap QueryToken.kindName?) : ∃ s, l.Calls s written := by
  unfold AreCalled at h
  generalize tokens.filterMap QueryToken.kindName? = namings at h hmem
  induction h with
  | nil => cases hmem
  | @cons s _ _ _ hs _ ih =>
    obtain rfl | hmem := List.mem_cons.mp hmem
    · exact ⟨s, hs⟩
    · exact ih hmem

theorem AreCalled.append {kinds kinds' : List Symbol} {tokens tokens' : List QueryToken}
    (h : AreCalled l kinds tokens) (h' : AreCalled l kinds' tokens') :
    AreCalled l (kinds ++ kinds') (tokens ++ tokens') := by
  unfold AreCalled
  rw [List.filterMap_append]
  exact List.rel_append h h'

-- Behind the patterns inside stands what closes them, and captures.
theorem AreCalled.closed {kinds : List Symbol} {inner behind : List QueryToken}
    {closing : QueryToken} {captures : List Nat} (h : AreCalled l kinds inner)
    (hnone : closing.kindName? = none)
    (hcaptured : List.Forall₂ (CapturedAs names) captures behind) :
    AreCalled l kinds (inner ++ closing :: behind) := by
  have h := h.append ((areCalled_captures hcaptured).unnamed hnone)
  rwa [List.append_nil] at h

theorem NodeTest.Named.areCalled (hl : l.Loadable) {test : NodeTest} {name : String}
    (h : test.Named l name) : AreCalled l test.symbol?.toList [.kind name] := by
  unfold AreCalled
  rw [List.filterMap_cons, List.filterMap_nil, QueryToken.kindName?]
  cases h with
  | anyNamed => exact .nil
  | kind hany hs hvisible =>
    obtain ⟨hname, hnamed, -⟩ := hl.kindOfName?_eq_some_iff.mp hs
    rw [if_neg hany]
    exact .cons ⟨hname, hnamed, fun _ => hvisible⟩ .nil

mutual

theorem QueryPattern.Spelled.areCalled (hl : l.Loadable) {p : QueryPattern}
    {tokens : List QueryToken} : p.Spelled l names tokens → AreCalled l p.kinds tokens
  | .node hnamed hchildren hcaptured =>
    ((hnamed.areCalled hl).append ((hchildren.areCalled hl).closed rfl hcaptured)).unnamed rfl
  | .literal hs hcaptured => by
    obtain ⟨hname, hnamed, -⟩ := hl.kindOfName?_eq_some_iff.mp hs
    exact .cons ⟨hname, hnamed, nofun⟩ (areCalled_captures hcaptured)
  | .alternation _ halternatives hcaptured =>
    ((halternatives.areCalled hl).closed rfl hcaptured).unnamed rfl

theorem QueryPattern.AllSpelled.areCalled (hl : l.Loadable) {ps : List QueryPattern}
    {tokens : List QueryToken} :
    AllSpelled l names ps tokens → AreCalled l (kindsOfAll ps) tokens
  | .nil => .nil
  | .cons hp hps => (hp.areCalled hl).append (hps.areCalled hl)

end

mutual

theorem QueryPattern.Spelled.namesOpened {p : QueryPattern} {tokens : List QueryToken} :
    p.Spelled l names tokens → NamesOpened tokens
  | .node _ hchildren hcaptured =>
    .opened (hchildren.namesOpened.append (.signed rfl (namesOpened_captures hcaptured)))
  | .literal _ hcaptured => .signed rfl (namesOpened_captures hcaptured)
  | .alternation _ halternatives hcaptured =>
    .signed rfl (halternatives.namesOpened.append (.signed rfl (namesOpened_captures hcaptured)))

theorem QueryPattern.AllSpelled.namesOpened {ps : List QueryPattern} {tokens : List QueryToken} :
    AllSpelled l names ps tokens → NamesOpened tokens
  | .nil => .nil
  | .cons hp hps => hp.namesOpened.append hps.namesOpened

end

/-- **A query asks for the kinds that its text names.**  Each of them has the name and the
namedness with which it is written, and the named ones can be seen.  A text is refused as soon as
it has a name in it that no such kind has. -/
theorem Query.ofText_areCalled (hl : l.Loadable) (text : String) :
    (∀ q, Query.ofText l text = .ok q → ∃ tokens rest,
      Scans text.toList tokens rest ∧ Written [] rest ∧ AreCalled l q.kinds tokens) ∧
    ∀ tokens rest, Scans text.toList tokens rest →
      ∀ written ∈ tokens.filterMap QueryToken.kindName?, (∀ s, ¬ l.Calls s written) →
        ∃ e, Query.ofText l text = .error e := by
  have haccepted (q : Query) (h : Query.ofText l text = .ok q) : ∃ tokens rest,
      Scans text.toList tokens rest ∧ Written [] rest ∧ AreCalled l q.kinds tokens := by
    obtain ⟨tokens, hwritten, hall, -⟩ := Query.isWritten_of_ofText h
    obtain ⟨rest, hscans, hend⟩ := hwritten.scans hall.namesOpened
    exact ⟨tokens, rest, hscans, hend, hall.areCalled hl⟩
  refine ⟨haccepted, fun tokens rest hscans written hmem hnone => ?_⟩
  cases h : Query.ofText l text with
  | error e => exact ⟨e, rfl⟩
  | ok q =>
    obtain ⟨tokens', rest', hscans', hend, hcalled⟩ := haccepted q h
    obtain ⟨more, rfl⟩ := hscans.isPrefix hscans' hend
    have hmem : written ∈ (tokens ++ more).filterMap QueryToken.kindName? := by
      rw [List.filterMap_append]
      exact List.mem_append_left _ hmem
    obtain ⟨s, hs⟩ := hcalled.exists_calls hmem
    exact absurd hs (hnone s)

end

/-- The text is read as a query that asks for the kinds. -/
def Query.AsksFor (l : Language) (text : String) (kinds : List Symbol) : Prop :=
  (Query.ofText l text).toOption.map Query.kinds = some kinds

instance (l : Language) (text : String) (kinds : List Symbol) :
    Decidable (Query.AsksFor l text kinds) :=
  inferInstanceAs (Decidable (_ = _))

theorem Query.AsksFor.exists_ofText {l : Language} {text : String} {kinds : List Symbol}
    (h : AsksFor l text kinds) : ∃ q, Query.ofText l text = .ok q ∧ q.kinds = kinds := by
  unfold AsksFor at h
  cases hread : Query.ofText l text with
  | error e =>
    rw [hread] at h
    cases h
  | ok q =>
    rw [hread] at h
    exact ⟨q, rfl, Option.some.inj h⟩

-- The second text names a kind that is never seen.
theorem Query.ofText_areCalled_sums :
    Language.sums.Loadable ∧
      (∃ tokens rest, Scans "(sum \"+\" @op)".toList tokens rest ∧ Written [] rest ∧
        AreCalled .sums [8, 1] tokens) ∧
      ∃ e, Query.ofText .sums "(_expression)" = .error e := by
  have haccepted := (ofText_areCalled Language.sums_loadable "(sum \"+\" @op)").1
  have hrefused := (ofText_areCalled Language.sums_loadable "(_expression)").2
  have hname : QueryToken.Spelled (.kind "_expression") "_expression".toList :=
    .kind (by decide) (by simp [IsKindChar, Text.isAlphanumeric])
  have hscans : Scans "(_expression)".toList [.openNode, .kind "_expression"] [')'] := by
    refine .cons .nil .openNode trivial (.cons .nil hname ?_ .nil)
    rintro _ ⟨⟩
    decide +kernel
  refine ⟨Language.sums_loadable, ?_, hrefused _ _ hscans ("_expression", true) (by decide) ?_⟩
  · have hasks : AsksFor .sums "(sum \"+\" @op)" [8, 1] := by decide +kernel
    obtain ⟨q, hq, hkinds⟩ := hasks.exists_ofText
    exact hkinds ▸ haccepted q hq
  · intro s hs
    have hfound := Language.sums_loadable.kindOfName?_eq_some_iff.mpr
      ⟨hs.name, hs.named, Language.sums_not_isNamesake s⟩
    have heq : Language.sums.kindOfName? "_expression" true = some 7 := by decide +kernel
    obtain rfl : 7 = s := Option.some.inj (heq.symm.trans hfound)
    exact absurd (hs.visible rfl) (by decide)

-- The end of a text has a name, but no node stands for it.
theorem Query.exists_hidden_kind :
    Language.sums.Loadable ∧ ∃ q, Query.ofText .sums "\"end\"" = .ok q ∧ q.kinds = [0] ∧
      Language.sums.isVisible 0 = false := by
  have hasks : AsksFor .sums "\"end\"" [0] := by decide +kernel
  obtain ⟨q, hq, hkinds⟩ := hasks.exists_ofText
  exact ⟨Language.sums_loadable, q, hq, hkinds, rfl⟩

end GrammarKit
