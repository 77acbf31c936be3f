import GrammarKit.Corpus
import GrammarKit.Proofs.Kinds
import GrammarKit.Proofs.Lines
import Mathlib.Data.List.Forall2

/-!
# Trees by their written forms

Two trees of kinds are written in the same way only if they are the same tree, as long as no kind
holds a character that the written form uses itself.  So a corpus case compares trees, and it does
not matter how its expected tree is laid out.
-/

namespace GrammarKit

/-- The kind can be told from what surrounds it in an S-expression. -/
def IsCleanKind (kind : String) : Prop :=
  kind ≠ "" ∧ ∀ c ∈ kind.toList, Text.isBlank c = false ∧ c ≠ '(' ∧ c ≠ ')'

-- Only the characters of the kind are looked at, not all that there are.
instance (kind : String) : Decidable (IsCleanKind kind) :=
  @instDecidableAnd _ _ inferInstance (List.decidableBAll _ _)

namespace Sexp

/-- Every kind in the tree has the property. -/
inductive Every (P : String → Prop) : Sexp → Prop
  | node {kind children} : P kind → (∀ t ∈ children, Every P t) → Every P (.node kind children)

/-- Induction over trees: a property passes from the children to the tree. -/
@[elab_as_elim]
theorem induction {P : Sexp → Prop}
    (node : ∀ kind children, (∀ t ∈ children, P t) → P (.node kind children)) (t : Sexp) : P t :=
  @Sexp.rec P (fun ts => ∀ t ∈ ts, P t) (fun kind children ih => node kind children ih) (by simp)
    (fun _ _ ht hts => by simpa using ⟨ht, hts⟩) t

theorem chars_eq (kind : String) (children : List Sexp) :
    (node kind children).chars = '(' :: (kind.toList ++ (charsOfChildren children ++ [')'])) := by
  rw [chars, List.cons_append, List.cons_append, List.append_assoc]

/-! ## Written trees are reduced already -/

/-- Behind `last` the text is kept as it is, and `c` is its last character. -/
def Keeps (last : Option Char) (text : List Char) (c : Char) : Prop :=
  ∀ rest, normalizeFrom last false (text ++ rest) = text ++ normalizeFrom (some c) false rest

section

variable {last : Option Char} {c d : Char} {text text' : List Char}

theorem Keeps.append (h : Keeps last text c) (h' : Keeps (some c) text' d) :
    Keeps last (text ++ text') d := by
  intro rest
  rw [List.append_assoc, h, h', List.append_assoc]

theorem keeps_single (h : Text.isBlank c = false) : Keeps last [c] c :=
  fun _ => normalizeFrom_cons h

theorem keeps_space (hc : c ≠ '(') (hblank : Text.isBlank d = false) (hd : d ≠ ')') :
    Keeps (some c) [' ', d] d := by
  intro rest
  rw [List.cons_append, normalizeFrom_cons_blank (by decide), List.singleton_append,
    normalizeFrom_cons hblank]
  simp [hc, hd]

-- What is clean is kept, and a space behind it too.
theorem exists_keeps_of_clean (hne : text ≠ [])
    (hclean : ∀ c ∈ text, Text.isBlank c = false ∧ c ≠ '(' ∧ c ≠ ')') :
    ∃ c, c ≠ '(' ∧ Keeps last text c := by
  induction text generalizing last with
  | nil => exact absurd rfl hne
  | cons d text ih =>
    obtain ⟨⟨hblank, hopen, -⟩, hclean⟩ := List.forall_mem_cons.mp hclean
    cases text with
    | nil => exact ⟨d, hopen, keeps_single hblank⟩
    | cons e text =>
      obtain ⟨c, hc, hkeeps⟩ := ih (List.cons_ne_nil e text) hclean
      exact ⟨c, hc, (keeps_single hblank).append hkeeps⟩

/-- What is written of the tree behind its opening parenthesis is kept there. -/
def KeepsInside (t : Sexp) : Prop :=
  ∃ text, t.chars = '(' :: text ∧ Keeps (some '(') text ')'

theorem exists_keeps_charsOfChildren {ts : List Sexp} (hts : ∀ t ∈ ts, t.KeepsInside)
    (hc : c ≠ '(') : ∃ d, d ≠ '(' ∧ Keeps (some c) (charsOfChildren ts) d := by
  induction ts generalizing c with
  | nil => exact ⟨c, hc, fun _ => rfl⟩
  | cons t ts ih =>
    obtain ⟨⟨text, htext, hinside⟩, hts⟩ := List.forall_mem_cons.mp hts
    obtain ⟨d, hd, hrest⟩ := @ih ')' hts (by decide)
    refine ⟨d, hd, ?_⟩
    rw [charsOfChildren, htext]
    exact ((keeps_space hc (by decide) (by decide)).append hinside).append hrest

theorem Every.keepsInside {t : Sexp} (h : t.Every IsCleanKind) : t.KeepsInside := by
  induction t using induction with
  | node kind children ih =>
    cases h with
    | node hkind hchildren =>
      have hne : kind.toList ≠ [] := fun hnil => hkind.1 (String.toList_eq_nil_iff.mp hnil)
      obtain ⟨c, hc, hword⟩ := exists_keeps_of_clean hne hkind.2
      obtain ⟨d, -, hrest⟩ :=
        exists_keeps_charsOfChildren (fun t ht => ih t ht (hchildren t ht)) hc
      exact ⟨_, chars_eq kind children, hword.append (hrest.append (keeps_single (by decide)))⟩

/-- A written tree has no white space that would be reduced. -/
theorem Every.normalize_chars {t : Sexp} (h : t.Every IsCleanKind) :
    normalize t.chars = t.chars := by
  obtain ⟨text, htext, hinside⟩ := h.keepsInside
  have hall : Keeps none (['('] ++ text) ')' := (keeps_single (by decide)).append hinside
  have heq := hall []
  rw [List.append_nil, List.singleton_append, ← htext] at heq
  exact heq.trans (List.append_nil t.chars)

end

/-! ## Written trees can be told apart -/

section

variable {p : Char → Bool} {word word' text text' rest rest' : List Char} {t u : Sexp}
  {ts us : List Sexp}

-- Words of certain characters are equal if others follow both of them.
theorem append_inj_of_head? (hword : ∀ c ∈ word, p c = true) (hword' : ∀ c ∈ word', p c = true)
    (htext : ∀ c ∈ text.head?, p c = false) (htext' : ∀ c ∈ text'.head?, p c = false)
    (h : word ++ text = word' ++ text') : word = word' ∧ text = text' := by
  have heq : word = word' := by
    rw [← takeWhile_append_eq hword htext, h, takeWhile_append_eq hword' htext']
  subst heq
  exact ⟨rfl, List.append_cancel_left h⟩

/-- The tree is the only one with which a text can start in this way. -/
def IsOnlyStart (t : Sexp) : Prop :=
  ∀ u : Sexp, u.Every IsCleanKind → ∀ rest rest',
    t.chars ++ rest = u.chars ++ rest' → t = u ∧ rest = rest'

theorem charsOfChildren_append_inj (hts : ∀ t ∈ ts, t.IsOnlyStart)
    (hus : ∀ u ∈ us, u.Every IsCleanKind)
    (h : charsOfChildren ts ++ ')' :: rest = charsOfChildren us ++ ')' :: rest') :
    ts = us ∧ rest = rest' := by
  induction ts generalizing us with
  | nil =>
    cases us with
    | nil => exact ⟨rfl, (List.cons.inj h).2⟩
    | cons u us => exact absurd (List.cons.inj h).1 (by decide)
  | cons t ts ih =>
    cases us with
    | nil => exact absurd (List.cons.inj h).1 (by decide)
    | cons u us =>
      obtain ⟨ht, hts⟩ := List.forall_mem_cons.mp hts
      obtain ⟨hu, hothers⟩ := List.forall_mem_cons.mp hus
      simp only [charsOfChildren, List.cons_append, List.append_assoc] at h
      obtain ⟨rfl, hrest⟩ := ht u hu _ _ (List.cons.inj h).2
      obtain ⟨rfl, rfl⟩ := ih hts hothers hrest
      exact ⟨rfl, rfl⟩

theorem Every.isOnlyStart (h : t.Every IsCleanKind) : t.IsOnlyStart := by
  induction t using induction with
  | node kind children ih =>
    intro u hu rest rest' heq
    cases h with
    | node hkind hchildren =>
      cases hu with
      | @node kind' children' hkind' hchildren' =>
        -- a kind ends where a child or the end of the tree follows
        let p (c : Char) : Bool := !Text.isBlank c && c != '(' && c != ')'
        have hclean {kind : String} (h : IsCleanKind kind) : ∀ c ∈ kind.toList, p c = true := by
          intro c hc
          obtain ⟨hblank, hopen, hclose⟩ := h.2 c hc
          simp [p, hblank, hopen, hclose]
        have hhead (ts : List Sexp) (rest : List Char) :
            ∀ c ∈ (charsOfChildren ts ++ ')' :: rest).head?, p c = false := by
          cases ts with
          | nil => simp [charsOfChildren, p]
          | cons t ts => simpa [charsOfChildren, p] using by decide
        simp only [chars_eq, List.cons_append, List.append_assoc, List.nil_append] at heq
        obtain ⟨hname, hrest⟩ := append_inj_of_head? (hclean hkind) (hclean hkind')
          (hhead children rest) (hhead children' rest') (List.cons.inj heq).2
        obtain rfl := String.toList_inj.mp hname
        obtain ⟨rfl, rfl⟩ := charsOfChildren_append_inj (fun t ht => ih t ht (hchildren t ht))
          hchildren' hrest
        exact ⟨rfl, rfl⟩

/-- Trees that are written in the same way are the same. -/
theorem Every.eq_of_render_eq (ht : t.Every IsCleanKind) (hu : u.Every IsCleanKind)
    (h : t.render = u.render) : t = u :=
  (ht.isOnlyStart u hu [] [] (by rw [String.ofList_inj.mp h])).1

theorem Every.normalizeText_render (h : t.Every IsCleanKind) :
    normalizeText t.render = t.render := by
  rw [normalizeText, render, String.toList_ofList, h.normalize_chars]

end

end Sexp

/-! ## The skeletons of nodes -/

theorem forall₂_iff_eq_map {α β : Type} {R : α → β → Prop} {f : α → β} {xs : List α}
    (h : ∀ x ∈ xs, ∀ y, R x y ↔ y = f x) {ys : List β} :
    List.Forall₂ R xs ys ↔ ys = xs.map f := by
  induction xs generalizing ys with
  | nil => exact List.forall₂_nil_left_iff
  | cons x xs ih =>
    obtain ⟨hx, hxs⟩ := List.forall_mem_cons.mp h
    rw [List.forall₂_cons_left_iff, List.map_cons]
    constructor
    · rintro ⟨y, ys, hy, hys, rfl⟩
      rw [(hx y).mp hy, (ih hxs).mp hys]
    · rintro rfl
      exact ⟨f x, xs.map f, (hx _).mpr rfl, (ih hxs).mpr rfl, rfl⟩

namespace Node

variable {tree : Tree}

/-- The tree of the kinds of a node and of the named nodes that are reached from it through named
nodes. -/
inductive HasSkeleton : Node tree → Sexp → Prop
  | node {n : Node tree} {ts} :
      List.Forall₂ HasSkeleton n.namedChildren ts → HasSkeleton n (.node n.kind ts)

theorem HasSkeleton.kind_eq {n : Node tree} {kind : String} {ts : List Sexp}
    (h : n.HasSkeleton (.node kind ts)) : n.kind = kind := by
  cases h
  rfl

variable {l : Language} {t : Subtree} {text : List Char}

theorem hasSkeleton_iff (n : Node (Tree.ofSubtree l t text)) {levels : Nat}
    (h : n.subtree.size ≤ levels) {s : Sexp} :
    n.HasSkeleton s ↔ s = n.skeletonWithin levels := by
  induction levels generalizing n s with
  | zero => exact absurd h (Nat.not_le_of_lt n.subtree.size_pos)
  | succ levels ih =>
    have hchildren : ∀ c ∈ n.namedChildren, c.subtree.size ≤ levels := fun c hc =>
      Nat.le_of_lt_succ (Nat.lt_of_lt_of_le
        (Subtree.size_lt_of_mem_children (n.subtree_mem_children (List.mem_filter.mp hc).1)) h)
    have hall (ts : List Sexp) : List.Forall₂ HasSkeleton n.namedChildren ts ↔
        ts = n.namedChildren.map (skeletonWithin levels) :=
      forall₂_iff_eq_map fun c hc _ => ih c (hchildren c hc)
    constructor
    · rintro ⟨hts⟩
      rw [(hall _).mp hts, skeletonWithin]
    · rintro rfl
      exact .node ((hall _).mpr rfl)

/-- The skeleton that is computed is the one that the node has. -/
theorem hasSkeleton_iff_eq_skeleton (n : Node (Tree.ofSubtree l t text)) {s : Sexp} :
    n.HasSkeleton s ↔ s = n.skeleton :=
  n.hasSkeleton_iff n.size_subtree_le

theorem every_skeletonWithin {P : String → Prop}
    (hnamed : ∀ m : Node tree, m.isNamed = true → P m.kind) {n : Node tree} (hn : P n.kind)
    (levels : Nat) : (n.skeletonWithin levels).Every P := by
  induction levels generalizing n with
  | zero => exact .node hn nofun
  | succ levels ih =>
    refine .node hn fun s hs => ?_
    obtain ⟨c, hc, rfl⟩ := List.mem_map.mp hs
    exact ih (hnamed c (List.mem_filter.mp hc).2)

end Node

namespace Language

variable {l : Language}

/-- The kinds of named nodes, and that of the root, can be told apart in S-expressions. -/
structure HasCleanKinds (l : Language) : Prop where
  named : ∀ s kind, l.isNamed s = true → l.kindName? s = some kind → IsCleanKind kind
  root : IsCleanKind l.rootKind

theorem exists_kindName? {s : Symbol} (h : l.isNamed s = true) :
    ∃ kind, l.kindName? s = some kind := by
  unfold kindName?
  split
  · exact ⟨_, rfl⟩
  · rename_i hne
    cases hs : l.symbol? s with
    | none => simp [isNamed, hne, hs] at h
    | some info => exact ⟨info.name, rfl⟩

theorem Loadable.kind_root (hl : l.Loadable) (depth : Nat) (text : String) :
    (l.parse depth text).tree.root.kind = l.rootKind := by
  rw [Node.kind, hl.symbol_root]
  show (l.kindName? l.artifact.root).getD "" = l.rootKind
  rw [kindName?, if_neg hl.root_ne_errorSymbol]
  rfl

theorem HasCleanKinds.every_skeleton (h : l.HasCleanKinds) (hl : l.Loadable) {depth : Nat}
    {text : String} {n : Node (l.parse depth text).tree}
    (hn : n = (l.parse depth text).tree.root ∨ n.isNamed = true) :
    n.skeleton.Every IsCleanKind := by
  have hnamed (m : Node (l.parse depth text).tree) (hm : m.isNamed = true) :
      IsCleanKind m.kind := by
    have hm : l.isNamed m.symbol = true := hm
    obtain ⟨kind, hkind⟩ := exists_kindName? hm
    show IsCleanKind ((l.kindName? m.symbol).getD "")
    rw [hkind]
    exact h.named m.symbol kind hm hkind
  refine Node.every_skeletonWithin hnamed ?_ _
  rcases hn with rfl | hn
  · rw [hl.kind_root]
    exact h.root
  · exact hnamed n hn

-- It is enough to look at the table.
theorem isCleanKind_of_symbols
    (h : ∀ info ∈ l.artifact.symbols.toList, info.named = true → IsCleanKind info.name)
    (s : Symbol) (kind : String) (hs : l.isNamed s = true) (hkind : l.kindName? s = some kind) :
    IsCleanKind kind := by
  unfold kindName? at hkind
  split at hkind
  · rw [← Option.some.inj hkind]
    decide
  · rename_i hne
    obtain ⟨info, hinfo, rfl⟩ := Option.map_eq_some_iff.mp hkind
    have hmem := Array.mem_toList_iff.mpr (Array.mem_of_getElem? hinfo)
    exact h info hmem (by simpa [isNamed, hne, hinfo] using hs)

theorem sums_hasCleanKinds : Language.sums.HasCleanKinds where
  named := isCleanKind_of_symbols (by decide)
  root := by decide

end Language

/-- **A corpus case compares trees.**  If the kinds of a language can be told apart, then a case
whose expected text is any layout of a tree of such kinds passes exactly if the tree is the skeleton
of what its input is parsed as.  For trees of such kinds are written differently if they differ, and
what is written of them has no white space that would be reduced. -/
theorem CorpusCase.run_eq_pass_iff {l : Language} (hl : l.Loadable) (hclean : l.HasCleanKinds)
    (parser : Parser) (hparser : parser.language = some l) (case : CorpusCase) {t : Sexp}
    (ht : t.Every IsCleanKind) {layout : String}
    (hlayout : Sexp.Respaced t.chars layout.toList)
    (hexpected : case.expected = Sexp.normalizeText layout) :
    (∃ result, parser.parse case.input = some result ∧
        (case.run parser = .pass ↔ result.tree.root.HasSkeleton t) ∧
        ∀ n : Node result.tree, n = result.tree.root ∨ n.isNamed = true →
          ∃ s : Sexp, n.HasSkeleton s ∧ s.Every IsCleanKind ∧ n.toSexp = s.render) ∧
      (∀ s u : Sexp, s.Every IsCleanKind → u.Every IsCleanKind → s.render = u.render → s = u) ∧
      ∀ s : Sexp, s.Every IsCleanKind → Sexp.normalizeText s.render = s.render := by
  have hskeleton (n : Node (l.parse parser.maxDepth case.input).tree) {s : Sexp} :
      n.HasSkeleton s ↔ s = n.skeleton := Node.hasSkeleton_iff_eq_skeleton n
  have hrender : case.expected = t.render := by
    rw [hexpected, ← ht.normalizeText_render, Sexp.normalizeText, Sexp.normalizeText, Sexp.render,
      String.toList_ofList, hlayout.normalize_eq]
  have hpass : case.run parser = .pass ↔
      (l.parse parser.maxDepth case.input).sexp = case.expected := by
    simp [run, judge, Parser.parse, hparser]
  refine ⟨⟨l.parse parser.maxDepth case.input, by simp [Parser.parse, hparser], ?_,
    fun n hn => ⟨n.skeleton, (hskeleton n).mpr rfl, hclean.every_skeleton hl hn, rfl⟩⟩,
    fun s u => Sexp.Every.eq_of_render_eq, fun s => Sexp.Every.normalizeText_render⟩
  rw [hpass, hskeleton, hrender]
  constructor
  · exact fun h => ht.eq_of_render_eq (hclean.every_skeleton hl (.inl rfl)) h.symm
  · rintro rfl
    rfl

-- The expected tree on two lines, with white space in each of the places where there may be some.
theorem CorpusCase.run_eq_pass_iff_sums :
    let t : Sexp := .node "file" [.node "statement" [.node "number" []]]
    let layout := " ( file\n\t(statement (number) ) )"
    let case : CorpusCase := ⟨"Number", "1;", Sexp.normalizeText layout, 1⟩
    let parser : Parser := { language := some .sums }
    t.Every IsCleanKind ∧ Sexp.Respaced t.chars layout.toList ∧
      ∃ result, parser.parse case.input = some result ∧
        (case.run parser = .pass ↔ result.tree.root.HasSkeleton t) := by
  intro t layout case parser
  have ht : t.Every IsCleanKind :=
    .node (by decide) (by simpa using .node (by decide) (by simpa using .node (by decide) nofun))
  have hlayout : Sexp.Respaced t.chars layout.toList := by
    have hchars : t.chars = "(file (statement (number)))".toList := by decide
    have hstart : Sexp.Respaced "(file (statement (number)))".toList
        " (file (statement (number)))".toList := by
      simpa using @Sexp.Respaced.start [] [' '] "(file (statement (number)))".toList rfl rfl
    have hopening : Sexp.Respaced " (file (statement (number)))".toList
        " ( file (statement (number)))".toList := by
      simpa using @Sexp.Respaced.opening [' '] [] [' '] "file (statement (number)))".toList rfl rfl
    have hrun : Sexp.Respaced " ( file (statement (number)))".toList
        " ( file\n\t(statement (number)))".toList := by
      simpa using @Sexp.Respaced.run " ( file".toList [' '] ['\n', '\t']
        "(statement (number)))".toList rfl rfl (by decide) (by decide)
    have hclosing : Sexp.Respaced " ( file\n\t(statement (number)))".toList
        " ( file\n\t(statement (number) ))".toList := by
      simpa using @Sexp.Respaced.closing " ( file\n\t(statement (number)".toList [] [' ']
        ")".toList rfl rfl
    have hclosing' : Sexp.Respaced " ( file\n\t(statement (number) ))".toList layout.toList := by
      simpa [layout] using @Sexp.Respaced.closing " ( file\n\t(statement (number) )".toList []
        [' '] [] rfl rfl
    rw [hchars]
    exact hstart.trans (hopening.trans (hrun.trans (hclosing.trans hclosing')))
  obtain ⟨⟨result, hresult, hpass, -⟩, -⟩ := CorpusCase.run_eq_pass_iff Language.sums_loadable
    Language.sums_hasCleanKinds parser rfl case ht hlayout rfl
  exact ⟨ht, hlayout, result, hresult, hpass⟩

/-! ## Anonymous roots -/

/-- A language whose root is anonymous and has a kind that reads like a tree. -/
def Artifact.disguised : Artifact :=
  { version := 1
    name := "disguised"
    symbols :=
      #[.endOfInput, .literal "x",
        { SymbolInfo.rule "a (b)" (.symbol 1) with named := false }, .derived "a", .derived "b"]
    root := 2
    extras := []
    recovery := [] }

def Language.disguised : Language :=
  (ofArtifact Pattern.compile .disguised 0).toOption.get rfl

/-- The kinds of named nodes being clean is not enough: the root may be anonymous, and then its kind
can be read as one tree of named kinds while its skeleton is another one. -/
theorem CorpusCase.exists_pass_without_skeleton :
    ∃ (l : Language) (parser : Parser) (case : CorpusCase) (t : Sexp) (layout : String)
        (result : Parse),
      l.Loadable ∧
      (∀ s kind, l.isNamed s = true → l.kindName? s = some kind → IsCleanKind kind) ∧
      parser.language = some l ∧
      t.Every (fun kind => ∃ s, l.isNamed s = true ∧ l.kindName? s = some kind) ∧
      Sexp.Respaced t.chars layout.toList ∧ case.expected = Sexp.normalizeText layout ∧
      parser.parse case.input = some result ∧
      case.run parser = .pass ∧ ¬ result.tree.root.HasSkeleton t := by
  refine ⟨.disguised, { language := some .disguised }, ⟨"Pass", "x", "(a (b))", 1⟩,
    .node "a" [.node "b" []], "(a (b))", Language.disguised.parse defaultMaxDepth "x",
    ⟨Pattern.compile, .disguised, 0, rfl⟩, Language.isCleanKind_of_symbols (by decide), rfl,
    .node ⟨3, by decide, by decide⟩ ?_, ?_, by decide, rfl, by decide, ?_⟩
  · simpa using .node ⟨4, by decide, by decide⟩ nofun
  · rw [show (Sexp.node "a" [.node "b" []]).chars = "(a (b))".toList by decide]
    exact .refl
  · exact fun h => absurd h.kind_eq (by decide)

end GrammarKit
