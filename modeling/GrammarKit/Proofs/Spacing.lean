import GrammarKit.Proofs.ParsedTree
import GrammarKit.Proofs.Relocation
import Mathlib.Data.List.Forall2

/-!
# Spaces and comments do not matter

Two texts with the same tokens in the same order are parsed in the same way, whatever stands between
the tokens and however long they are.
-/

namespace GrammarKit

/-! ## What is left of a tree -/

/-- A tree without its extras and without the places of its parts. -/
inductive Form where
  | node (symbol : Symbol) (hasError : Bool) (children : List Form)

namespace Subtree

mutual

/-- What is left of a tree without its extras and without the places of its parts. -/
def form : Subtree → Form
  | ⟨symbol, _, _, children, _⟩ =>
    .node symbol (symbol == errorSymbol || anyError children) (forms children)

def forms : List Subtree → List Form
  | [] => []
  | t :: ts => if t.extra then forms ts else t.form :: forms ts

end

theorem forms_eq_map (ts : List Subtree) : forms ts = (ts.filter (!·.extra)).map form := by
  induction ts with
  | nil => rfl
  | cons t ts ih => cases ht : t.extra <;> simp [forms, ht, ih]

theorem form_eq (t : Subtree) : t.form = .node t.symbol t.hasError (t.proper.map form) := by
  obtain ⟨symbol, start, stop, children, extra⟩ := t
  rw [form, forms_eq_map]
  rfl

variable {e : Token} {f : Nat → Nat} {t t' : Subtree}

theorem hasError_of_form (h : t.form = t'.form) : t.hasError = t'.hasError := by
  rw [form_eq, form_eq, Form.node.injEq] at h
  exact h.2.1

theorem anyError_eq (ts : List Subtree) : anyError ts = (ts.map hasError).any id := by
  induction ts with
  | nil => rfl
  | cons t ts ih => rw [anyError, ih, List.map_cons, List.any_cons, id]

theorem proper_relocate (t : Subtree) : (t.relocate f).proper = t.proper.map (relocate f) := by
  simp [proper, List.filter_map, Function.comp_def]

theorem form_relocate (t : Subtree) : (t.relocate f).form = t.form := by
  induction t using induction with
  | node t ih =>
    have herror : (t.relocate f).hasError = t.hasError := by
      have hchildren := List.map_congr_left fun c hc => hasError_of_form (ih c hc)
      rw [hasError_eq, hasError_eq, anyError_eq, anyError_eq, children_relocate, List.map_map,
        isError, symbol_relocate]
      exact congrArg (fun errors => t.isError || errors.any id) hchildren
    have hproper : (t.relocate f).proper.map form = t.proper.map form := by
      rw [proper_relocate, List.map_map]
      exact List.map_congr_left fun c hc => ih c (List.mem_filter.mp hc).1
    rw [form_eq, form_eq, symbol_relocate, herror, hproper]

theorem totalSize_map_of_size_eq {change : Subtree → Subtree} {ts : List Subtree}
    (h : ∀ t ∈ ts, (change t).size = t.size) : totalSize (ts.map change) = totalSize ts := by
  induction ts with
  | nil => rfl
  | cons t ts ih =>
    obtain ⟨ht, hts⟩ := List.forall_mem_cons.mp h
    rw [List.map_cons, totalSize, totalSize, ht, ih hts]

theorem size_relocate (t : Subtree) : (t.relocate f).size = t.size := by
  induction t using induction with
  | node t ih =>
    rw [size_eq, size_eq, children_relocate, totalSize_map_of_size_eq ih]

-- A token that is no error is left out again, wherever it was added.
theorem form_insertExtra (he : e.symbol ≠ errorSymbol) (t : Subtree) :
    (t.insertExtra e).form = t.form := by
  induction t using induction with
  | node t ih =>
    obtain ⟨symbol, start, stop, children, extra⟩ := t
    simp only at ih
    rw [insertExtra]
    cases hplace : insertEnclosed e children with
    | some children' =>
      obtain ⟨before, c, after, rfl, -, rfl⟩ := insertEnclosed_eq_some hplace
      have hc := ih c (by simp)
      have hextra : (c.insertExtra e).extra = c.extra := by
        cases c
        rfl
      have hkept : forms (before ++ c.insertExtra e :: after) = forms (before ++ c :: after) := by
        cases hx : c.extra <;> simp [forms_eq_map, hextra, hx, hc]
      simp [form, anyError, hasError_of_form hc, hkept]
    | none =>
      have hclean : (extraLeaf e).hasError = false := by
        simpa [extraLeaf, leaf, hasError, anyError] using he
      have hextra : (extraLeaf e).extra = true := rfl
      obtain ⟨before, after, hchildren, hplaced⟩ : ∃ before after, children = before ++ after ∧
          placeAmong e children = before ++ extraLeaf e :: after :=
        ⟨_, _, List.takeWhile_append_dropWhile.symm, rfl⟩
      rw [Option.getD_none, hplaced, hchildren]
      simp [form, forms_eq_map, anyError, hclean, hextra]

theorem form_insertExtras {es : List Token} (hes : ∀ e ∈ es, e.symbol ≠ errorSymbol)
    (t : Subtree) : (t.insertExtras es).form = t.form := by
  induction es generalizing t with
  | nil => rfl
  | cons e es ih =>
    obtain ⟨he, hes⟩ := List.forall_mem_cons.mp hes
    exact (ih hes (t.insertExtra e)).trans (form_insertExtra he t)

end Subtree

/-! ## Nodes of two trees -/

/-- The nodes have the same kind, both of them or neither hold an error, and their children other
than extras are alike, one by one. -/
inductive Node.Alike {tree tree' : Tree} : Node tree → Node tree' → Prop
  | node {n n'} :
      n.symbol = n'.symbol → n.hasError = n'.hasError →
      List.Forall₂ Node.Alike (n.children.filter (!·.isExtra)) (n'.children.filter (!·.isExtra)) →
      Alike n n'

/-- The trees are equal but for their extras and the places of their parts. -/
structure Tree.Alike (tree tree' : Tree) : Prop where
  language : tree.language = tree'.language
  root : tree.root.Alike tree'.root

namespace Node

variable {l : Language} {t t' : Subtree} {text text' : List Char}

theorem proper_map_subtree (n : Node (Tree.ofSubtree l t text)) :
    (n.children.filter (!·.isExtra)).map subtree = n.subtree.proper := by
  rw [Subtree.proper, ← children_map_subtree, List.filter_map]
  simp [Function.comp_def]

-- The nodes made of trees of which the same is left are alike.
theorem alike_of_form {n : Node (Tree.ofSubtree l t text)} {n' : Node (Tree.ofSubtree l t' text')}
    (h : n.subtree.form = n'.subtree.form) : n.Alike n' := by
  generalize hs : n.subtree = s
  induction s using Subtree.induction generalizing n n' with
  | node s ih =>
    subst hs
    rw [Subtree.form_eq, Subtree.form_eq, Form.node.injEq] at h
    obtain ⟨hsymbol, herror, hproper⟩ := h
    refine .node (by simpa using hsymbol) (by simpa using herror) ?_
    rw [← proper_map_subtree, ← proper_map_subtree, List.map_map, List.map_map,
      ← List.forall₂_eq_eq_eq, List.forall₂_map_left_iff, List.forall₂_map_right_iff] at hproper
    have hchildren := (List.forall₂_and_left _ _).mpr
      ⟨fun c hc => (List.mem_filter.mp hc).1, hproper⟩
    exact hchildren.imp fun c c' hc => ih c.subtree (n.subtree_mem_children hc.1) hc.2 rfl

end Node

theorem Tree.alike_of_form (l : Language) {t t' : Subtree} (h : t.form = t'.form)
    (text text' : List Char) : (Tree.ofSubtree l t text).Alike (Tree.ofSubtree l t' text') where
  language := rfl
  root := Node.alike_of_form (by rw [Node.subtree_root, Node.subtree_root, h])

section

variable {tree tree' : Tree} {n : Node tree} {n' : Node tree'}

theorem Node.Alike.kind_eq (h : n.Alike n') (hlanguage : tree.language = tree'.language) :
    n.kind = n'.kind := by
  cases h with
  | node hsymbol => simp only [Node.kind, hlanguage, hsymbol]

theorem Node.Alike.isNamed_eq (h : n.Alike n') (hlanguage : tree.language = tree'.language) :
    n.isNamed = n'.isNamed := by
  cases h with
  | node hsymbol => simp only [Node.isNamed, hlanguage, hsymbol]

-- In trees without extras, nodes that are alike are written in the same way.
theorem Node.Alike.skeletonWithin_eq (hlanguage : tree.language = tree'.language)
    (hnone : ∀ n : Node tree, n.isExtra = false) (hnone' : ∀ n : Node tree', n.isExtra = false)
    (levels : Nat) (h : n.Alike n') : n.skeletonWithin levels = n'.skeletonWithin levels := by
  induction levels generalizing n n' with
  | zero => rw [Node.skeletonWithin, Node.skeletonWithin, h.kind_eq hlanguage]
  | succ levels ih =>
    have hkind := h.kind_eq hlanguage
    cases h with
    | node _ _ hchildren =>
      have hall : n.children.filter (!·.isExtra) = n.children := by simp [hnone]
      have hall' : n'.children.filter (!·.isExtra) = n'.children := by simp [hnone']
      rw [hall, hall'] at hchildren
      have hnamed : List.Forall₂ Node.Alike n.namedChildren n'.namedChildren :=
        List.rel_filter (fun c c' hc => by simp [hc.isNamed_eq hlanguage]) hchildren
      have hbelow : n.namedChildren.map (Node.skeletonWithin levels) =
          n'.namedChildren.map (Node.skeletonWithin levels) := by
        rw [← List.forall₂_eq_eq_eq, List.forall₂_map_left_iff, List.forall₂_map_right_iff]
        exact hnamed.imp fun c c' hc => ih hc
      rw [Node.skeletonWithin, Node.skeletonWithin, hkind, hbelow]

end

/-! ## Inputs without bytes -/

/-- The symbols of the tokens of an input, all at byte 0. -/
def Input.bare (input : Input) : Input :=
  { tokens := input.tokens.map (Token.relocate fun _ => 0), length := 0 }

theorem Input.moved_bare (input : Input) : input.Moved (fun _ => 0) 0 input.bare where
  tokens := by
    intro p
    rw [Nat.zero_add, bare, Array.getElem?_map]
  length := rfl

/-! ## Two texts -/

namespace Language

variable {l : Language} {text text' : String}

/-- The texts have tokens of the same symbols in the same order, extras aside. -/
def SameTokens (l : Language) (text text' : String) : Prop :=
  (l.lexer.tokenize text).tokens.map (·.symbol) = (l.lexer.tokenize text').tokens.map (·.symbol)

instance : Decidable (l.SameTokens text text') :=
  inferInstanceAs (Decidable (_ = _))

theorem SameTokens.bare_eq (h : l.SameTokens text text') :
    (l.inputOf text).bare = (l.inputOf text').bare := by
  have hbare (text : String) : (l.inputOf text).bare =
      ⟨(((l.lexer.tokenize text).tokens.map (·.symbol)).map (⟨·, 0, 0⟩)).toArray, 0⟩ := by
    simp [inputOf, Input.bare, Token.relocate]
  rw [hbare, hbare, h]

/-- Before the extras are added, the trees differ in the places of their parts only. -/
theorem SameTokens.parseRoot_eq (h : l.SameTokens text text') (hl : l.Loadable) (depth : Nat) :
    (l.ruleTree depth text).relocate (fun _ => 0) =
        (l.ruleTree depth text').relocate (fun _ => 0) ∧
      (l.parseRoot (l.inputOf text) depth).2 = (l.parseRoot (l.inputOf text') depth).2 := by
  have hbare := hl.parseRoot_relocate (l.inputOf text).moved_bare rfl depth
  rw [h.bare_eq, hl.parseRoot_relocate (l.inputOf text').moved_bare rfl depth] at hbare
  exact ⟨(congrArg Prod.fst hbare).symm, (congrArg Prod.snd hbare).symm⟩

theorem Loadable.form_textTree (hl : l.Loadable) (depth : Nat) (text : String) :
    (l.textTree depth text).form = (l.ruleTree depth text).form :=
  Subtree.form_insertExtras
    (fun e he => hl.ne_errorSymbol_of_isToken ((hl.tokensOf.tokenize_inGrammar text).extras e he)) _

theorem Loadable.isExtra_eq_false (hl : l.Loadable) (depth : Nat)
    (hnone : (l.lexer.tokenize text).extras = [])
    (n : Node (Tree.ofSubtree l (l.textTree depth text) text.toList)) : n.isExtra = false := by
  rw [n.isExtra_eq]
  refine Bool.eq_false_iff.mpr fun hextra => ?_
  have hmem := Subtree.mem_extrasIn n.subtree_within hextra
  rw [(hl.textTree_grown depth text).extras, hl.ruleTree_extras, hnone] at hmem
  cases hmem

theorem SameTokens.alike (h : l.SameTokens text text') (hl : l.Loadable) (depth : Nat) :
    (l.parse depth text).tree.Alike (l.parse depth text').tree := by
  rw [parse_tree, parse_tree]
  refine Tree.alike_of_form l ?_ text.toList text'.toList
  rw [hl.form_textTree, hl.form_textTree, ← Subtree.form_relocate, (h.parseRoot_eq hl depth).1,
    Subtree.form_relocate]

-- Without extras both trees have as many nodes.
theorem SameTokens.size_nodes_eq (h : l.SameTokens text text') (hl : l.Loadable) (depth : Nat)
    (hnone : (l.lexer.tokenize text).extras = []) (hnone' : (l.lexer.tokenize text').extras = []) :
    (l.parse depth text).tree.nodes.size = (l.parse depth text').tree.nodes.size := by
  have hsize (text : String) (hnone : (l.lexer.tokenize text).extras = []) :
      (l.parse depth text).tree.nodes.size = (l.ruleTree depth text).size := by
    rw [parse_tree, Node.size_nodes, Subtree.length_breadthFirst, textTree, hnone]
    rfl
  rw [hsize text hnone, hsize text' hnone', ← Subtree.size_relocate, (h.parseRoot_eq hl depth).1,
    Subtree.size_relocate]

end Language

/-- **Spaces and comments do not change a parse.**  If two texts have the same tokens in the same
order, those that no symbol accounts for included, then their trees are equal but for their extras
and the places of their parts.  If there are no extras, the trees are written in the same way. -/
theorem Parser.parse_alike {l : Language} (hl : l.Loadable) (parser : Parser)
    (hparser : parser.language = some l) {text text' : String} (hsame : l.SameTokens text text') :
    ∃ result result', parser.parse text = some result ∧ parser.parse text' = some result' ∧
      result.tree.Alike result'.tree ∧ result.truncated = result'.truncated ∧
      ((l.lexer.tokenize text).extras = [] → (l.lexer.tokenize text').extras = [] →
        result.tree.root.toSexp = result'.tree.root.toSexp) := by
  have halike := hsame.alike hl parser.maxDepth
  refine ⟨l.parse parser.maxDepth text, l.parse parser.maxDepth text', by simp [parse, hparser],
    by simp [parse, hparser], halike, (hsame.parseRoot_eq hl parser.maxDepth).2,
    fun hnone hnone' => ?_⟩
  unfold Node.toSexp Node.skeleton
  rw [hsame.size_nodes_eq hl parser.maxDepth hnone hnone',
    halike.root.skeletonWithin_eq halike.language (hl.isExtra_eq_false parser.maxDepth hnone)
      (hl.isExtra_eq_false parser.maxDepth hnone')]

-- What no symbol accounts for is skipped in all of the texts, one of which has a comment.
theorem Parser.parse_alike_sums :
    Language.sums.SameTokens "1+2;@3;" " 10 + #a 2 ; @@ 4;" ∧
      Language.sums.SameTokens "1+2;@3;" " 10 + 2 ; @@ 4;" ∧
      (∃ result result',
        ({ language := some .sums, maxDepth := 8 } : Parser).parse "1+2;@3;" = some result ∧
        ({ language := some .sums, maxDepth := 8 } : Parser).parse " 10 + #a 2 ; @@ 4;" =
          some result' ∧ result.tree.Alike result'.tree) ∧
      ∃ result result',
        ({ language := some .sums, maxDepth := 8 } : Parser).parse "1+2;@3;" = some result ∧
        ({ language := some .sums, maxDepth := 8 } : Parser).parse " 10 + 2 ; @@ 4;" =
          some result' ∧ result.tree.root.toSexp = result'.tree.root.toSexp := by
  have hcomment : Language.sums.SameTokens "1+2;@3;" " 10 + #a 2 ; @@ 4;" := by decide
  have hsame : Language.sums.SameTokens "1+2;@3;" " 10 + 2 ; @@ 4;" := by decide
  refine ⟨hcomment, hsame, ?_, ?_⟩
  · obtain ⟨result, result', hresult, hresult', halike, -⟩ := parse_alike Language.sums_loadable
      { language := some .sums, maxDepth := 8 } rfl hcomment
    exact ⟨result, result', hresult, hresult', halike⟩
  · obtain ⟨result, result', hresult, hresult', -, -, hsexp⟩ := parse_alike Language.sums_loadable
      { language := some .sums, maxDepth := 8 } rfl hsame
    exact ⟨result, result', hresult, hresult', hsexp (by decide) (by decide)⟩

end GrammarKit
