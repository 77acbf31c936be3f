import GrammarKit.Subtree

/-!
# Walking through trees

The trees within a tree, themselves in the order in which they are met from the root on.
-/

namespace GrammarKit.Subtree

/-- Induction over trees: a property passes from the children to the tree. -/
@[elab_as_elim]
theorem induction {P : Subtree → Prop} (node : ∀ t, (∀ c ∈ t.children, P c) → P t) (t : Subtree) :
    P t :=
  @Subtree.rec P (fun ts => ∀ t ∈ ts, P t)
    (fun symbol start stop children extra ih => node ⟨symbol, start, stop, children, extra⟩ ih)
    (by simp) (fun _ _ ht hts => by simpa using ⟨ht, hts⟩) t

/-- `s` is the tree `t` or a tree within it. -/
inductive Within (s : Subtree) : Subtree → Prop
  | refl : Within s s
  | child {t c} : c ∈ t.children → Within s c → Within s t

theorem Within.trans {s t u : Subtree} (h : s.Within t) (h' : t.Within u) : s.Within u := by
  induction h' with
  | refl => exact h
  | child hc _ ih => exact .child hc ih

mutual

/-- Every tree within a tree, each before its children. -/
def preorder : Subtree → List Subtree
  | ⟨symbol, start, stop, children, extra⟩ =>
    ⟨symbol, start, stop, children, extra⟩ :: preorderAll children

/-- Every tree within the trees, each before its children. -/
def preorderAll : List Subtree → List Subtree
  | [] => []
  | t :: ts => t.preorder ++ preorderAll ts

end

theorem preorder_eq (t : Subtree) : t.preorder = t :: preorderAll t.children := by
  cases t
  rfl

theorem preorderAll_eq_flatMap (ts : List Subtree) : preorderAll ts = ts.flatMap preorder := by
  induction ts with
  | nil => rfl
  | cons t ts ih => simp only [preorderAll, ih, List.flatMap_cons]

@[simp] theorem preorderAll_append (ts us : List Subtree) :
    preorderAll (ts ++ us) = preorderAll ts ++ preorderAll us := by
  simp only [preorderAll_eq_flatMap, List.flatMap_append]

theorem mem_preorder {s t : Subtree} : s ∈ t.preorder ↔ s.Within t := by
  constructor
  · induction t using induction with
    | node t ih =>
      rw [preorder_eq, preorderAll_eq_flatMap, List.mem_cons, List.mem_flatMap]
      rintro (rfl | ⟨c, hc, hs⟩)
      · exact .refl
      · exact .child hc (ih c hc hs)
  · intro h
    induction h with
    | refl => simp [preorder_eq]
    | @child t c hc _ ih =>
      rw [preorder_eq, preorderAll_eq_flatMap]
      exact List.mem_cons_of_mem _ (List.mem_flatMap.mpr ⟨c, hc, ih⟩)

/-! ## Errors in a tree -/

theorem hasError_eq (t : Subtree) : t.hasError = (t.isError || anyError t.children) := by
  cases t
  rfl

theorem anyError_iff {ts : List Subtree} : anyError ts = true ↔ ∃ t ∈ ts, t.hasError = true := by
  induction ts with
  | nil => simp [anyError]
  | cons t ts ih => simp [anyError, ih]

theorem hasError_iff {t : Subtree} :
    t.hasError = true ↔ t.isError = true ∨ ∃ c ∈ t.children, c.hasError = true := by
  rw [hasError_eq, Bool.or_eq_true, anyError_iff]

/-! ## Tokens in a tree -/

/-- The bytes of a tree with its symbol, as a token. -/
def asToken (t : Subtree) : Token :=
  ⟨t.symbol, t.start, t.stop⟩

@[simp] theorem asToken_leaf (t : Token) : (leaf t).asToken = t := rfl

@[simp] theorem asToken_extraLeaf (t : Token) : (extraLeaf t).asToken = t := rfl

/-- The tokens within trees that may stand anywhere, from left to right. -/
def extrasIn (ts : List Subtree) : List Token :=
  ((preorderAll ts).filter (·.extra)).map asToken

variable {ts us : List Subtree}

@[simp] theorem extrasIn_nil : extrasIn [] = [] := rfl

@[simp] theorem extrasIn_append : extrasIn (ts ++ us) = extrasIn ts ++ extrasIn us := by
  simp [extrasIn]

theorem extrasIn_cons (t : Subtree) (ts : List Subtree) :
    extrasIn (t :: ts) = extrasIn [t] ++ extrasIn ts := by
  rw [← extrasIn_append, List.singleton_append]

@[simp] theorem extrasIn_extraLeaf (e : Token) : extrasIn [extraLeaf e] = [e] := rfl

-- The tokens within a tree: itself, if it may stand anywhere, before those within its children.
theorem extrasIn_singleton (t : Subtree) :
    extrasIn [t] = (if t.extra then [t.asToken] else []) ++ extrasIn t.children := by
  cases ht : t.extra <;> simp [extrasIn, preorderAll, preorder_eq, ht]

theorem mem_extrasIn {s t : Subtree} (hs : s.Within t) (hextra : s.extra = true) :
    s.asToken ∈ extrasIn [t] := by
  have hmem : s ∈ preorderAll [t] := by simpa [preorderAll] using mem_preorder.mpr hs
  exact List.mem_map_of_mem (List.mem_filter.mpr ⟨hmem, hextra⟩)

theorem exists_of_mem_extrasIn {e : Token} (h : e ∈ extrasIn ts) :
    ∃ t ∈ ts, ∃ s : Subtree, s.Within t ∧ s.asToken = e := by
  obtain ⟨s, hs, rfl⟩ := List.mem_map.mp h
  rw [preorderAll_eq_flatMap] at hs
  obtain ⟨t, ht, hs⟩ := List.mem_flatMap.mp (List.mem_filter.mp hs).1
  exact ⟨t, ht, s, mem_preorder.mp hs, rfl⟩

end GrammarKit.Subtree
