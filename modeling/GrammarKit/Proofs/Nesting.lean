import GrammarKit.Proofs.Assembly
import GrammarKit.Proofs.Walk

/-!
# Nesting of trees

The bytes of the trees: those of children lie side by side within those of their parent.
-/

namespace GrammarKit

namespace Subtree

/-- The trees stand one after the other between two bytes. -/
def InOrder : (first : Nat) → List Subtree → (last : Nat) → Prop
  | first, [], last => first ≤ last
  | first, t :: ts, last => first ≤ t.start ∧ t.start ≤ t.stop ∧ InOrder t.stop ts last

/-- Every tree in the tree has its children side by side within its bytes, and the bytes at which
trees start and stop all satisfy `bound`. -/
inductive WellNested (bound : Nat → Prop) : Subtree → Prop
  | intro {t} :
      bound t.start → bound t.stop → InOrder t.start t.children t.stop →
      (∀ c ∈ t.children, WellNested bound c) → WellNested bound t

namespace InOrder

variable {a b c : Nat} {ts us : List Subtree}

theorem le (h : InOrder a ts b) : a ≤ b := by
  induction ts generalizing a with
  | nil => exact h
  | cons t ts ih =>
    have := ih h.2.2
    have := h.1
    have := h.2.1
    omega

theorem append (h : InOrder a ts b) (h' : InOrder b us c) : InOrder a (ts ++ us) c := by
  induction ts generalizing a with
  | nil =>
    cases us with
    | nil => exact Nat.le_trans h h'
    | cons u us => exact ⟨Nat.le_trans h h'.1, h'.2⟩
  | cons t ts ih => exact ⟨h.1, h.2.1, ih h.2.2⟩

theorem mono {a' b' : Nat} (h : InOrder a ts b) (ha : a' ≤ a) (hb : b ≤ b') :
    InOrder a' ts b' := by
  induction ts generalizing a a' with
  | nil => exact Nat.le_trans ha (Nat.le_trans h hb)
  | cons t ts ih => exact ⟨Nat.le_trans ha h.1, h.2.1, ih h.2.2 (Nat.le_refl _)⟩

theorem of_append_cons {t : Subtree} (h : InOrder a (ts ++ t :: us) b) :
    InOrder a ts t.start ∧ t.start ≤ t.stop ∧ InOrder t.stop us b := by
  induction ts generalizing a with
  | nil => exact ⟨h.1, h.2.1, h.2.2⟩
  | cons u ts ih =>
    obtain ⟨hts, ht, hus⟩ := ih h.2.2
    exact ⟨⟨h.1, h.2.1, hts⟩, ht, hus⟩

theorem mem {t : Subtree} (h : InOrder a ts b) (ht : t ∈ ts) :
    a ≤ t.start ∧ t.start ≤ t.stop ∧ t.stop ≤ b := by
  obtain ⟨before, after, rfl⟩ := List.append_of_mem ht
  obtain ⟨hbefore, hle, hafter⟩ := h.of_append_cons
  exact ⟨hbefore.le, hle, hafter.le⟩

theorem pairwise (h : InOrder a ts b) : ts.Pairwise fun t u => t.stop ≤ u.start := by
  induction ts generalizing a with
  | nil => exact .nil
  | cons t ts ih => exact List.pairwise_cons.mpr ⟨fun u hu => (h.2.2.mem hu).1, ih h.2.2⟩

-- The trees reach from the start of the first to the stop of the last of them.
theorem tighten {t : Subtree} (h : InOrder a (t :: us) b) :
    ∃ last, (t :: us).getLast?.map (·.stop) = some last ∧ InOrder t.start (t :: us) last ∧
      last ≤ b := by
  induction us generalizing a t with
  | nil => exact ⟨t.stop, rfl, ⟨Nat.le_refl _, h.2.1, Nat.le_refl _⟩, h.2.2⟩
  | cons u us ih =>
    obtain ⟨last, hlast, hin, hb⟩ := ih h.2.2
    -- the bound on the first tree is the stop of the tree before it
    have hu := h.2.2.1
    exact ⟨last, by simpa using hlast, ⟨Nat.le_refl _, h.2.1, hin.mono hu (Nat.le_refl _)⟩, hb⟩

-- A node over trees that stand between two bytes stands there too.
theorem node (h : InOrder a ts b) (s : Symbol) {place : Nat} (ha : a ≤ place)
    (hb : place ≤ b) :
    a ≤ (Subtree.node s ts place).start ∧ (Subtree.node s ts place).stop ≤ b ∧
      InOrder (Subtree.node s ts place).start ts (Subtree.node s ts place).stop := by
  cases ts with
  -- without children the node is empty and stands at `place`
  | nil => exact ⟨ha, hb, Nat.le_refl _⟩
  | cons t us =>
    obtain ⟨last, hlast, hin, hle⟩ := h.tighten
    simp only [Subtree.node, hlast, Option.getD_some]
    exact ⟨h.1, hle, hin⟩

end InOrder

section

variable {bound : Nat → Prop} {ts : List Subtree}

theorem WellNested.bounds {t : Subtree} (h : WellNested bound t) :
    bound t.start ∧ bound t.stop ∧ t.start ≤ t.stop := by
  cases h with
  | intro hstart hstop hin _ => exact ⟨hstart, hstop, hin.le⟩

theorem WellNested.of_within {s t : Subtree} (hw : t.WellNested bound) (h : s.Within t) :
    s.WellNested bound := by
  induction h with
  | refl => exact hw
  | child hc _ ih =>
    cases hw with
    | intro _ _ _ hchildren => exact ih (hchildren _ hc)

theorem WellNested.within {s t : Subtree} (hw : t.WellNested bound) (h : s.Within t) :
    t.start ≤ s.start ∧ s.start ≤ s.stop ∧ s.stop ≤ t.stop := by
  induction h with
  | refl => exact ⟨Nat.le_refl _, hw.bounds.2.2, Nat.le_refl _⟩
  | child hc _ ih =>
    cases hw with
    | intro _ _ hin hchildren =>
      have := hin.mem hc
      have := ih (hchildren _ hc)
      omega

theorem WellNested.leaf {t : Token} (hstart : bound t.start) (hstop : bound t.stop)
    (hle : t.start ≤ t.stop) : WellNested bound (leaf t) :=
  .intro hstart hstop hle (by simp [Subtree.leaf])

-- A node over well-nested trees is well nested.
theorem WellNested.node (hts : ∀ t ∈ ts, WellNested bound t) {a b place : Nat}
    (hin : InOrder a ts b) (ha : a ≤ place) (hb : place ≤ b) (hplace : bound place)
    (s : Symbol) : WellNested bound (node s ts place) := by
  refine .intro ?_ ?_ (hin.node s ha hb).2.2 hts
  · cases ts with
    | nil => exact hplace
    | cons t us => exact (hts t List.mem_cons_self).bounds.1
  · cases hlast : ts.getLast? with
    | none => simpa [Subtree.node, hlast] using hplace
    | some t => simpa [Subtree.node, hlast] using (hts t (List.mem_of_getLast? hlast)).bounds.2.1

end

end Subtree

/-! ## Derivations are well nested -/

/-- The tokens stand one after the other within the text, and their ends satisfy `bound`. -/
structure Input.Ordered (bound : Nat → Prop) (input : Input) : Prop where
  bounds : ∀ t ∈ input.tokens, bound t.start ∧ bound t.stop ∧ t.start ≤ t.stop
  next : ∀ p t, input.tokens[p]? = some t → t.stop ≤ input.offset (p + 1)
  length : bound input.length

namespace Input.Ordered

variable {bound : Nat → Prop} {input : Input} {p q : Nat}

theorem bound_offset (h : input.Ordered bound) (p : Nat) : bound (input.offset p) := by
  cases ht : input.tokens[p]? with
  | none => simpa [offset, ht] using h.length
  | some t =>
    rw [offset_eq ht]
    exact (h.bounds t (Array.mem_of_getElem? ht)).1

theorem offset_le_succ (h : input.Ordered bound) (p : Nat) :
    input.offset p ≤ input.offset (p + 1) := by
  cases ht : input.tokens[p]? with
  | none =>
    have hp := Array.getElem?_eq_none_iff.mp ht
    have hnext : input.tokens[p + 1]? = none := Array.getElem?_eq_none_iff.mpr (by omega)
    simp [offset, ht, hnext]
  | some t =>
    rw [offset_eq ht]
    exact Nat.le_trans (h.bounds t (Array.mem_of_getElem? ht)).2.2 (h.next p t ht)

theorem offset_mono (h : input.Ordered bound) (hpq : p ≤ q) :
    input.offset p ≤ input.offset q := by
  induction hpq with
  | refl => exact Nat.le_refl _
  | step _ ih => exact Nat.le_trans ih (h.offset_le_succ _)

-- The leaf of the token at a position.
theorem leaf (h : input.Ordered bound) {t : Token} (ht : input.tokens[p]? = some t) :
    Subtree.InOrder (input.offset p) [.leaf t] (input.offset (p + 1)) ∧
      (Subtree.leaf t).WellNested bound := by
  obtain ⟨hstart, hstop, hle⟩ := h.bounds t (Array.mem_of_getElem? ht)
  rw [offset_eq ht]
  exact ⟨⟨Nat.le_refl _, hle, h.next p t ht⟩, .leaf hstart hstop hle⟩

end Input.Ordered

/-- The trees are well nested and stand between the tokens at two positions. -/
structure Spans (bound : Nat → Prop) (input : Input) (p q : Nat) (ts : List Subtree) : Prop where
  inOrder : Subtree.InOrder (input.offset p) ts (input.offset q)
  wellNested : ∀ t ∈ ts, t.WellNested bound

namespace Spans

variable {bound : Nat → Prop} {input : Input} {p q n : Nat} {ts us : List Subtree}

theorem nil (p : Nat) : Spans bound input p p [] :=
  ⟨Nat.le_refl _, by simp⟩

theorem append (h : Spans bound input p q ts) (h' : Spans bound input q n us) :
    Spans bound input p n (ts ++ us) := by
  refine ⟨h.inOrder.append h'.inOrder, ?_⟩
  intro t ht
  rcases List.mem_append.mp ht with ht | ht
  · exact h.wellNested t ht
  · exact h'.wellNested t ht

theorem leaf (hi : input.Ordered bound) {t : Token} (ht : input.tokens[p]? = some t) :
    Spans bound input p (p + 1) [.leaf t] := by
  obtain ⟨hin, hw⟩ := hi.leaf ht
  exact ⟨hin, by simpa using hw⟩

theorem node (hi : input.Ordered bound) (h : Spans bound input p q ts) {t : Subtree} {s : Symbol}
    {k : Nat} (hnode : t.IsNode s ts (input.offset k)) (hp : p ≤ k) (hq : k ≤ q) :
    Spans bound input p q [t] := by
  rw [hnode.eq_node]
  have ha := hi.offset_mono hp
  have hb := hi.offset_mono hq
  obtain ⟨hstart, hstop, hin⟩ := h.inOrder.node s ha hb
  refine ⟨⟨hstart, hin.le, hstop⟩, ?_⟩
  simpa using Subtree.WellNested.node h.wellNested h.inOrder ha hb (hi.bound_offset k) s

theorem enclose (hi : input.Ordered bound) (h : Spans bound input p q ts) (hpq : p ≤ q)
    {info : SymbolInfo} {s : Symbol} {us : List Subtree}
    (hencloses : info.Encloses s (input.offset p) ts us) : Spans bound input p q us := by
  cases hencloses with
  | hidden => exact h
  | visible _ hnode => exact h.node hi hnode (Nat.le_refl p) hpq

end Spans

/-- What is derived from ordered tokens stands in their order. -/
theorem Derives.spans {l : Language} {input : Input} {bound : Nat → Prop}
    (hi : input.Ordered bound) {c : Constituent} {p q : Nat} {ts : List Subtree}
    (h : Derives l input c p q ts) : Spans bound input p q ts := by
  induction h with
  | token _ ht _ => exact .leaf hi ht
  | ruleSymbol _ _ hd hencloses ih => exact ih.enclose hi hd.bounds.1 hencloses
  | expressionSymbol _ _ hd hencloses ih => exact ih.enclose hi hd.bounds.1 hencloses
  | seqNil => exact .nil _
  | seqCons _ _ ih₁ ih₂ => exact ih₁.append ih₂
  | choice _ _ ih => exact ih
  | optionalNone => exact .nil _
  | optionalSome _ ih => exact ih
  | repeatNil => exact .nil _
  | repeatCons _ _ ih₁ ih₂ => exact ih₁.append ih₂
  | oneOrMore _ _ ih₁ ih₂ => exact ih₁.append ih₂
  | operand _ ih => exact ih
  -- the nodes of operators stand at the operator, which lies between the ends of the whole
  | prefixed _ ht _ hd hnode ih =>
    have := hd.bounds
    exact ((Spans.leaf hi ht).append ih).node hi hnode (Nat.le_refl _) (by omega)
  | joined _ hd ht _ hd' hnode ih₁ ih₂ =>
    have := hd'.bounds
    exact (ih₁.append ((Spans.leaf hi ht).append ih₂)).node hi hnode hd.bounds.1 (by omega)
  | applied _ hd hd' _ hnode ih₁ ih₂ =>
    exact (ih₁.append ih₂).node hi hnode hd.bounds.1 hd'.bounds.1

/-! ## The tree of a parse is well nested -/

-- The leaves of skipped tokens stand within those tokens.
theorem Input.Ordered.inOrder_skipped {bound : Nat → Prop} {input : Input}
    (hi : input.Ordered bound) {p q : Nat} {last : Token} (hpq : p < q)
    (hlast : input.tokens[q - 1]? = some last) :
    Subtree.InOrder (input.offset p)
      (((input.between p q).filter (!·.isError)).map .leaf) last.stop := by
  -- induction on the number of skipped tokens behind the first
  obtain ⟨k, hk⟩ : ∃ k, q = p + k + 1 := ⟨q - p - 1, by omega⟩
  induction k generalizing p with
  | zero =>
    obtain rfl : q = p + 1 := hk
    rw [Nat.add_sub_cancel] at hlast
    obtain ⟨-, -, hle⟩ := hi.bounds last (Array.mem_of_getElem? hlast)
    rw [between_eq_cons hlast hpq, between_self, offset_eq hlast]
    cases herr : last.isError
    · simp only [List.filter_cons, herr, Bool.not_false, if_true]
      exact ⟨Nat.le_refl _, hle, Nat.le_refl _⟩
    · simp only [List.filter_cons, herr, Bool.not_true, Bool.false_eq_true, if_false]
      exact hle
  | succ k ih =>
    have hlt := lt_size_of_getElem? hlast
    obtain ⟨t, ht⟩ := input.exists_getElem? (p := p) (by omega)
    have hrest := ih (p := p + 1) (by omega) (by omega)
    obtain ⟨⟨hstart, hle, hnext⟩, -⟩ := hi.leaf ht
    rw [between_eq_cons ht hpq]
    cases herr : t.isError
    · simp only [List.filter_cons, herr, Bool.not_false, if_true, List.map_cons]
      exact ⟨hstart, hle, hrest.mono hnext (Nat.le_refl _)⟩
    · simp only [List.filter_cons, herr, Bool.not_true, Bool.false_eq_true, if_false]
      exact hrest.mono (hi.offset_le_succ p) (Nat.le_refl _)

-- The tokens that an error node takes lie within its bytes.
theorem Subtree.Skips.encloses {bound : Nat → Prop} {input : Input} (hi : input.Ordered bound)
    {p q k : Nat} {e : Subtree} (h : e.Skips input p q) (hp : p ≤ k) (hq : k < q) {t : Token}
    (ht : input.tokens[k]? = some t) : e.start ≤ t.start ∧ t.stop ≤ e.stop := by
  obtain ⟨last, hlast, hstop⟩ := Option.map_eq_some_iff.mp h.stop
  constructor
  · rw [h.start, ← Input.offset_eq ht]
    exact hi.offset_mono hp
  · rw [← hstop]
    -- a token before the last one stops where the next one starts, or earlier
    by_cases hk : k = q - 1
    · rw [hk, hlast] at ht
      exact Nat.le_of_eq (congrArg Token.stop (Option.some.inj ht)).symm
    · have hnext := hi.next k t ht
      have hmono := hi.offset_mono (show k + 1 ≤ q - 1 by omega)
      have hle := (hi.bounds last (Array.mem_of_getElem? hlast)).2.2
      rw [Input.offset_eq hlast] at hmono
      omega

theorem Subtree.Skips.spans {bound : Nat → Prop} {input : Input} (hi : input.Ordered bound)
    {p q : Nat} {e : Subtree} (h : e.Skips input p q) : Spans bound input p q [e] := by
  obtain ⟨last, hlast, hstop⟩ := Option.map_eq_some_iff.mp h.stop
  have hin := hi.inOrder_skipped h.lt hlast
  have hle : last.stop ≤ input.offset q := by
    have := hi.next (q - 1) last hlast
    rwa [Nat.sub_add_cancel (Nat.lt_of_le_of_lt (Nat.zero_le p) h.lt)] at this
  rw [← h.children, ← h.start, hstop] at hin
  refine ⟨⟨Nat.le_of_eq h.start.symm, hin.le, by rwa [← hstop]⟩, ?_⟩
  simp only [List.mem_singleton, forall_eq]
  refine .intro ?_ ?_ hin ?_
  · rw [h.start]
    exact hi.bound_offset p
  · rw [← hstop]
    exact (hi.bounds last (Array.mem_of_getElem? hlast)).2.1
  · intro c hc
    rw [h.children] at hc
    obtain ⟨t, ht, rfl⟩ := List.mem_map.mp hc
    have hmem := List.mem_of_mem_drop (List.mem_of_mem_take (List.mem_filter.mp ht).1)
    obtain ⟨hstart, hstop, hle⟩ := hi.bounds t (Array.mem_toList_iff.mp hmem)
    exact .leaf hstart hstop hle

theorem Assembled.spans {l : Language} {input : Input} {bound : Nat → Prop}
    (hi : input.Ordered bound) {n : Nat} {ts : List Subtree} (h : Assembled l input n ts) :
    Spans bound input 0 n ts := by
  induction h with
  | nil => exact .nil 0
  | matched _ hd ih => exact ih.append (hd.spans hi)
  | skipped _ he ih => exact ih.append (he.spans hi)

namespace Language

variable {l : Language} {input : Input} {bound : Nat → Prop}

/-- Before the extras are added, the tree of a parse is well nested. -/
theorem parseRoot_wellNested (l : Language) (hi : input.Ordered bound) (hzero : bound 0)
    (depth : Nat) : (l.parseRoot input depth).1.WellNested bound := by
  have h := (l.parseRoot_assembled input depth).spans hi
  have hend : input.offset input.size = input.length := by
    simp [Input.offset, Input.size]
  have hin := h.inOrder
  rw [hend] at hin
  exact .intro hzero hi.length (hin.mono (Nat.zero_le _) (Nat.le_refl _)) h.wellNested

end Language

end GrammarKit
