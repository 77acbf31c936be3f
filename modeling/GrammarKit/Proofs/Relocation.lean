import GrammarKit.Proofs.Completion
import GrammarKit.Proofs.Walk

/-!
# Tokens at other bytes

Parsing looks at the symbols of tokens and at the order in which they stand.  If the tokens of an
input are put to other bytes, and others are put in front of them, then from the first of them on
an engine does the same: its positions are shifted, and its trees are put to those bytes.
-/

namespace GrammarKit

/-! ## Trees at other bytes -/

/-- The token with the byte `f b` in place of every byte `b`. -/
def Token.relocate (f : Nat → Nat) (t : Token) : Token :=
  ⟨t.symbol, f t.start, f t.stop⟩

namespace Subtree

mutual

/-- The tree with the byte `f b` in place of every byte `b`. -/
def relocate (f : Nat → Nat) : Subtree → Subtree
  | ⟨symbol, start, stop, children, extra⟩ =>
    ⟨symbol, f start, f stop, relocateAll f children, extra⟩

/-- The trees with the byte `f b` in place of every byte `b`. -/
def relocateAll (f : Nat → Nat) : List Subtree → List Subtree
  | [] => []
  | t :: ts => t.relocate f :: relocateAll f ts

end

variable {f : Nat → Nat}

@[simp] theorem relocateAll_eq_map (f : Nat → Nat) (ts : List Subtree) :
    relocateAll f ts = ts.map (relocate f) := by
  induction ts with
  | nil => rfl
  | cons t ts ih => rw [relocateAll, ih, List.map_cons]

@[simp] theorem symbol_relocate (t : Subtree) : (t.relocate f).symbol = t.symbol := by
  cases t
  rfl

@[simp] theorem start_relocate (t : Subtree) : (t.relocate f).start = f t.start := by
  cases t
  rfl

@[simp] theorem stop_relocate (t : Subtree) : (t.relocate f).stop = f t.stop := by
  cases t
  rfl

@[simp] theorem children_relocate (t : Subtree) :
    (t.relocate f).children = t.children.map (relocate f) := by
  cases t
  exact relocateAll_eq_map f _

@[simp] theorem extra_relocate (t : Subtree) : (t.relocate f).extra = t.extra := by
  cases t
  rfl

@[simp] theorem relocate_leaf (t : Token) : (leaf t).relocate f = leaf (t.relocate f) := rfl

-- A node spans its children wherever they are.
theorem relocate_node (s : Symbol) (ts : List Subtree) (place : Nat) :
    (node s ts place).relocate f = node s (ts.map (relocate f)) (f place) := by
  have hstart : f ((ts.head?.map (·.start)).getD place) =
      ((ts.map (relocate f)).head?.map (·.start)).getD (f place) := by
    cases ts <;> simp
  have hstop : f ((ts.getLast?.map (·.stop)).getD place) =
      ((ts.map (relocate f)).getLast?.map (·.stop)).getD (f place) := by
    rw [List.getLast?_map]
    cases ts.getLast? <;> simp
  simp only [node, relocate, relocateAll_eq_map, hstart, hstop]

theorem relocate_id : relocate id = id := by
  funext t
  induction t using induction with
  | node t ih =>
    obtain ⟨symbol, start, stop, children, extra⟩ := t
    have hchildren : children.map (relocate id) = children :=
      (List.map_congr_left ih).trans (List.map_id children)
    simp only [relocate, relocateAll_eq_map, hchildren, id]

end Subtree

theorem SymbolInfo.relocate_enclose {f : Nat → Nat} (info : SymbolInfo) (s : Symbol) (place : Nat)
    (ts : List Subtree) :
    (info.enclose s place ts).map (Subtree.relocate f) =
      info.enclose s (f place) (ts.map (Subtree.relocate f)) := by
  unfold enclose
  split
  · rfl
  · simp [Subtree.relocate_node]

namespace Phrase

/-- The phrase for trees at other bytes. -/
def relocate (f : Nat → Nat) : Phrase → Phrase
  | .application floor ops left => .application floor ops (left.map (Subtree.relocate f))
  | .extension s table floor left => .extension s table floor (left.map (Subtree.relocate f))
  | phrase => phrase

/-- The outcome behind `shift` more tokens, with its trees at other bytes. -/
def Outcome.relocate (f : Nat → Nat) (shift : Nat) (o : Outcome) : Outcome :=
  o.map fun (next, trees) => (shift + next, trees.map (Subtree.relocate f))

namespace Outcome

variable {f : Nat → Nat} {shift : Nat}

@[simp] theorem relocate_none : relocate f shift none = none := rfl

@[simp] theorem relocate_some (next : Nat) (trees : List Subtree) :
    relocate f shift (some (next, trees)) =
      some (shift + next, trees.map (Subtree.relocate f)) := rfl

-- What is done to the trees of an outcome can be done to them where they are put.
theorem relocate_mapTrees {g g' : List Subtree → List Subtree}
    (h : ∀ ts, (g ts).map (Subtree.relocate f) = g' (ts.map (Subtree.relocate f))) (o : Outcome) :
    (o.mapTrees g).relocate f shift = (o.relocate f shift).mapTrees g' := by
  cases o <;> simp [mapTrees, relocate, h]

theorem relocate_append (ts : List Subtree) (o : Outcome) :
    (o.mapTrees (ts ++ ·)).relocate f shift =
      (o.relocate f shift).mapTrees (ts.map (Subtree.relocate f) ++ ·) :=
  relocate_mapTrees (fun _ => List.map_append) o

theorem relocate_enclose (info : SymbolInfo) (s : Symbol) (place : Nat) (o : Outcome) :
    (o.mapTrees (info.enclose s place)).relocate f shift =
      (o.relocate f shift).mapTrees (info.enclose s (f place)) :=
  relocate_mapTrees (info.relocate_enclose s place) o

theorem relocate_toMatch (o : Outcome) :
    Outcome.relocate f shift (o.toMatch []) = (o.relocate f shift).toMatch [] :=
  relocate_mapTrees (fun ts => by simp) o

theorem advances_relocate (o : Outcome) (p : Nat) :
    (o.relocate f shift).advances (shift + p) = o.advances p := by
  cases o <;> simp [advances, relocate]

end Outcome

end Phrase

/-! ## Inputs at other bytes -/

/-- Behind `shift` tokens the one input holds the tokens of the other, at other bytes. -/
structure Input.Moved (f : Nat → Nat) (shift : Nat) (input input' : Input) : Prop where
  tokens : ∀ p, input'.tokens[shift + p]? = input.tokens[p]?.map (Token.relocate f)
  length : input'.length = f input.length

namespace Input.Moved

variable {f : Nat → Nat} {shift p : Nat} {input input' : Input}

theorem offset_eq (h : input.Moved f shift input') (p : Nat) :
    input'.offset (shift + p) = f (input.offset p) := by
  unfold offset
  rw [h.tokens, h.length]
  cases input.tokens[p]? <;> rfl

-- A node over nothing stands where the next token is put.
theorem relocate_node (h : input.Moved f shift input') (s : Symbol) (ts : List Subtree) (p : Nat) :
    (Subtree.node s ts (input.offset p)).relocate f =
      .node s (ts.map (Subtree.relocate f)) (input'.offset (shift + p)) := by
  rw [Subtree.relocate_node, h.offset_eq]

theorem isNode (h : input.Moved f shift input') {t : Subtree} {s : Symbol} {ts : List Subtree}
    (hnode : t.IsNode s ts (input.offset p)) :
    (t.relocate f).IsNode s (ts.map (Subtree.relocate f)) (input'.offset (shift + p)) := by
  rw [hnode.eq_node, h.relocate_node]
  exact Subtree.isNode_node

theorem enclosesMatch (h : input.Moved f shift input') {info : SymbolInfo} {s : Symbol}
    {o o' : Phrase.Outcome} (hmatch : info.EnclosesMatch s (input.offset p) o o') :
    info.EnclosesMatch s (input'.offset (shift + p)) (o.relocate f shift)
      (o'.relocate f shift) := by
  rw [hmatch.eq_mapTrees, Phrase.Outcome.relocate_enclose, ← h.offset_eq]
  exact SymbolInfo.enclosesMatch_mapTrees

theorem getElem?_eq (h : input.Moved f shift input') {t : Token} (ht : input.tokens[p]? = some t) :
    input'.tokens[shift + p]? = some (t.relocate f) := by
  rw [h.tokens, ht, Option.map_some]

theorem size_le_iff (h : input.Moved f shift input') :
    input'.size ≤ shift + p ↔ input.size ≤ p := by
  have hnone : input'.tokens[shift + p]? = none ↔ input.tokens[p]? = none := by
    rw [h.tokens, Option.map_eq_none_iff]
  rwa [Array.getElem?_eq_none_iff, Array.getElem?_eq_none_iff] at hnone

theorem lt_size_iff (h : input.Moved f shift input') :
    shift + p < input'.size ↔ p < input.size := by
  have := h.size_le_iff (p := p)
  omega

-- Both inputs can be cut off behind the same token.
theorem take (h : input.Moved f shift input') (size : Nat) :
    (input.take size).Moved f shift (input'.take (shift + size)) where
  tokens := by
    intro p
    have hlt := h.lt_size_iff (p := p)
    have ht := h.tokens p
    simp only [Input.take, Array.take_eq_extract, Array.getElem?_extract, Nat.zero_add,
      Nat.sub_zero, ht]
    unfold Input.size at hlt
    split <;> split <;> first | rfl | omega
  length := h.length

theorem leafAt_eq (h : input.Moved f shift input') (s : Symbol) (p : Nat) :
    input'.leafAt s (shift + p) = (input.leafAt s p).relocate f shift := by
  unfold leafAt
  rw [h.tokens]
  cases input.tokens[p]? with
  | none => rfl
  | some t =>
    by_cases hs : t.symbol = s <;>
      simp [Token.relocate, Option.filter, hs, Nat.add_assoc]

-- An operator is known by the symbol of its token.
theorem bind_eq (h : input.Moved f shift input') {α : Type} {op? : Token → Option α}
    (hop : ∀ t, op? (t.relocate f) = op? t) (p : Nat) :
    input'.tokens[shift + p]?.bind op? = input.tokens[p]?.bind op? := by
  rw [h.tokens]
  cases input.tokens[p]? with
  | none => rfl
  | some t => exact hop t

end Input.Moved

section

variable {l : Language} {f : Nat → Nat} {shift : Nat} {input input' : Input} {phrase : Phrase}
  {p q : Nat} {o : Phrase.Outcome}

/-! ## What comes of a phrase at other bytes -/

/-- What a grammar read plainly gives for an input, it gives for the same tokens at other bytes. -/
theorem Evaluates.relocate {refusing : Prop} (h : Evaluates l input refusing phrase p o)
    (hmoved : input.Moved f shift input') :
    Evaluates l input' refusing (phrase.relocate f) (shift + p) (o.relocate f shift) := by
  induction h with
  | token ht hp hs => exact .token ht (hmoved.getElem?_eq hp) hs
  | otherToken ht hp =>
    refine .otherToken ht fun t ht' => ?_
    rw [hmoved.tokens] at ht'
    obtain ⟨u, hu, rfl⟩ := Option.map_eq_some_iff.mp ht'
    exact hp u hu
  | call hs _ ih => exact .call hs ih
  | unparseable ht hs => exact .unparseable ht hs
  | seqNil => exact .seqNil
  | seqCons _ _ ih₁ ih₂ =>
    rw [Phrase.Outcome.relocate_append]
    exact .seqCons ih₁ ih₂
  | seqFail _ ih => exact .seqFail ih
  | choiceNil => exact .choiceNil
  | choiceFirst _ ih => exact .choiceFirst ih
  | choiceLater _ _ ih₁ ih₂ => exact .choiceLater ih₁ ih₂
  | repeatFail _ ih => exact .repeatFail ih
  | repeatStill _ hq ih => exact .repeatStill ih (Nat.add_le_add_left hq shift)
  | repeatMore _ hq _ ih₁ ih₂ =>
    rw [Phrase.Outcome.relocate_append]
    exact .repeatMore ih₁ (Nat.add_lt_add_left hq shift) ih₂
  | oneOrMore _ ih => exact .oneOrMore ih
  | optional _ ih => exact .optional ih
  | refusal hr => exact .refusal hr
  | ruleSymbol hs hd _ hmatch ih => exact .ruleSymbol hs hd ih (hmoved.enclosesMatch hmatch)
  | expressionSymbol hs hd _ hmatch ih =>
    exact .expressionSymbol hs hd ih (hmoved.enclosesMatch hmatch)
  | undefined hs => exact .undefined hs
  | noOperand _ ih => exact .noOperand ih
  | expression _ _ ih₁ ih₂ => exact .expression ih₁ ih₂
  | prefixed ht hop _ hnode ih =>
    have hnode := hmoved.isNode hnode
    rw [List.map_cons, Subtree.relocate_leaf] at hnode
    exact .prefixed (hmoved.getElem?_eq ht) hop ih hnode
  | prefixFail ht hop _ ih => exact .prefixFail (hmoved.getElem?_eq ht) hop ih
  | operand hop _ ih =>
    exact .operand ((hmoved.bind_eq (fun _ => rfl) _).trans hop) ih
  | applyNone => exact .applyNone
  | applyWeak hop _ ih => exact .applyWeak hop ih
  | applyFail hop _ _ ih₁ ih₂ => exact .applyFail hop ih₁ ih₂
  | applyStill hop _ hq _ ih₁ ih₂ => exact .applyStill hop ih₁ (Nat.add_le_add_left hq shift) ih₂
  | apply hop _ hq hnode ih =>
    have hnode := hmoved.isNode hnode
    rw [List.map_append] at hnode
    exact .apply hop ih (Nat.add_lt_add_left hq shift) hnode
  | applied _ _ ih₁ ih₂ => exact .applied ih₁ ih₂
  | joined _ ht hop _ hnode _ ih₁ ih₂ ih₃ =>
    have hnode := hmoved.isNode hnode
    rw [List.map_append, List.map_cons, Subtree.relocate_leaf] at hnode
    exact .joined ih₁ (hmoved.getElem?_eq ht) hop ih₂ hnode ih₃
  | noRight _ ht hop _ ih₁ ih₂ => exact .noRight ih₁ (hmoved.getElem?_eq ht) hop ih₂
  | noOperator _ hop ih => exact .noOperator ih ((hmoved.bind_eq (fun _ => rfl) _).trans hop)

/-! ## Engines at other bytes -/

/-- The one engine knows of the moved tokens what the other knows of the tokens. -/
structure Machine.Moved (f : Nat → Nat) (shift : Nat) (m m' : Machine) : Prop where
  memo : ∀ (s : Symbol) (p : Nat) (floor : Precedence),
    m'.run.memo[Goal.mk s (shift + p) floor]? =
      m.run.memo[Goal.mk s p floor]?.map (Phrase.Outcome.relocate f shift)
  depth : m'.depth = m.depth
  truncated : m'.run.truncated = m.run.truncated

namespace Machine.Moved

variable {m m' : Machine}

theorem empty : Moved f shift {} {} := by
  constructor <;> simp

theorem enter (h : m.Moved f shift m') : m.enter.Moved f shift m'.enter :=
  ⟨h.memo, congrArg (· + 1) h.depth, h.truncated⟩

theorem refuse (h : m.Moved f shift m') : m.refuse.Moved f shift m'.refuse :=
  ⟨h.memo, h.depth, rfl⟩

theorem stray (h : m.Moved f shift m') : m.stray.Moved f shift m'.stray :=
  ⟨h.memo, h.depth, h.truncated⟩

theorem leave (h : m.Moved f shift m') (s : Symbol) (p : Nat) (floor : Precedence)
    (o : Phrase.Outcome) :
    (m.leave ⟨s, p, floor⟩ (o.toMatch [])).Moved f shift
      (m'.leave ⟨s, shift + p, floor⟩ ((o.relocate f shift).toMatch [])) := by
  refine ⟨fun s' p' floor' => ?_, congrArg (· - 1) h.depth, h.truncated⟩
  simp only [Machine.leave, Std.TreeMap.getElem?_insert, Std.LawfulEqCmp.compare_eq_iff_eq,
    Goal.mk.injEq, Nat.add_left_cancel_iff, h.memo]
  split
  · rw [Option.map_some, Phrase.Outcome.relocate_toMatch]
  · rfl

theorem memo_eq_none (h : m.Moved f shift m') {s : Symbol} {floor : Precedence}
    (hmemo : m.run.memo[Goal.mk s p floor]? = none) :
    m'.run.memo[Goal.mk s (shift + p) floor]? = none := by
  rw [h.memo, hmemo, Option.map_none]

end Machine.Moved

/-- An engine does with moved tokens what it does with the tokens. -/
theorem Executes.relocate {limit : Nat} {m m' : Machine}
    (h : Executes l input limit phrase p m o m') (hmoved : input.Moved f shift input')
    {n : Machine} (hm : m.Moved f shift n) :
    ∃ n', m'.Moved f shift n' ∧
      Executes l input' limit (phrase.relocate f) (shift + p) n (o.relocate f shift) n' := by
  induction h generalizing n with
  | token hs =>
    refine ⟨n, hm, ?_⟩
    rw [← hmoved.leafAt_eq]
    exact .token hs
  | unparseable hs hn => exact ⟨_, hm.stray, .unparseable hs hn⟩
  | seqNil => exact ⟨n, hm, .seqNil⟩
  | choiceNil => exact ⟨n, hm, .choiceNil⟩
  | applyNone => exact ⟨n, hm, .applyNone⟩
  | remembered hmemo =>
    refine ⟨n, hm, .remembered ?_⟩
    rw [hm.memo, hmemo, Option.map_some, Phrase.Outcome.relocate_toMatch]
  | refused hmemo hlt => exact ⟨_, hm.refuse, .refused (hm.memo_eq_none hmemo) (hm.depth ▸ hlt)⟩
  | unknown hmemo hlt hs =>
    exact ⟨_, hm.stray, .unknown (hm.memo_eq_none hmemo) (hm.depth ▸ hlt) hs⟩
  | undefined hmemo hlt hs hd =>
    exact ⟨_, hm.enter.stray.leave _ _ _ none,
      .undefined (hm.memo_eq_none hmemo) (hm.depth ▸ hlt) hs hd⟩
  | ruleSymbol hmemo hlt hs hd _ ih =>
    obtain ⟨n', hm', ih⟩ := ih hm.enter
    have h := Executes.ruleSymbol (hm.memo_eq_none hmemo) (hm.depth ▸ hlt) hs hd ih
    rw [hmoved.offset_eq, ← Phrase.Outcome.relocate_enclose] at h
    exact ⟨_, hm'.leave _ _ _ _, h⟩
  | expressionSymbol hmemo hlt hs hd _ ih =>
    obtain ⟨n', hm', ih⟩ := ih hm.enter
    have h := Executes.expressionSymbol (hm.memo_eq_none hmemo) (hm.depth ▸ hlt) hs hd ih
    rw [hmoved.offset_eq, ← Phrase.Outcome.relocate_enclose] at h
    exact ⟨_, hm'.leave _ _ _ _, h⟩
  | call hs _ ih =>
    obtain ⟨n', hm', ih⟩ := ih hm
    exact ⟨n', hm', .call hs ih⟩
  | seqFail _ ih =>
    obtain ⟨n', hm', ih⟩ := ih hm
    exact ⟨n', hm', .seqFail ih⟩
  | choiceFirst _ ih =>
    obtain ⟨n', hm', ih⟩ := ih hm
    exact ⟨n', hm', .choiceFirst ih⟩
  | repeatEnd _ hq ih =>
    obtain ⟨n', hm', ih⟩ := ih hm
    exact ⟨n', hm', .repeatEnd ih ((Phrase.Outcome.advances_relocate _ _).trans hq)⟩
  | oneOrMore _ ih =>
    obtain ⟨n', hm', ih⟩ := ih hm
    exact ⟨n', hm', .oneOrMore ih⟩
  | optional _ ih =>
    obtain ⟨n', hm', ih⟩ := ih hm
    exact ⟨n', hm', .optional ih⟩
  | noOperand _ ih =>
    obtain ⟨n', hm', ih⟩ := ih hm
    exact ⟨n', hm', .noOperand ih⟩
  | @prefixed s table p m t op o m' ht hop _ ih =>
    obtain ⟨n', hm', ih⟩ := ih hm
    refine ⟨n', hm', ?_⟩
    have h := Executes.prefixed (hmoved.getElem?_eq ht) hop ih
    rwa [Phrase.Outcome.relocate_mapTrees]
    intro ts
    simp [hmoved.relocate_node]
  | operand hop _ ih =>
    obtain ⟨n', hm', ih⟩ := ih hm
    exact ⟨n', hm', .operand ((hmoved.bind_eq (fun _ => rfl) _).trans hop) ih⟩
  | applyWeak hweak _ ih =>
    obtain ⟨n', hm', ih⟩ := ih hm
    exact ⟨n', hm', .applyWeak hweak ih⟩
  | apply hfloor _ hq ih =>
    obtain ⟨n', hm', ih⟩ := ih hm
    refine ⟨n', hm', ?_⟩
    simp only [Phrase.Outcome.relocate_some, List.map_cons, List.map_nil, hmoved.relocate_node,
      List.map_append]
    exact .apply hfloor ih (Nat.add_lt_add_left hq shift)
  | noOperator _ hop ih =>
    obtain ⟨n', hm', ih⟩ := ih hm
    exact ⟨n', hm', .noOperator ih ((hmoved.bind_eq (fun _ => rfl) _).trans hop)⟩
  | seqCons _ _ ih₁ ih₂ =>
    obtain ⟨n₁, hm₁, ih₁⟩ := ih₁ hm
    obtain ⟨n₂, hm₂, ih₂⟩ := ih₂ hm₁
    rw [Phrase.Outcome.relocate_append]
    exact ⟨n₂, hm₂, .seqCons ih₁ ih₂⟩
  | choiceLater _ _ ih₁ ih₂ =>
    obtain ⟨n₁, hm₁, ih₁⟩ := ih₁ hm
    obtain ⟨n₂, hm₂, ih₂⟩ := ih₂ hm₁
    exact ⟨n₂, hm₂, .choiceLater ih₁ ih₂⟩
  | repeatMore _ hq _ ih₁ ih₂ =>
    obtain ⟨n₁, hm₁, ih₁⟩ := ih₁ hm
    obtain ⟨n₂, hm₂, ih₂⟩ := ih₂ hm₁
    rw [Phrase.Outcome.relocate_append]
    exact ⟨n₂, hm₂, .repeatMore ih₁ (Nat.add_lt_add_left hq shift) ih₂⟩
  | expression _ _ ih₁ ih₂ =>
    obtain ⟨n₁, hm₁, ih₁⟩ := ih₁ hm
    obtain ⟨n₂, hm₂, ih₂⟩ := ih₂ hm₁
    exact ⟨n₂, hm₂, .expression ih₁ ih₂⟩
  | applyLater hfloor _ hq _ ih₁ ih₂ =>
    obtain ⟨n₁, hm₁, ih₁⟩ := ih₁ hm
    obtain ⟨n₂, hm₂, ih₂⟩ := ih₂ hm₁
    exact ⟨n₂, hm₂, .applyLater hfloor ih₁ ((Phrase.Outcome.advances_relocate _ _).trans hq) ih₂⟩
  | applied _ _ ih₁ ih₂ =>
    obtain ⟨n₁, hm₁, ih₁⟩ := ih₁ hm
    obtain ⟨n₂, hm₂, ih₂⟩ := ih₂ hm₁
    exact ⟨n₂, hm₂, .applied ih₁ ih₂⟩
  | noRight _ ht hop _ ih₁ ih₂ =>
    obtain ⟨n₁, hm₁, ih₁⟩ := ih₁ hm
    obtain ⟨n₂, hm₂, ih₂⟩ := ih₂ hm₁
    exact ⟨n₂, hm₂, .noRight ih₁ (hmoved.getElem?_eq ht) hop ih₂⟩
  | joined _ ht hop _ _ ih₁ ih₂ ih₃ =>
    obtain ⟨n₁, hm₁, ih₁⟩ := ih₁ hm
    obtain ⟨n₂, hm₂, ih₂⟩ := ih₂ hm₁
    obtain ⟨n₃, hm₃, ih₃⟩ := ih₃ hm₂
    simp only [Phrase.relocate, List.map_cons, List.map_nil, hmoved.relocate_node,
      List.map_append, Subtree.relocate_leaf] at ih₃
    exact ⟨n₃, hm₃, .joined ih₁ (hmoved.getElem?_eq ht) hop ih₂ ih₃⟩

/-! ## The loops of a parse at other bytes -/

variable {limit : Nat} {m m' n n' : Machine} {ts : List Subtree}

theorem Machine.Moved.aside (h : m.Moved f shift n) (hm : m.Aside limit m')
    (hn : n.Aside limit n') : m'.Moved f shift n' where
  memo := by
    rw [hm.run_eq, hn.run_eq]
    exact h.memo
  depth := by rw [hm.depth_eq, hn.depth_eq, h.depth]
  truncated := by rw [hm.run_eq, hn.run_eq, h.truncated]

-- The engine that finds out whether parsing can go on knows nothing of any other, so that it does
-- not matter beside which engine it works.
theorem Resumes.relocate {resumed : Bool} (h : Resumes l input limit p m resumed m')
    (hmoved : input.Moved f shift input') (n : Machine) :
    ∃ n', Resumes l input' limit (shift + p) n resumed n' := by
  cases h with
  | outside hp => exact ⟨n, .outside (hmoved.size_le_iff.mpr hp)⟩
  | @probe o e hp hx =>
    obtain ⟨e', -, hx'⟩ := hx.relocate (hmoved.take (p + resumeWindow)) .empty
    rw [← Nat.add_assoc] at hx'
    refine ⟨n.beside e', ?_⟩
    have hadvances : (o.relocate f shift).advances (shift + p) = o.advances p :=
      o.advances_relocate p
    rw [← hadvances]
    exact .probe (hmoved.lt_size_iff.mpr hp) hx'

theorem Token.skipped_relocate (t : Token) :
    (t.relocate f).skipped = t.skipped.map (Subtree.relocate f) := by
  have herror : (t.relocate f).isError = t.isError := rfl
  unfold skipped
  rw [herror]
  cases t.isError <;> rfl

theorem SkipsOver.relocate (h : SkipsOver l input limit p m ts q m')
    (hmoved : input.Moved f shift input') (n : Machine) :
    ∃ n', SkipsOver l input' limit (shift + p) n (ts.map (Subtree.relocate f)) (shift + q) n' := by
  induction h generalizing n with
  | atEnd hp => exact ⟨n, .atEnd (hmoved.size_le_iff.mpr hp)⟩
  | recovery ht hr =>
    rw [← Token.skipped_relocate]
    exact ⟨n, .recovery (hmoved.getElem?_eq ht) hr⟩
  | resumed ht hr hres =>
    obtain ⟨n', hres⟩ := hres.relocate hmoved n
    rw [← Token.skipped_relocate]
    exact ⟨n', .resumed (hmoved.getElem?_eq ht) hr hres⟩
  | more ht hr hres _ ih =>
    obtain ⟨n₁, hres⟩ := hres.relocate hmoved n
    obtain ⟨n₂, hs⟩ := ih n₁
    rw [List.map_append, ← Token.skipped_relocate]
    exact ⟨n₂, .more (hmoved.getElem?_eq ht) hr hres hs⟩

theorem Recovers.relocate {error : Subtree} (h : Recovers l input limit p m error q m')
    (hp : p < input.size) (hmoved : input.Moved f shift input') (n : Machine) :
    ∃ n', Recovers l input' limit (shift + p) n (error.relocate f) (shift + q) n' := by
  cases h with
  | error hs =>
    obtain ⟨n', hs'⟩ := hs.relocate hmoved n
    -- the last of the tokens that are skipped is there
    have hlast := hmoved.tokens (q - 1)
    rw [← Nat.add_sub_assoc (by have := hs.bounds hp; omega)] at hlast
    have hstop : f ((input.tokens[q - 1]?.map (·.stop)).getD input.length) =
        (input'.tokens[shift + q - 1]?.map (·.stop)).getD input'.length := by
      rw [hlast, hmoved.length]
      cases input.tokens[q - 1]? <;> rfl
    refine ⟨(n'.lookAt input' (shift + p)).lookAt input' (shift + q - 1), ?_⟩
    simp only [Subtree.relocate, Subtree.relocateAll_eq_map, hstop, ← hmoved.offset_eq]
    exact .error hs'

-- Where the phrase fails, it stays where it was tried.
theorem Phrase.Outcome.orHere_relocate (o : Phrase.Outcome) (p : Nat) :
    (o.relocate f shift).orHere (shift + p) =
      (shift + (o.orHere p).1, (o.orHere p).2.map (Subtree.relocate f)) := by
  cases o <;> rfl

/-- The loop at the root does with moved tokens what it does with the tokens. -/
theorem Parses.relocate (h : Parses l input limit p m ts q m')
    (hmoved : input.Moved f shift input') (hm : m.Moved f shift n) :
    ∃ n', m'.Moved f shift n' ∧
      Parses l input' limit (shift + p) n (ts.map (Subtree.relocate f)) (shift + q) n' := by
  induction h generalizing n with
  | @done p m o m' hx hend =>
    obtain ⟨n', hm', hx⟩ := hx.relocate hmoved hm
    refine ⟨n', hm', ?_⟩
    have h := Parses.done hx
    rw [Phrase.Outcome.orHere_relocate] at h
    exact h (hmoved.size_le_iff.mpr hend)
  | @again p m o m₁ error next m₂ ts last m₃ hx hq hr _ ih =>
    obtain ⟨n₁, hm₁, hx⟩ := hx.relocate hmoved hm
    obtain ⟨n₂, hr'⟩ := hr.relocate hq hmoved n₁
    obtain ⟨n₃, hm₃, hs⟩ := ih (hm₁.aside hr.aside hr'.aside)
    refine ⟨n₃, hm₃, ?_⟩
    have hplace : (o.relocate f shift).orHere (shift + p) = _ := o.orHere_relocate p
    have h := Parses.again hx (by rw [hplace]; exact hmoved.lt_size_iff.mpr hq)
      (by rw [hplace]; exact hr') hs
    rw [hplace] at h
    rwa [List.map_append, List.map_cons]

/-- A parse of tokens at other bytes gives the tree at those bytes. -/
theorem ParsesRoot.relocate {tree : Subtree} (h : ParsesRoot l input limit tree q m)
    (hmoved : input.Moved f 0 input') (hzero : f 0 = 0) :
    ∃ n, m.Moved f 0 n ∧ ParsesRoot l input' limit (tree.relocate f) q n := by
  cases h with
  | root hroot hs =>
    obtain ⟨n, hm, hs⟩ := hs.relocate hmoved .empty
    refine ⟨n, hm, ?_⟩
    simp only [Subtree.relocate, Subtree.relocateAll_eq_map, hzero, ← hmoved.length]
    simp only [Nat.zero_add] at hs
    exact .root hroot hs

/-- The tree of tokens at other bytes is the tree at those bytes. -/
theorem Language.Loadable.parseRoot_relocate (hl : l.Loadable) (hmoved : input.Moved f 0 input')
    (hzero : f 0 = 0) (limit : Nat) : l.parseRoot input' limit =
      ((l.parseRoot input limit).1.relocate f, (l.parseRoot input limit).2) := by
  obtain ⟨m, hroot, htruncated⟩ := hl.parseRoot_parsesRoot input limit
  obtain ⟨m', hroot', htruncated'⟩ := hl.parseRoot_parsesRoot input' limit
  obtain ⟨n, hm, hrelocated⟩ := hroot.relocate hmoved hzero
  obtain ⟨htree, -, rfl⟩ := hroot'.unique hrelocated
  exact Prod.ext htree (htruncated'.trans (hm.truncated.trans htruncated.symm))

end

end GrammarKit
