import GrammarKit.Proofs.Descent
import GrammarKit.Query.Basic
import Mathlib.Data.List.Lex

/-!
# What a query matches

A pattern embeds at a node when the node passes its test and its child patterns embed, in order, at
some of the children.  The search for a match tries children from left to right and alternatives in
the order in which they are written; it finds the first embedding, and no match is missed because
the search keeps the first child at which a child pattern matches.
-/

namespace GrammarKit

/-- The node is one that the test asks for: any named one, or one of a kind. -/
inductive NodeTest.Admits {tree : Tree} : NodeTest → Node tree → Prop
  | anyNamed {n} : n.isNamed = true → Admits .anyNamed n
  | kind {s n} : n.symbol = s → Admits (.kind s) n

theorem NodeTest.accepts_iff_admits {tree : Tree} {test : NodeTest} {n : Node tree} :
    test.accepts n = true ↔ test.Admits n := by
  cases test with
  | anyNamed => exact ⟨.anyNamed, fun | .anyNamed h => h⟩
  | kind s => exact beq_iff_eq.trans ⟨.kind, fun | .kind h => h⟩

namespace QueryPattern

variable {tree : Tree}

-- Patterns nest through lists: a property passes from the parts to the pattern.
@[elab_as_elim]
theorem induction {P : QueryPattern → Prop}
    (node : ∀ test children captures, (∀ p ∈ children, P p) → P (.node test children captures))
    (alternation : ∀ alternatives captures, (∀ p ∈ alternatives, P p) →
      P (.alternation alternatives captures))
    (p : QueryPattern) : P p :=
  @QueryPattern.rec P (fun ps => ∀ p ∈ ps, P p)
    (fun test children captures ih => node test children captures ih)
    (fun alternatives captures ih => alternation alternatives captures ih)
    (by simp) (fun _ _ hp hps => by simpa using ⟨hp, hps⟩) p

/-! ## Embeddings -/

mutual

/-- The pattern embeds at the node. -/
inductive Embeds : QueryPattern → Node tree → Prop
  | node {test children captures n} {positions : List Nat} : test.Admits n →
      positions.Pairwise (· < ·) → EmbedsAt children n positions →
      Embeds (.node test children captures) n
  | alternation {alternatives captures n p} : p ∈ alternatives → Embeds p n →
      Embeds (.alternation alternatives captures) n

/-- The patterns embed, one for one, at the children that the node has at the positions. -/
inductive EmbedsAt : List QueryPattern → Node tree → List Nat → Prop
  | nil {n} : EmbedsAt [] n []
  | cons {p ps n c i} {positions : List Nat} : n.child? i = some c → Embeds p c →
      EmbedsAt ps n positions → EmbedsAt (p :: ps) n (i :: positions)

end

mutual

/-- What is captured by the first embedding of the pattern at the node: the one at the least
positions of children, compared from left to right, and by the first alternative that embeds. -/
inductive First : QueryPattern → Node tree → List (Capture tree) → Prop
  | node {test children captures n positions inner} : test.Admits n →
      positions.Pairwise (· < ·) → FirstAt children n positions inner →
      (∀ others : List Nat, others.Pairwise (· < ·) → EmbedsAt children n others →
        positions ≤ others) →
      First (.node test children captures) n (captures.map (⟨n, ·⟩) ++ inner)
  | alternation {alternatives before p after captures n inner} :
      alternatives = before ++ p :: after → (∀ other ∈ before, ¬ other.Embeds n) → First p n inner →
      First (.alternation alternatives captures) n (captures.map (⟨n, ·⟩) ++ inner)

/-- What the first embeddings of the patterns at these children capture. -/
inductive FirstAt : List QueryPattern → Node tree → List Nat → List (Capture tree) → Prop
  | nil {n} : FirstAt [] n [] []
  | cons {p ps n c i positions captured more} : n.child? i = some c → First p c captured →
      FirstAt ps n positions more → FirstAt (p :: ps) n (i :: positions) (captured ++ more)

end

mutual

theorem First.embeds {p : QueryPattern} {n : Node tree} {captured : List (Capture tree)} :
    p.First n captured → p.Embeds n
  | .node hadmits hpositions h _ => .node hadmits hpositions h.embedsAt
  | .alternation heq _ h => .alternation (heq ▸ List.mem_append_right _ List.mem_cons_self) h.embeds

theorem FirstAt.embedsAt {ps : List QueryPattern} {n : Node tree} {positions : List Nat}
    {captured : List (Capture tree)} : FirstAt ps n positions captured → EmbedsAt ps n positions
  | .nil => .nil
  | .cons hc hp hps => .cons hc hp.embeds hps.embedsAt

end

/-! ## There is one first embedding -/

-- In two splits of a list at the first member of a kind, that member is the same.
theorem first_alternative_unique {P : QueryPattern → Prop} {before before' after after'}
    {p p' : QueryPattern} (h : before ++ p :: after = before' ++ p' :: after')
    (hbefore : ∀ q ∈ before, ¬ P q) (hbefore' : ∀ q ∈ before', ¬ P q) (hp : P p) (hp' : P p') :
    p = p' := by
  rcases List.append_eq_append_iff.mp h with ⟨between, rfl, hafter⟩ | ⟨between, rfl, hafter⟩
  · cases between with
    | nil => exact (List.cons.inj hafter).1
    | cons q between =>
      obtain rfl := (List.cons.inj hafter).1
      exact absurd hp (hbefore' p (by simp))
  · cases between with
    | nil => exact (List.cons.inj hafter).1.symm
    | cons q between =>
      obtain rfl := (List.cons.inj hafter).1
      exact absurd hp' (hbefore p' (by simp))

theorem FirstAt.unique {ps : List QueryPattern} {n : Node tree} {positions : List Nat}
    {captured captured' : List (Capture tree)}
    (hps : ∀ p ∈ ps, ∀ (n : Node tree) captured captured', p.First n captured →
      p.First n captured' → captured = captured')
    (h : FirstAt ps n positions captured) (h' : FirstAt ps n positions captured') :
    captured = captured' := by
  induction ps generalizing positions captured captured' with
  | nil =>
    cases h
    cases h'
    rfl
  | cons p ps ih =>
    obtain ⟨hp, hps⟩ := List.forall_mem_cons.mp hps
    cases h with
    | cons hc hfirst hrest =>
      cases h' with
      | cons hc' hfirst' hrest' =>
        rw [hc] at hc'
        obtain rfl := Option.some.inj hc'
        rw [hp _ _ _ hfirst hfirst', ih hps hrest hrest']

theorem First.unique {p : QueryPattern} {n : Node tree} {captured captured' : List (Capture tree)}
    (h : p.First n captured) (h' : p.First n captured') : captured = captured' := by
  induction p using QueryPattern.induction generalizing n captured captured' with
  | node test children captures ih =>
    cases h with
    | node _ hpositions h hleast =>
      cases h' with
      | node _ hpositions' h' hleast' =>
        obtain rfl := le_antisymm (hleast _ hpositions' h'.embedsAt)
          (hleast' _ hpositions h.embedsAt)
        rw [h.unique (fun p hp n _ _ h h' => ih p hp h h') h']
  | alternation alternatives captures ih =>
    cases h with
    | alternation heq hbefore h =>
      cases h' with
      | alternation heq' hbefore' h' =>
        obtain rfl := first_alternative_unique (heq.symm.trans heq') hbefore hbefore' h.embeds
          h'.embeds
        rw [ih _ (heq ▸ List.mem_append_right _ List.mem_cons_self) h h']

/-! ## The search finds it -/

/-- The patterns embed at children of the node from a position on, each to the right of the one
before. -/
structure EmbedsFrom (ps : List QueryPattern) (n : Node tree) (start : Nat) (positions : List Nat) :
    Prop where
  embeds : EmbedsAt ps n positions
  increasing : positions.Pairwise (· < ·)
  bound : ∀ i ∈ positions, start ≤ i

/-- The result of a search at a node: the captures of the first embedding, or nothing if there is
no embedding. -/
structure Settles (p : QueryPattern) (n : Node tree) (o : Option (List (Capture tree))) : Prop where
  found : ∀ captured, o = some captured → p.First n captured
  missing : o = none → ¬ p.Embeds n

/-- The result of a search among the children of a node from a position on. -/
structure SettlesFrom (ps : List QueryPattern) (n : Node tree) (start : Nat)
    (o : Option (List (Capture tree))) : Prop where
  found : ∀ captured, o = some captured → ∃ positions, EmbedsFrom ps n start positions ∧
    FirstAt ps n positions captured ∧ ∀ others, EmbedsFrom ps n start others → positions ≤ others
  missing : o = none → ∀ positions, ¬ EmbedsFrom ps n start positions

section

variable {p : QueryPattern} {ps : List QueryPattern} {n c : Node tree} {start : Nat}
  {positions : List Nat}

-- An embedding of several patterns is one of the first and, further to the right, one of the
-- others.
theorem EmbedsFrom.exists_cons (h : EmbedsFrom (p :: ps) n start positions) :
    ∃ i rest c, positions = i :: rest ∧ start ≤ i ∧ n.child? i = some c ∧ p.Embeds c ∧
      EmbedsFrom ps n (i + 1) rest := by
  obtain ⟨hembeds, hincreasing, hbound⟩ := h
  cases hembeds with
  | @cons _ _ _ c i rest hc hp hps =>
    obtain ⟨hlt, hincreasing⟩ := List.pairwise_cons.mp hincreasing
    exact ⟨i, rest, c, rfl, hbound i List.mem_cons_self, hc, hp, hps, hincreasing, hlt⟩

theorem EmbedsFrom.cons (hc : n.child? start = some c) (hp : p.Embeds c)
    (h : EmbedsFrom ps n (start + 1) positions) :
    EmbedsFrom (p :: ps) n start (start :: positions) where
  embeds := .cons hc hp h.embeds
  increasing := .cons h.bound h.increasing
  bound := List.forall_mem_cons.mpr
    ⟨Nat.le_refl _, fun i hi => Nat.le_of_succ_le (h.bound i hi)⟩

theorem EmbedsFrom.mono {later : Nat} (h : EmbedsFrom ps n later positions) (hle : start ≤ later) :
    EmbedsFrom ps n start positions :=
  ⟨h.embeds, h.increasing, fun i hi => Nat.le_trans hle (h.bound i hi)⟩

-- An embedding from a position on starts there or lies further to the right.
theorem EmbedsFrom.later (h : EmbedsFrom (p :: ps) n start positions)
    (hstart : positions.head? ≠ some start) : EmbedsFrom (p :: ps) n (start + 1) positions := by
  obtain ⟨i, rest, c, rfl, hle, hc, hp, hrest⟩ := h.exists_cons
  have hlt : start < i := Nat.lt_of_le_of_ne hle fun heq => hstart (congrArg some heq.symm)
  refine ⟨h.embeds, h.increasing, List.forall_mem_cons.mpr ⟨hlt, fun j hj => ?_⟩⟩
  have := hrest.bound j hj
  omega

theorem EmbedsFrom.head (h : EmbedsFrom (p :: ps) n start (start :: positions))
    (hc : n.child? start = some c) : p.Embeds c ∧ EmbedsFrom ps n (start + 1) positions := by
  obtain ⟨i, rest, c', heq, -, hc', hp, hrest⟩ := h.exists_cons
  obtain ⟨rfl, rfl⟩ := List.cons.inj heq
  rw [hc] at hc'
  obtain rfl := Option.some.inj hc'
  exact ⟨hp, hrest⟩

-- When no embedding starts at the first of the children, the search goes on behind it.
theorem SettlesFrom.skip {o : Option (List (Capture tree))}
    (h : SettlesFrom (p :: ps) n (start + 1) o)
    (hstart : ∀ rest, ¬ EmbedsFrom (p :: ps) n start (start :: rest)) :
    SettlesFrom (p :: ps) n start o := by
  have hlater (positions : List Nat) (hembeds : EmbedsFrom (p :: ps) n start positions) :
      EmbedsFrom (p :: ps) n (start + 1) positions := by
    refine hembeds.later fun hhead => ?_
    obtain ⟨rest, rfl⟩ := List.head?_eq_some_iff.mp hhead
    exact hstart rest hembeds
  constructor
  · intro captured ho
    obtain ⟨positions, hembeds, hfirst, hleast⟩ := h.found captured ho
    exact ⟨positions, hembeds.mono (Nat.le_succ _), hfirst,
      fun others hothers => hleast others (hlater others hothers)⟩
  · exact fun ho positions hembeds => h.missing ho positions (hlater positions hembeds)

-- When the others embed behind the first of the children, no other child comes first.
theorem SettlesFrom.take {captured more : List (Capture tree)}
    (h : SettlesFrom ps n (start + 1) (some more)) (hc : n.child? start = some c)
    (hp : p.First c captured) : SettlesFrom (p :: ps) n start (some (captured ++ more)) := by
  obtain ⟨positions, hembeds, hat, hleast⟩ := h.found more rfl
  refine ⟨fun _ ho => ⟨start :: positions, hembeds.cons hc hp.embeds, ?_, ?_⟩,
    fun ho => (by cases ho)⟩
  · obtain rfl := Option.some.inj ho
    exact .cons hc hp hat
  · intro others hothers
    obtain ⟨i, rest, c', rfl, hle, -, -, hrest⟩ := hothers.exists_cons
    rcases Nat.lt_or_eq_of_le hle with hlt | rfl
    · exact le_of_lt (List.Lex.rel hlt)
    · exact List.cons_le_cons _ (hleast rest hrest)

end

section

variable {l : Language} {t : Subtree} {text : List Char} {p : QueryPattern}
  {ps : List QueryPattern} {n : Node (Tree.ofSubtree l t text)}

-- The first pattern is kept at the first child where it matches with the others to the right of it:
-- if the others fail there, they fail further to the right, too.
theorem seek_settlesFrom {others : List (Node (Tree.ofSubtree l t text)) →
      Option (List (Capture (Tree.ofSubtree l t text)))}
    (hp : ∀ c : Node (Tree.ofSubtree l t text), p.Settles c (p.matchNode c))
    (hps : ∀ start, SettlesFrom ps n start (others (n.children.drop start)))
    {nodes : List (Node (Tree.ofSubtree l t text))} {start : Nat}
    (hnodes : n.children.drop start = nodes) :
    SettlesFrom (p :: ps) n start (seek (fun c => p.matchNode c) others nodes) := by
  induction nodes generalizing start with
  | nil =>
    have hlen : n.childCount ≤ start := n.length_children ▸ List.drop_eq_nil_iff.mp hnodes
    refine ⟨fun captured ho => (by cases ho), fun _ positions hembeds => ?_⟩
    obtain ⟨i, rest, c, -, hle, hc, -⟩ := hembeds.exists_cons
    exact absurd (Node.child?_eq_some.mp hc).1 (Nat.not_lt_of_le (Nat.le_trans hlen hle))
  | cons c nodes ih =>
    have hc : n.child? start = some c := by
      rw [← Node.getElem?_children, ← List.head?_drop, hnodes]
      rfl
    have hrest : n.children.drop (start + 1) = nodes := by
      rw [Node.drop_children hc] at hnodes
      exact (List.cons.inj hnodes).2
    have hothers := hps (start + 1)
    rw [hrest] at hothers
    rw [seek]
    split
    case h_1 hfirst =>
      exact (ih hrest).skip fun rest hembeds => (hp c).missing hfirst (hembeds.head hc).1
    case h_2 captured hfirst =>
      split
      case h_1 hnone =>
        exact (ih hrest).skip fun rest hembeds => hothers.missing hnone _ (hembeds.head hc).2
      case h_2 more hmore =>
        rw [hmore] at hothers
        exact hothers.take hc ((hp c).found captured hfirst)

theorem matchChildren_settlesFrom
    (hps : ∀ p ∈ ps, ∀ c : Node (Tree.ofSubtree l t text), p.Settles c (p.matchNode c))
    (start : Nat) : SettlesFrom ps n start (matchChildren ps (n.children.drop start)) := by
  induction ps generalizing start with
  | nil =>
    have hnil : EmbedsFrom [] n start [] := ⟨.nil, .nil, by simp⟩
    refine ⟨fun captured ho => ⟨[], hnil, ?_, fun others hothers => ?_⟩, fun ho => (by cases ho)⟩
    · cases ho
      exact .nil
    · cases hothers.embeds
      exact le_refl _
  | cons p ps ih =>
    obtain ⟨hp, hps⟩ := List.forall_mem_cons.mp hps
    rw [matchChildren]
    exact seek_settlesFrom hp (ih hps) rfl

theorem matchFirst_eq_some {ps : List QueryPattern}
    {captured : List (Capture (Tree.ofSubtree l t text))} (h : matchFirst n ps = some captured) :
    ∃ before p after, ps = before ++ p :: after ∧ (∀ q ∈ before, q.matchNode n = none) ∧
      p.matchNode n = some captured := by
  induction ps with
  | nil => cases h
  | cons p ps ih =>
    rw [matchFirst] at h
    split at h
    case h_1 found hfound =>
      cases h
      exact ⟨[], p, ps, rfl, by simp, hfound⟩
    case h_2 hnone =>
      obtain ⟨before, q, after, rfl, hbefore, hq⟩ := ih h
      exact ⟨p :: before, q, after, rfl, List.forall_mem_cons.mpr ⟨hnone, hbefore⟩, hq⟩

theorem matchFirst_eq_none {ps : List QueryPattern} (h : matchFirst n ps = none) :
    ∀ p ∈ ps, p.matchNode n = none := by
  induction ps with
  | nil => simp
  | cons p ps ih =>
    rw [matchFirst] at h
    split at h
    case h_1 => cases h
    case h_2 hnone => exact List.forall_mem_cons.mpr ⟨hnone, ih h⟩

/-- A search for a pattern at a node finds the first embedding, if there is one. -/
theorem matchNode_settles (p : QueryPattern) (n : Node (Tree.ofSubtree l t text)) :
    p.Settles n (p.matchNode n) := by
  induction p using QueryPattern.induction generalizing n with
  | node test children captures ih =>
    have hchildren : SettlesFrom children n 0 (matchChildren children n.children) :=
      matchChildren_settlesFrom ih 0
    rw [matchNode]
    split
    case isTrue haccepts =>
      have hadmits := NodeTest.accepts_iff_admits.mp haccepts
      constructor
      · intro captured ho
        obtain ⟨inner, hinner, rfl⟩ := Option.map_eq_some_iff.mp ho
        obtain ⟨positions, hembeds, hat, hleast⟩ := hchildren.found inner hinner
        exact .node hadmits hembeds.increasing hat fun others hincreasing hothers =>
          hleast others ⟨hothers, hincreasing, fun _ _ => Nat.zero_le _⟩
      · intro ho hembeds
        cases hembeds with
        | node _ hincreasing hembeds =>
          exact hchildren.missing (Option.map_eq_none_iff.mp ho) _
            ⟨hembeds, hincreasing, fun _ _ => Nat.zero_le _⟩
    case isFalse haccepts =>
      refine ⟨fun captured ho => (by cases ho), fun _ hembeds => ?_⟩
      cases hembeds with
      | node h => exact haccepts (NodeTest.accepts_iff_admits.mpr h)
  | alternation alternatives captures ih =>
    rw [matchNode]
    constructor
    · intro captured ho
      obtain ⟨inner, hinner, rfl⟩ := Option.map_eq_some_iff.mp ho
      obtain ⟨before, p, after, rfl, hbefore, hp⟩ := matchFirst_eq_some hinner
      refine .alternation rfl (fun q hq => ?_) ((ih p (by simp) n).found inner hp)
      exact (ih q (List.mem_append_left _ hq) n).missing (hbefore q hq)
    · intro ho hembeds
      cases hembeds with
      | alternation hp hembeds =>
        have hnone := matchFirst_eq_none (Option.map_eq_none_iff.mp ho) _ hp
        exact (ih _ hp n).missing hnone hembeds

/-- A pattern matches at a node with what its first embedding there captures. -/
theorem matchNode_eq_some {captured : List (Capture (Tree.ofSubtree l t text))} :
    p.matchNode n = some captured ↔ p.First n captured := by
  refine ⟨(p.matchNode_settles n).found captured, fun h => ?_⟩
  cases hmatch : p.matchNode n with
  | none => exact absurd h.embeds ((p.matchNode_settles n).missing hmatch)
  | some found => rw [((p.matchNode_settles n).found found hmatch).unique h]

/-- A pattern that embeds at a node has a first embedding there. -/
theorem embeds_iff_exists_first : p.Embeds n ↔ ∃ captured, p.First n captured := by
  refine ⟨fun h => ?_, fun ⟨_, h⟩ => h.embeds⟩
  cases hmatch : p.matchNode n with
  | none => exact absurd h ((p.matchNode_settles n).missing hmatch)
  | some captured => exact ⟨captured, matchNode_eq_some.mp hmatch⟩

end

end QueryPattern

/-! ## Queries -/

namespace Query

/-- Matches of a query from the node `n` down, each with the node at which its pattern embeds. -/
structure Answers {tree : Tree} (q : Query) (n : Node tree)
    (found : List (Node tree × QueryMatch tree)) : Prop where
  /-- There is one for each pair of a node from `n` down and a pattern that embeds there. -/
  embeds : ∀ d i, (∃ m, (d, m) ∈ found ∧ m.patternIndex = i) ↔
    n.Below d ∧ ∃ p, q.patterns[i]? = some p ∧ p.Embeds d
  /-- There is no more than one. -/
  once : (found.map fun m => (m.1, m.2.patternIndex)).Nodup
  /-- They stand in the order in which the nodes are read and then in that of the patterns. -/
  ordered : found.Pairwise fun a b =>
    a.1.Before b.1 ∨ a.1 = b.1 ∧ a.2.patternIndex < b.2.patternIndex
  /-- They capture what the first embedding captures. -/
  captures : ∀ d m, (d, m) ∈ found → ∃ p, q.patterns[m.patternIndex]? = some p ∧
    p.First d m.captures

variable {l : Language} {t : Subtree} {text : List Char} {n d : Node (Tree.ofSubtree l t text)}

theorem mem_matchesAt {index : Nat} {ps : List QueryPattern}
    {m : QueryMatch (Tree.ofSubtree l t text)} :
    m ∈ matchesAt d index ps ↔
      ∃ k p, ps[k]? = some p ∧ m.patternIndex = index + k ∧ p.First d m.captures := by
  induction ps generalizing index with
  | nil => simp [matchesAt]
  | cons p ps ih =>
    -- a match is one of the first pattern, or one of the others, numbered from the next index on
    have hsplit : (∃ k q, (p :: ps)[k]? = some q ∧ m.patternIndex = index + k ∧
        q.First d m.captures) ↔
        (m.patternIndex = index ∧ p.matchNode d = some m.captures) ∨
          m ∈ matchesAt d (index + 1) ps := by
      rw [ih]
      constructor
      · rintro ⟨k, q, hq, hindex, hfirst⟩
        cases k with
        | zero =>
          obtain rfl := Option.some.inj hq
          exact .inl ⟨hindex, QueryPattern.matchNode_eq_some.mpr hfirst⟩
        | succ k => exact .inr ⟨k, q, hq, by omega, hfirst⟩
      · rintro (⟨hindex, hfirst⟩ | ⟨k, q, hq, hindex, hfirst⟩)
        · exact ⟨0, p, rfl, hindex, QueryPattern.matchNode_eq_some.mp hfirst⟩
        · exact ⟨k + 1, q, hq, by omega, hfirst⟩
    rw [hsplit, matchesAt]
    cases hmatch : p.matchNode d with
    | none => simp
    | some captures =>
      obtain ⟨patternIndex, found⟩ := m
      simp [eq_comm]

theorem pairwise_matchesAt (index : Nat) (ps : List QueryPattern) :
    (matchesAt d index ps).Pairwise (·.patternIndex < ·.patternIndex) := by
  induction ps generalizing index with
  | nil => exact .nil
  | cons p ps ih =>
    rw [matchesAt]
    split
    · refine .cons (fun m hm => ?_) (ih _)
      obtain ⟨k, -, -, hindex, -⟩ := mem_matchesAt.mp hm
      rw [hindex]
      exact Nat.lt_of_lt_of_le (Nat.lt_succ_self index) (Nat.le_add_right _ _)
    · exact ih _

/-- A query finds, from a node down, all the places where its patterns embed. -/
theorem run_answers (q : Query) (n : Node (Tree.ofSubtree l t text)) :
    ∃ found, q.Answers n found ∧ found.map (·.2) = q.run n := by
  let found := n.descendants.flatMap fun d => (matchesAt d 0 q.patterns).map (d, ·)
  have hmem (d : Node (Tree.ofSubtree l t text)) (m : QueryMatch (Tree.ofSubtree l t text)) :
      (d, m) ∈ found ↔ n.Below d ∧ ∃ p, q.patterns[m.patternIndex]? = some p ∧
        p.First d m.captures := by
    simp only [found, List.mem_flatMap, List.mem_map, Prod.mk.injEq, Node.mem_descendants,
      mem_matchesAt, Nat.zero_add]
    constructor
    · rintro ⟨d, hd, m, ⟨k, p, hp, rfl, hfirst⟩, rfl, rfl⟩
      exact ⟨hd, p, hp, hfirst⟩
    · rintro ⟨hd, p, hp, hfirst⟩
      exact ⟨d, hd, m, ⟨_, p, hp, rfl, hfirst⟩, rfl, rfl⟩
  have hordered : found.Pairwise fun a b =>
      a.1.Before b.1 ∨ a.1 = b.1 ∧ a.2.patternIndex < b.2.patternIndex := by
    refine List.pairwise_flatMap.mpr ⟨fun d _ => ?_, n.pairwise_descendants.imp ?_⟩
    · exact List.pairwise_map.mpr ((pairwise_matchesAt 0 q.patterns).imp fun h => .inr ⟨rfl, h⟩)
    · intro d e hbefore a ha b hb
      obtain ⟨_, _, rfl⟩ := List.mem_map.mp ha
      obtain ⟨_, _, rfl⟩ := List.mem_map.mp hb
      exact .inl hbefore
  refine ⟨found, ⟨?_, ?_, hordered, fun d m hm => ((hmem d m).mp hm).2⟩, ?_⟩
  · intro d i
    constructor
    · rintro ⟨m, hm, rfl⟩
      obtain ⟨hd, p, hp, hfirst⟩ := (hmem d m).mp hm
      exact ⟨hd, p, hp, hfirst.embeds⟩
    · rintro ⟨hd, p, hp, hembeds⟩
      obtain ⟨captured, hfirst⟩ := QueryPattern.embeds_iff_exists_first.mp hembeds
      exact ⟨⟨i, captured⟩, (hmem d _).mpr ⟨hd, p, hp, hfirst⟩, rfl⟩
  · -- two matches of one pattern at one node would be one before the other
    refine List.pairwise_map.mpr (hordered.imp fun {a b} h heq => ?_)
    obtain ⟨hnode, hindex⟩ := Prod.mk.inj heq
    rcases h with h | ⟨-, h⟩
    · exact Node.Before.irrefl (hnode ▸ h)
    · exact absurd hindex (Nat.ne_of_lt h)
  · simp only [found, run, List.map_flatMap, List.map_map]
    simp [Function.comp_def]

end Query

end GrammarKit
