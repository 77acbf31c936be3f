import GrammarKit.Proofs.Derivation

/-!
# What stands below the root
-/

namespace GrammarKit

namespace Input

/-- The tokens from one position up to another. -/
def between (input : Input) (first next : Nat) : List Token :=
  (input.tokens.toList.drop first).take (next - first)

variable {input : Input} {p q n : Nat}

theorem offset_eq {t : Token} (ht : input.tokens[p]? = some t) : input.offset p = t.start := by
  simp [offset, ht]

@[simp] theorem between_self (input : Input) (p : Nat) : input.between p p = [] := by
  simp [between]

theorem between_eq_cons {t : Token} (ht : input.tokens[p]? = some t) (hq : p < q) :
    input.between p q = t :: input.between (p + 1) q := by
  have hp : p < input.tokens.size := lt_size_of_getElem? ht
  have hget : input.tokens[p] = t := (Array.getElem?_eq_some_iff.mp ht).2
  obtain ⟨k, hk⟩ : ∃ k, q - p = k + 1 := ⟨q - p - 1, by omega⟩
  unfold between
  rw [List.drop_eq_getElem_cons (show p < input.tokens.toList.length by simpa using hp), hk,
    List.take_succ_cons, Array.getElem_toList, hget, show q - (p + 1) = k by omega]

theorem between_append (hq : p ≤ q) (hn : q ≤ n) :
    input.between p q ++ input.between q n = input.between p n := by
  unfold between
  have hdrop : input.tokens.toList.drop q = (input.tokens.toList.drop p).drop (q - p) := by
    rw [List.drop_drop, show p + (q - p) = q by omega]
  rw [hdrop, ← List.take_add, show q - p + (n - q) = n - p by omega]

theorem between_size (input : Input) : input.between 0 input.size = input.tokens.toList := by
  unfold between size
  rw [List.drop_zero, Nat.sub_zero, ← Array.length_toList, List.take_length]

theorem between_infix (input : Input) (p q : Nat) : input.between p q <:+: input.tokens.toList :=
  (List.take_prefix _ _).isInfix.trans (List.drop_suffix _ _).isInfix

theorem head?_between {t : Token} (ht : input.tokens[p]? = some t) (hq : p < q) :
    (input.between p q).head? = some t := by
  rw [between_eq_cons ht hq, List.head?_cons]

theorem getLast?_between {t : Token} (ht : input.tokens[q - 1]? = some t) (hq : p < q) :
    (input.between p q).getLast? = some t := by
  have hlast : input.between (q - 1) q = [t] := by
    rw [between_eq_cons ht (by omega), show q - 1 + 1 = q by omega, between_self]
  rw [← between_append (show p ≤ q - 1 by omega) (show q - 1 ≤ q by omega), hlast,
    List.getLast?_concat]

end Input

/-- A tree is the error node for the tokens from one position up to another. -/
structure Subtree.Skips (input : Input) (first next : Nat) (e : Subtree) : Prop where
  lt : first < next
  le : next ≤ input.size
  symbol : e.symbol = errorSymbol
  start : e.start = input.offset first
  stop : (input.tokens[next - 1]?).map (·.stop) = some e.stop
  /-- One leaf for each of the tokens; what no symbol accounts for leaves nothing. -/
  children : e.children = ((input.between first next).filter (!·.isError)).map leaf
  extra : e.extra = false

/-- The trees below the root for the tokens before a position: derivations from the rule of the root
and error nodes, one after the other. -/
inductive Assembled (l : Language) (input : Input) : (next : Nat) → List Subtree → Prop
  | nil : Assembled l input 0 []
  | matched {p q ts us} :
      Assembled l input p ts → Derives l input (.rule l.rootRule) p q us →
      Assembled l input q (ts ++ us)
  | skipped {p q ts e} :
      Assembled l input p ts → e.Skips input p q → Assembled l input q (ts ++ [e])

namespace Language

variable {l : Language} {input : Input} {depth : Nat}

theorem skip_eq (l : Language) (input : Input) (depth left p : Nat) (skipped : List Subtree) :
    (l.skip input depth left p skipped).2.reverse =
      skipped.reverse ++
        ((input.between p (l.skip input depth left p skipped).1).filter
          (!·.isError)).map .leaf := by
  induction left generalizing p skipped with
  | zero => simp [skip]
  | succ left ih =>
    unfold skip
    cases hp : input.tokens[p]? with
    | none => simp
    | some t =>
      have hcons (q : Nat) (hq : p < q) :
          (if t.isError then skipped else .leaf t :: skipped).reverse ++
              ((input.between (p + 1) q).filter (!·.isError)).map .leaf =
            skipped.reverse ++ ((input.between p q).filter (!·.isError)).map .leaf := by
        rw [Input.between_eq_cons hp hq]
        cases ht : t.isError <;> simp [ht]
      simp only
      split
      · simpa using hcons (p + 1) (Nat.lt_succ_self p)
      · rw [ih]
        exact hcons _ (l.skip_bounds input depth left (p + 1) _).1

theorem recover_skips (l : Language) (depth : Nat) {p : Nat} (hp : p < input.size) :
    (l.recover input depth p).1.Skips input p (l.recover input depth p).2 := by
  obtain ⟨hlt, hle⟩ := l.lt_recover depth hp
  refine ⟨hlt, hle, rfl, rfl, ?_, ?_, rfl⟩
  · have hlast : (l.recover input depth p).2 - 1 < input.tokens.size :=
      Nat.lt_of_lt_of_le (by omega) hle
    show _ = some ((input.tokens[(l.recover input depth p).2 - 1]?.map (·.stop)).getD input.length)
    rw [Array.getElem?_eq_getElem hlast]
    rfl
  · exact l.skip_eq input depth (input.size - p) p []

theorem parseFrom_assembled (l : Language) (input : Input) (depth turns p : Nat)
    (built : List Subtree) (run : Run) (hs : run.Sound l input)
    (hbuilt : Assembled l input p built.reverse) (hp : p ≤ input.size)
    (enough : input.size - p < turns) :
    Assembled l input input.size (l.parseFrom input depth turns p built run).1.reverse := by
  induction turns generalizing p built run with
  | zero => omega
  | succ turns ih =>
    obtain ⟨o, run', h, he⟩ := l.applyRoot_gives input depth p built run hs
    have hb := l.applyRoot_bounds input depth p built run hs
    rw [he] at hb
    obtain ⟨⟨q, built'⟩, hq⟩ : ∃ m, (o.toMatch built).getD (p, built) = m := ⟨_, rfl⟩
    have happlied : Assembled l input q built'.reverse := by
      match o with
      | none =>
        cases hq
        exact hbuilt
      | some (q', ts) =>
        cases hq
        simpa using hbuilt.matched h.evaluates.justifies
    rw [parseFrom_succ, he, hq]
    rw [hq] at hb
    simp only at hb ⊢
    split
    · rename_i hlt
      have hr := l.lt_recover depth hlt
      refine ih _ _ run' h.sound ?_ hr.2 (by omega)
      simpa using happlied.skipped (l.recover_skips depth hlt)
    · rw [show input.size = q by omega]
      exact happlied

theorem parseRoot_assembled (l : Language) (input : Input) (depth : Nat) :
    Assembled l input input.size (l.parseRoot input depth).1.children :=
  l.parseFrom_assembled input depth _ 0 [] {} Run.sound_empty .nil (Nat.zero_le _)
    (Nat.lt_succ_self _)

end Language

end GrammarKit
