import GrammarKit.Proofs.Relocation
import GrammarKit.Proofs.Uncut

/-!
# Errors are local

What stands before a place where the loop at the root goes on has no influence on what is made of
the tokens from there on, although the run still holds what was matched ahead of the errors.  Where
nothing is refused, all that is matched is what the grammar says, and the grammar looks at no token
in front of the place.
-/

namespace GrammarKit

/-- The input without its first tokens, over the same text. -/
def Input.drop (input : Input) (count : Nat) : Input :=
  { input with tokens := input.tokens.drop count }

theorem Input.drop_moved (input : Input) (count : Nat) :
    (input.drop count).Moved id count input where
  tokens := by
    intro p
    have hid : Token.relocate id = id := rfl
    rw [hid, Option.map_id, id]
    simp only [drop, Array.drop_eq_extract, Array.getElem?_extract]
    split
    · rfl
    · exact Array.getElem?_eq_none (by omega)
  length := rfl

variable {l : Language} {input input' : Input} {limit p q q' shift : Nat} {f : Nat → Nat}
  {m m' n n' : Machine} {ts ts' : List Subtree}

-- Whatever two engines know, a rule gives them the same if they give up nothing.
theorem Executes.eq_relocate {r : Rule} {o o' : Phrase.Outcome}
    (h : Executes l input limit (.rule r) p m o m')
    (h' : Executes l input' limit (.rule r) (shift + p) n o' n')
    (hmoved : input.Moved f shift input') (hm : m.AtRest l input) (hn : n.AtRest l input')
    (ht : m'.run.truncated = false) (ht' : n'.run.truncated = false) : o' = o.relocate f shift :=
  (h'.evaluates hn ht').unique ((h.evaluates hm ht).relocate hmoved)

/-- Whatever two engines know at the start, if neither gives up anything, then they make the same
of the same tokens. -/
theorem Parses.eq_relocate (h : Parses l input limit p m ts q m')
    (h' : Parses l input' limit p' n ts' q' n') (hp : p' = shift + p)
    (hmoved : input.Moved f shift input') (hm : m.AtRest l input) (hn : n.AtRest l input')
    (ht : m'.run.truncated = false) (ht' : n'.run.truncated = false) :
    ts' = ts.map (Subtree.relocate f) := by
  subst hp
  induction h generalizing n ts' q' n' with
  | done hx hend =>
    cases h' with
    | done hx' =>
      obtain rfl := hx.eq_relocate hx' hmoved hm hn ht ht'
      rw [Phrase.Outcome.orHere_relocate]
    | again hx' hq' hr' hrest' =>
      have ht₁ := hr'.aside.run_eq ▸ hrest'.truncated_eq_false ht'
      obtain rfl := hx.eq_relocate hx' hmoved hm hn ht ht₁
      rw [Phrase.Outcome.orHere_relocate, hmoved.lt_size_iff] at hq'
      omega
  | again hx hq hr hrest ih =>
    have ht₁ := hr.aside.run_eq ▸ hrest.truncated_eq_false ht
    cases h' with
    | done hx' hend' =>
      obtain rfl := hx.eq_relocate hx' hmoved hm hn ht₁ ht'
      rw [Phrase.Outcome.orHere_relocate, hmoved.size_le_iff] at hend'
      omega
    | again hx' hq' hr' hrest' =>
      have ht₁' := hr'.aside.run_eq ▸ hrest'.truncated_eq_false ht'
      obtain rfl := hx.eq_relocate hx' hmoved hm hn ht₁ ht₁'
      rw [Phrase.Outcome.orHere_relocate] at hr' ⊢
      -- both engines skip the same tokens
      obtain ⟨n₂, hr₂⟩ := hr.relocate hq hmoved _
      obtain ⟨rfl, rfl, -⟩ := hr'.unique hr₂
      rw [ih ((hx.atRest hm).aside hr.aside) ((hx'.atRest hn).aside hr'.aside) ht ht' hrest']
      simp

/-- **Errors are local.**  From every place at which the loop at the root goes on, the trees below
the root are those of a parse of the tokens from there on alone, as long as neither parse gives up a
nonterminal.  What was matched or skipped before, and what the run remembers of it, has no
influence. -/
theorem Language.parseRoot_children_eq (l : Language) (input : Input) (limit : Nat)
    {built : List Subtree} {run : Run} (hroot : l.AtRoot input limit p built run)
    (hfound : (l.parseRoot input limit).2 = false)
    (hfoundRest : (l.parseRoot (input.drop p) limit).2 = false) :
    (l.parseRoot input limit).1.children =
      built.reverse ++ (l.parseRoot (input.drop p) limit).1.children := by
  obtain ⟨m, ts, m', -, hm, hs, hchildren, -, htruncated⟩ := hroot.exists_parses
  obtain ⟨n, hrest, htruncatedRest⟩ := l.parseRoot_parses (input.drop p) limit
  have heq := hrest.eq_relocate hs rfl (input.drop_moved p) .empty hm (htruncatedRest ▸ hfoundRest)
    (htruncated ▸ hfound)
  rw [Subtree.relocate_id, List.map_id] at heq
  rw [hchildren, heq]

-- Behind the `+` that no statement starts with, the loop goes on with the last two statements.
theorem Language.parseRoot_children_eq_sums :
    ∃ built run, Language.sums.AtRoot (Language.sums.inputOf "1;+2;3;") 8 3 built run ∧
      built.length = 2 ∧ (Language.sums.parseRoot (Language.sums.inputOf "1;+2;3;") 8).2 = false ∧
      (Language.sums.parseRoot ((Language.sums.inputOf "1;+2;3;").drop 3) 8).2 = false ∧
      (Language.sums.parseRoot (Language.sums.inputOf "1;+2;3;") 8).1.children =
        built.reverse ++
          (Language.sums.parseRoot ((Language.sums.inputOf "1;+2;3;").drop 3) 8).1.children := by
  have hroot : Language.sums.AtRoot (Language.sums.inputOf "1;+2;3;") 8 3 _ _ :=
    .resume .start rfl (by decide)
  exact ⟨_, _, hroot, by decide, by decide, by decide,
    parseRoot_children_eq _ _ _ hroot (by decide) (by decide)⟩

end GrammarKit
