import GrammarKit.Proofs.Height
import GrammarKit.Proofs.ParsedTree
import GrammarKit.Proofs.Unfolding
import Mathlib.Data.Finset.Card
import Mathlib.Data.Finset.Prod
import Mathlib.Data.Fintype.Card

/-!
# A bound on the height of trees

The table of results has room for each symbol, position and precedence once.  So the height of the
tree of a text grows no faster than the text: for each language and nesting limit it is at most a
multiple of the length of the text.
-/

namespace GrammarKit

open Subtree

/-! ## The room in the table -/

/-- The goals that a run remembers are symbols of the language at positions of the input. -/
def Run.Keyed (l : Language) (input : Input) (run : Run) : Prop :=
  ∀ g : Goal, run.memo[g]? ≠ none → g.symbol < l.kindCount ∧ g.position ≤ input.size

variable {l : Language} {input : Input} {limit : Nat} {phrase : Phrase} {p q : Nat}
  {m m' : Machine} {o : Phrase.Outcome} {ts : List Subtree}

theorem Run.keyed_empty (l : Language) (input : Input) : Run.Keyed l input {} := by
  intro g hg
  simp at hg

theorem Run.Keyed.insert {run : Run} (h : run.Keyed l input) {g : Goal}
    (hsymbol : g.symbol < l.kindCount) (hposition : g.position ≤ input.size) (found : Match) :
    Run.Keyed l input { run with memo := run.memo.insert g found } := by
  intro g' hg
  change (run.memo.insert g found)[g']? ≠ none at hg
  rw [Std.TreeMap.getElem?_insert] at hg
  split at hg
  · rename_i heq
    obtain rfl := Std.LawfulEqCmp.eq_of_compare heq
    exact ⟨hsymbol, hposition⟩
  · exact h g' hg

-- A symbol, a position and a precedence fill at most one place.
theorem Run.Keyed.size_le {run : Run} (h : run.Keyed l input) :
    run.memo.size ≤ l.kindCount * (input.size + 1) * 256 := by
  let goals : Finset Goal :=
    ((Finset.range l.kindCount ×ˢ Finset.range (input.size + 1)) ×ˢ
      (Finset.univ : Finset Precedence)).image fun x => ⟨x.1.1, x.1.2, x.2⟩
  have hsubset : run.memo.keys.toFinset ⊆ goals := by
    intro g hg
    rw [List.mem_toFinset, Std.TreeMap.mem_keys, Std.TreeMap.mem_iff_isSome_getElem?] at hg
    obtain ⟨hsymbol, hposition⟩ := h g (by
      intro hnone
      rw [hnone] at hg
      cases hg)
    refine Finset.mem_image.mpr ⟨((g.symbol, g.position), g.floor), ?_, rfl⟩
    simp only [Finset.mem_product, Finset.mem_range, Finset.mem_univ, and_true]
    exact ⟨hsymbol, Nat.lt_succ_of_le hposition⟩
  calc run.memo.size = run.memo.keys.toFinset.card := by
        rw [List.toFinset_card_of_nodup Std.TreeMap.nodup_keys, Std.TreeMap.length_keys]
    _ ≤ goals.card := Finset.card_le_card hsubset
    _ ≤ _ := Finset.card_image_le
    _ = l.kindCount * (input.size + 1) * 256 := by
        simp [Finset.card_product]

theorem Language.lt_kindCount_of_symbol? {s : Symbol} {info : SymbolInfo}
    (h : l.symbol? s = some info) : s < l.kindCount :=
  (Array.getElem?_eq_some_iff.mp h).1

theorem Executes.keyed (h : Executes l input limit phrase p m o m') (hm : m.run.Bounded input)
    (hp : p ≤ input.size) (hkeyed : m.run.Keyed l input) : m'.run.Keyed l input := by
  induction h with
  | token | remembered | choiceNil | applyNone | unparseable | refused | unknown | seqNil =>
    exact hkeyed
  | undefined _ _ hinfo => exact hkeyed.insert (Language.lt_kindCount_of_symbol? hinfo) hp _
  | ruleSymbol _ _ hinfo _ _ ih | expressionSymbol _ _ hinfo _ _ ih =>
    exact (ih hm hp hkeyed).insert (Language.lt_kindCount_of_symbol? hinfo) hp _
  | call _ _ ih | seqFail _ ih | choiceFirst _ ih | oneOrMore _ ih | optional _ ih
  | applyWeak _ _ ih | noOperand _ ih | operand _ _ ih | repeatEnd _ _ ih | apply _ _ _ ih
  | noOperator _ _ ih => exact ih hm hp hkeyed
  | prefixed ht _ _ ih => exact ih hm (input.lt_size_of_getElem? ht) hkeyed
  | choiceLater h₁ _ ih₁ ih₂ | applyLater _ h₁ _ _ ih₁ ih₂ =>
    exact ih₂ (h₁.bounded hm).1 hp (ih₁ hm hp hkeyed)
  | noRight h₁ ht _ _ ih₁ ih₂ =>
    exact ih₂ (h₁.bounded hm).1 (input.lt_size_of_getElem? ht) (ih₁ hm hp hkeyed)
  | seqCons h₁ _ ih₁ ih₂ | repeatMore h₁ _ _ ih₁ ih₂ | expression h₁ _ ih₁ ih₂
  | applied h₁ _ ih₁ ih₂ =>
    obtain ⟨hm₁, hq⟩ := h₁.bounded hm
    have := (Phrase.Outcome.bounded_some.mp hq).2
    exact ih₂ hm₁ (by omega) (ih₁ hm hp hkeyed)
  | joined h₁ ht _ h₂ _ ih₁ ih₂ ih₃ =>
    have hlt := input.lt_size_of_getElem? ht
    have hm₁ := (h₁.bounded hm).1
    obtain ⟨hm₂, hq⟩ := h₂.bounded hm₁
    have := (Phrase.Outcome.bounded_some.mp hq).2
    exact ih₃ hm₂ (by omega) (ih₂ hm₁ hlt (ih₁ hm hp hkeyed))

/-! ## Parses -/

theorem Token.maxHeight_skipped_le (t : Token) : maxHeight t.skipped ≤ 1 := by
  unfold Token.skipped
  split
  · exact Nat.zero_le _
  · exact Nat.le_refl _

theorem SkipsOver.maxHeight_le (h : SkipsOver l input limit p m ts q m') : maxHeight ts ≤ 1 := by
  induction h with
  | atEnd => exact Nat.zero_le _
  | @recovery _ _ t => exact t.maxHeight_skipped_le
  | @resumed _ _ t => exact t.maxHeight_skipped_le
  | @more _ _ t _ _ _ _ _ _ _ _ ih =>
    rw [maxHeight_append]
    exact Nat.max_le.mpr ⟨t.maxHeight_skipped_le, ih⟩

theorem Recovers.height_le {error : Subtree} (h : Recovers l input limit p m error q m') :
    error.height ≤ 2 := by
  cases h with
  | error hskips => exact Nat.succ_le_succ hskips.maxHeight_le

-- What the rule of the root matches at a position is no higher than the input is long, but for the
-- nodes that are allowed for.
theorem Executes.maxHeight_orHere_le {r : Rule} {bound : Nat}
    (h : Executes l input limit (.rule r) p m o m') (hm : m.run.Bounded input)
    (hp : p ≤ input.size) (hrun : m.run.Rises bound) :
    (o.orHere p).1 ≤ input.size ∧
      maxHeight (o.orHere p).2 ≤ bound + m.allowance limit m' + input.size := by
  have hrises := (h.rises hm (Nat.le_refl p) hrun (by simp [Phrase.left]; omega)).2
  have hbounded := (h.bounded hm).2
  cases o with
  | none => exact ⟨hp, Nat.zero_le _⟩
  | some qts =>
    obtain ⟨q, ts⟩ := qts
    have hq := (Phrase.Outcome.bounded_some.mp hbounded).2
    have hts := Phrase.Outcome.rises_some.mp hrises
    simp only [Phrase.slack] at hts
    show q ≤ input.size ∧ maxHeight ts ≤ _
    omega

theorem Parses.maxHeight_le (h : Parses l input limit p m ts q m') (hm : m.AtRest l input)
    (hp : p ≤ input.size) (hkeyed : m.run.Keyed l input) {bound : Nat}
    (hrun : m.run.Rises bound) :
    m'.run.Keyed l input ∧ m.Gains m' ∧
      maxHeight ts ≤ bound + m.allowance limit m' + input.size + 2 := by
  induction h generalizing bound with
  | done h _ =>
    refine ⟨h.keyed hm.sound.bounded hp hkeyed, h.gains, ?_⟩
    exact Nat.le_add_right_of_le (h.maxHeight_orHere_le hm.sound.bounded hp hrun).2
  | @again p m o m₁ error next m₂ ts last m₃ h hlt hrecovers _ ih =>
    have hm₁ := h.atRest hm
    have haside := hrecovers.aside
    have hnext : next ≤ input.size := by
      cases hrecovers with
      | error hskips => exact (hskips.bounds hlt).2
    have hrun₁ := (h.rises hm.sound.bounded (Nat.le_refl p) hrun (by simp [Phrase.left]; omega)).1
    have hgains₁ := h.gains
    -- recovery leaves the table as it was
    have hgains₂ : m.Gains m₂ := by
      refine ⟨?_, ?_⟩ <;> rw [haside.run_eq]
      · exact hgains₁.size_le
      · exact hgains₁.size_lt
    have hsame : m.allowance limit m₂ = m.allowance limit m₁ := by
      rw [Machine.allowance, Machine.allowance, haside.run_eq]
    obtain ⟨hkeyed₃, hgains₃, hts⟩ := ih (hm₁.aside haside) hnext
      (haside.run_eq ▸ h.keyed hm.sound.bounded hp hkeyed) (haside.run_eq ▸ hrun₁)
    refine ⟨hkeyed₃, hgains₂.trans hgains₃, ?_⟩
    have hdepth : m₂.depth = m.depth := haside.depth_eq.trans h.depth_eq
    have hroom : m.allowance limit m₂ + m₂.allowance limit m₃ = m.allowance limit m₃ :=
      Machine.allowance_trans hgains₂ hdepth hgains₃
    have hfirst := (h.maxHeight_orHere_le hm.sound.bounded hp hrun).2
    have herror := hrecovers.height_le
    rw [maxHeight_append, maxHeight_cons]
    omega

theorem Language.parseRoot_height_le (l : Language) (input : Input) (limit : Nat) :
    (l.parseRoot input limit).1.height ≤
      2 * limit * (l.kindCount * (input.size + 1) * 256) + input.size + 3 := by
  obtain ⟨m, hparses, -⟩ := l.parseRoot_parses input limit
  have hrun : Run.Rises 0 {} := by
    intro g found hg
    simp at hg
  obtain ⟨hkeyed, -, hchildren⟩ :=
    hparses.maxHeight_le .empty (Nat.zero_le _) (Run.keyed_empty l input) hrun
  have hroom : Machine.allowance limit {} m ≤
      2 * limit * (l.kindCount * (input.size + 1) * 256) := by
    refine Nat.mul_le_mul_left _ ?_
    exact Nat.le_trans (Nat.sub_le _ _) hkeyed.size_le
  rw [height_eq]
  omega

/-! ## Extras -/

namespace Subtree

theorem maxHeight_placeAmong (e : Token) (ts : List Subtree) :
    maxHeight (placeAmong e ts) = max 1 (maxHeight ts) := by
  have hsplit : maxHeight ts = max (maxHeight (ts.takeWhile (·.start ≤ e.start)))
      (maxHeight (ts.dropWhile (·.start ≤ e.start))) := by
    rw [← maxHeight_append, List.takeWhile_append_dropWhile]
  have hleaf : (extraLeaf e).height = 1 := rfl
  rw [placeAmong, maxHeight_append, maxHeight_cons, hleaf, hsplit]
  omega

-- A token that is added makes a tree higher by one at most.
theorem height_insertExtra_le (e : Token) (t : Subtree) :
    (t.insertExtra e).height ≤ t.height + 1 := by
  induction t using induction with
  | node t ih =>
    obtain ⟨s, start, stop, children, extra⟩ := t
    unfold insertExtra
    show maxHeight _ + 1 ≤ maxHeight children + 1 + 1
    cases hplace : insertEnclosed e children with
    | none =>
      rw [Option.getD_none, maxHeight_placeAmong]
      omega
    | some children' =>
      obtain ⟨before, c, after, rfl, -, rfl⟩ := insertEnclosed_eq_some hplace
      have hc := ih c (by simp)
      simp only [Option.getD_some, maxHeight_append, maxHeight_cons]
      omega

theorem height_insertExtras_le (es : List Token) (t : Subtree) :
    (t.insertExtras es).height ≤ t.height + es.length := by
  induction es generalizing t with
  | nil => exact Nat.le_refl _
  | cons e es ih =>
    have hfirst := t.height_insertExtra_le e
    have hrest := ih (t.insertExtra e)
    rw [List.length_cons]
    show ((t.insertExtra e).insertExtras es).height ≤ _
    omega

end Subtree

/-! ## Texts -/

-- Tokens that stand side by side are no more than the bytes between their ends.
theorem length_le_of_inOrder {bound : Nat → Prop} {first last : Nat} {ts : List Token}
    (hts : ∀ t ∈ ts, t.Between bound first last)
    (horder : ts.Pairwise fun t u => t.stop ≤ u.start) (hle : first ≤ last) :
    ts.length + first ≤ last := by
  induction ts generalizing first with
  | nil => simpa using hle
  | cons t ts ih =>
    obtain ⟨ht, hts⟩ := List.forall_mem_cons.mp hts
    obtain ⟨hbehind, horder⟩ := List.pairwise_cons.mp horder
    have := ih (fun u hu => { hts u hu with first_le := hbehind u hu }) horder ht.le_last
    have := ht.first_le
    have := ht.lt
    rw [List.length_cons]
    omega

/-- **Trees grow no faster than texts.**  For each language and nesting limit there is a factor such
that no tree of a text is higher than the factor times the length of the text. -/
theorem Parser.parse_height_le {l : Language} (hl : l.Loadable) (parser : Parser)
    (hparser : parser.language = some l) :
    ∃ factor, ∀ (text : String) (result : Parse), parser.parse text = some result →
      result.tree.root.unfolded.height ≤ factor * (text.utf8ByteSize + 1) := by
  refine ⟨2 * parser.maxDepth * l.kindCount * 256 + 5, fun text result hresult => ?_⟩
  obtain rfl : l.parse parser.maxDepth text = result := by
    simpa [Parser.parse, hparser] using hresult
  have hsep := hl.separated text
  have htokens := length_le_of_inOrder hsep.tokens hsep.tokensInOrder (Nat.zero_le _)
  have hextras := length_le_of_inOrder hsep.extras hsep.extrasInOrder (Nat.zero_le _)
  have hsize : (l.inputOf text).size ≤ text.utf8ByteSize := by
    simpa [Language.inputOf, Input.size] using htokens
  have hrule : (l.ruleTree parser.maxDepth text).height ≤ _ :=
    l.parseRoot_height_le (l.inputOf text) parser.maxDepth
  have hgrown := height_insertExtras_le (l.lexer.tokenize text).extras
    (l.ruleTree parser.maxDepth text)
  have htable : 2 * parser.maxDepth * (l.kindCount * ((l.inputOf text).size + 1) * 256) ≤
      2 * parser.maxDepth * l.kindCount * 256 * (text.utf8ByteSize + 1) := by
    rw [Nat.mul_assoc l.kindCount, Nat.mul_comm _ 256, ← Nat.mul_assoc l.kindCount,
      ← Nat.mul_assoc (2 * parser.maxDepth), ← Nat.mul_assoc (2 * parser.maxDepth)]
    exact Nat.mul_le_mul_left _ (Nat.succ_le_succ hsize)
  rw [l.parse_tree, Node.unfolded_eq, Node.subtree_root, Nat.add_mul]
  change ((l.ruleTree parser.maxDepth text).insertExtras _).height ≤ _
  omega

theorem Parser.parse_height_le_sums :
    ∃ factor, ∀ (text : String) (result : Parse),
      ({ language := some .sums, maxDepth := 8 } : Parser).parse text = some result →
      result.tree.root.unfolded.height ≤ factor * (text.utf8ByteSize + 1) :=
  parse_height_le Language.sums_loadable { language := some .sums, maxDepth := 8 } rfl

end GrammarKit
