import GrammarKit.Proofs.Frontier
import GrammarKit.Proofs.Lexing

/-!
# Adding extras

The tokens that may stand anywhere are added to a finished tree one after the other, each where its
bytes belong.  Nothing else about the tree changes.
-/

namespace GrammarKit

namespace Subtree

/-! ## Where a token is added -/

/-- `t'` is `t` with the token among the children of the tree in which it belongs: behind those that
stop before it and in front of those that start behind it. -/
inductive Inserted (e : Token) : (t t' : Subtree) → Prop
  | among {s start stop before after extra} :
      InOrder start before e.start → InOrder e.stop after stop →
      Inserted e ⟨s, start, stop, before ++ after, extra⟩
        ⟨s, start, stop, before ++ extraLeaf e :: after, extra⟩
  | within {s start stop before c c' after extra} :
      InOrder start before c.start → InOrder c.stop after stop → c.encloses e = true →
      Inserted e c c' →
      Inserted e ⟨s, start, stop, before ++ c :: after, extra⟩
        ⟨s, start, stop, before ++ c' :: after, extra⟩

theorem encloses_iff {t : Subtree} {e : Token} :
    t.encloses e = true ↔ t.start ≤ e.start ∧ e.stop ≤ t.stop := by
  simp [encloses]

-- A token that none of the trees encloses has its place between two of them, if its bytes lie apart
-- from the ends of all.
theorem InOrder.placeAmong {e : Token} {a b : Nat} {ts : List Subtree} (h : InOrder a ts b)
    (ha : a ≤ e.start) (hb : e.stop ≤ b)
    (hends : ∀ t ∈ ts,
      (t.start ≤ e.start ∨ e.stop ≤ t.start) ∧ (t.stop ≤ e.start ∨ e.stop ≤ t.stop))
    (hnone : ∀ t ∈ ts, t.encloses e = false) :
    InOrder a (ts.takeWhile (·.start ≤ e.start)) e.start ∧
      InOrder e.stop (ts.dropWhile (·.start ≤ e.start)) b := by
  induction ts generalizing a with
  | nil => exact ⟨ha, hb⟩
  | cons t ts ih =>
    obtain ⟨⟨hstart, hstop⟩, hends⟩ := List.forall_mem_cons.mp hends
    obtain ⟨henc, hnone⟩ := List.forall_mem_cons.mp hnone
    by_cases hle : t.start ≤ e.start
    · -- the tree would enclose the token if it did not stop before it
      have hstop : t.stop ≤ e.start := by
        refine hstop.resolve_right fun hge => ?_
        rw [encloses_iff.mpr ⟨hle, hge⟩] at henc
        cases henc
      obtain ⟨htake, hdrop⟩ := ih h.2.2 hstop hends hnone
      rw [List.takeWhile_cons_of_pos (by simpa using hle),
        List.dropWhile_cons_of_pos (by simpa using hle)]
      exact ⟨⟨h.1, h.2.1, htake⟩, hdrop⟩
    · have hge : e.stop ≤ t.start := hstart.resolve_left hle
      rw [List.takeWhile_cons_of_neg (by simpa using hle),
        List.dropWhile_cons_of_neg (by simpa using hle)]
      exact ⟨ha, hge, h.2.1, h.2.2⟩

-- The token is added to the first of the trees that encloses it.
theorem insertEnclosed_eq_some {e : Token} {ts ts' : List Subtree}
    (h : insertEnclosed e ts = some ts') :
    ∃ before c after, ts = before ++ c :: after ∧ c.encloses e = true ∧
      ts' = before ++ c.insertExtra e :: after := by
  induction ts generalizing ts' with
  | nil => cases h
  | cons t ts ih =>
    unfold insertEnclosed at h
    split at h
    · rename_i henc
      obtain rfl := Option.some.inj h
      exact ⟨[], t, ts, rfl, henc, rfl⟩
    · obtain ⟨us, hus, rfl⟩ := Option.map_eq_some_iff.mp h
      obtain ⟨before, c, after, rfl, henc, rfl⟩ := ih hus
      exact ⟨t :: before, c, after, rfl, henc, rfl⟩

theorem insertEnclosed_eq_none {e : Token} {ts : List Subtree} (h : insertEnclosed e ts = none) :
    ∀ t ∈ ts, t.encloses e = false := by
  induction ts with
  | nil => simp
  | cons t ts ih =>
    unfold insertEnclosed at h
    split at h
    · cases h
    · rename_i henc
      exact List.forall_mem_cons.mpr ⟨by simpa using henc, ih (Option.map_eq_none_iff.mp h)⟩

/-- A token that a well-nested tree encloses, and in which no tree starts or stops, is added where
it belongs. -/
theorem insertExtra_inserted {bound : Nat → Prop} {e : Token}
    (hwhole : ∀ b, bound b → b ≤ e.start ∨ e.stop ≤ b) {t : Subtree} (hw : t.WellNested bound)
    (henc : t.encloses e = true) : Inserted e t (t.insertExtra e) := by
  induction t using induction with
  | node t ih =>
    obtain ⟨s, start, stop, children, extra⟩ := t
    obtain ⟨hstart, hstop⟩ := encloses_iff.mp henc
    cases hw with
    | intro _ _ hin hchildren =>
      simp only at hin hchildren ih hstart hstop
      unfold insertExtra
      cases hplace : insertEnclosed e children with
      | some children' =>
        obtain ⟨before, c, after, rfl, hc, rfl⟩ := insertEnclosed_eq_some hplace
        obtain ⟨hbefore, -, hafter⟩ := hin.of_append_cons
        have hmem : c ∈ before ++ c :: after := by simp
        exact .within hbefore hafter hc (ih c hmem (hchildren c hmem) hc)
      -- no child encloses the token, so that it goes among them
      | none =>
        have hends (c : Subtree) (hc : c ∈ children) :
            (c.start ≤ e.start ∨ e.stop ≤ c.start) ∧ (c.stop ≤ e.start ∨ e.stop ≤ c.stop) :=
          ⟨hwhole _ (hchildren c hc).bounds.1, hwhole _ (hchildren c hc).bounds.2.1⟩
        obtain ⟨hbefore, hafter⟩ :=
          hin.placeAmong hstart hstop hends (insertEnclosed_eq_none hplace)
        have hadded : Inserted e ⟨s, start, stop, _ ++ _, extra⟩ _ := .among hbefore hafter
        rwa [List.takeWhile_append_dropWhile] at hadded

/-! ## What one token changes -/

/-- The children that the rules or recovery put there. -/
def proper (t : Subtree) : List Subtree :=
  t.children.filter (!·.extra)

/-- The tree and its proper children, as tokens. -/
def outline (t : Subtree) : Token × List Token :=
  (t.asToken, t.proper.map asToken)

-- A token leaf that enclosed the extra would overlap it.
theorem leaves_of_encloses {l : Language} {e : Token} {t : Subtree} (henc : t.encloses e = true)
    (hfree : ∀ u ∈ leaves l [t], ¬(u.start ≤ e.start ∧ e.stop ≤ u.stop)) :
    leaves l [t] = leaves l t.children := by
  refine leaves_of_not_leaf ?_
  cases hleaf : isTokenLeaf l t
  · rfl
  · have hmem : t.asToken ∈ leaves l [t] := by
      simp [leaves, preorderAll, preorder_eq, hleaf]
    exact absurd (encloses_iff.mp henc) (hfree _ hmem)

-- An extra within trees that stand behind another one would start behind it and stop before it.
theorem InOrder.extrasIn_eq_nil {bound : Nat → Prop} {e : Token} {b : Nat} {ts : List Subtree}
    (h : InOrder e.stop ts b) (hlt : e.start < e.stop) (hw : ∀ t ∈ ts, t.WellNested bound)
    (hlast : ∀ u ∈ extrasIn ts, u.stop ≤ e.start) : extrasIn ts = [] := by
  refine List.eq_nil_iff_forall_not_mem.mpr fun u hu => ?_
  have hstop := hlast u hu
  obtain ⟨t, ht, s, hs, rfl⟩ := exists_of_mem_extrasIn hu
  have hfirst := (h.mem ht).1
  obtain ⟨hstart, hle, -⟩ := (hw t ht).within hs
  simp only [asToken] at hstop
  omega

theorem extrasIn_around (s : Symbol) (start stop : Nat) (before after : List Subtree) (c : Subtree)
    (extra : Bool) : extrasIn [⟨s, start, stop, before ++ c :: after, extra⟩] =
      (if extra then [⟨s, start, stop⟩] else []) ++
        (extrasIn before ++ (extrasIn [c] ++ extrasIn after)) := by
  rw [extrasIn_singleton, extrasIn_append, extrasIn_cons c]
  rfl

namespace Inserted

variable {l : Language} {bound : Nat → Prop} {e : Token} {t t' : Subtree}

theorem asToken_eq (h : Inserted e t t') : t'.asToken = t.asToken := by
  cases h <;> rfl

theorem extra_eq (h : Inserted e t t') : t'.extra = t.extra := by
  cases h <;> rfl

theorem start_eq (h : Inserted e t t') : t'.start = t.start :=
  congrArg Token.start h.asToken_eq

theorem stop_eq (h : Inserted e t t') : t'.stop = t.stop :=
  congrArg Token.stop h.asToken_eq

theorem wellNested (h : Inserted e t t') (hstart : bound e.start) (hstop : bound e.stop)
    (hle : e.start ≤ e.stop) (hw : t.WellNested bound) : t'.WellNested bound := by
  induction h with
  | among hbefore hafter =>
    cases hw with
    | intro ha hb _ hchildren =>
      refine .intro ha hb (hbefore.append ⟨Nat.le_refl _, hle, hafter⟩) ?_
      intro c hc
      simp only [List.mem_append, List.mem_cons] at hc hchildren
      rcases hc with hc | rfl | hc
      · exact hchildren c (.inl hc)
      · exact .intro hstart hstop hle (by simp [extraLeaf, leaf])
      · exact hchildren c (.inr hc)
  -- the child keeps its ends, so that its neighbours need not move
  | @within s start stop before c c' after extra hbefore hafter _ hin ih =>
    cases hw with
    | intro ha hb _ hchildren =>
      simp only [List.mem_append, List.mem_cons] at hchildren
      have hc := hchildren c (.inr (.inl rfl))
      refine .intro ha hb (hbefore.append ⟨Nat.le_of_eq hin.start_eq.symm, ?_, ?_⟩) ?_
      · rw [hin.start_eq, hin.stop_eq]
        exact hc.bounds.2.2
      · rwa [hin.stop_eq]
      · intro d hd
        simp only [List.mem_append, List.mem_cons] at hd
        rcases hd with hd | rfl | hd
        · exact hchildren d (.inl hd)
        · exact ih hc
        · exact hchildren d (.inr (.inr hd))

-- An extra is no error, so errors stay where they are.
theorem anyError_eq (h : Inserted e t t') (he : e.symbol ≠ errorSymbol) :
    anyError t'.children = anyError t.children := by
  induction h with
  | among =>
    have hextra : (extraLeaf e).hasError = false := by
      simpa [extraLeaf, leaf, hasError, anyError] using he
    simp [anyError, hextra]
  | @within s start stop before c c' after extra _ _ _ hin ih =>
    have hsymbol : c'.symbol = c.symbol := congrArg Token.symbol hin.asToken_eq
    have hc : c'.hasError = c.hasError := by
      rw [hasError_eq, hasError_eq, ih, isError, isError, hsymbol]
    simp only [anyError_append, anyError, hc]

/-- Where no token leaf encloses the extra, the token leaves stay as they are. -/
theorem leaves_eq (h : Inserted e t t') (henc : t.encloses e = true)
    (hfree : ∀ u ∈ leaves l [t], ¬(u.start ≤ e.start ∧ e.stop ≤ u.stop)) :
    leaves l [t'] = leaves l [t] := by
  induction h with
  | @among s start stop before after extra =>
    have hextra : leaves l [extraLeaf e] = [] := by
      simp [leaves, preorderAll, preorder_eq, isTokenLeaf, extraLeaf, leaf]
    rw [leaves_of_encloses henc hfree, leaves_of_not_leaf (by simp [isTokenLeaf]), leaves_append,
      leaves_cons (extraLeaf e), hextra, leaves_append, List.nil_append]
  | @within s start stop before c c' after extra _ _ hc hin ih =>
    have hsplit : leaves l [⟨s, start, stop, before ++ c :: after, extra⟩] =
        leaves l before ++ (leaves l [c] ++ leaves l after) := by
      rw [leaves_of_encloses henc hfree, leaves_append, leaves_cons c]
    rw [hsplit] at hfree ⊢
    rw [leaves_of_not_leaf (by simp [isTokenLeaf]), ← ih hc fun u hu => hfree u (by simp [hu]),
      ← leaves_cons, ← leaves_append]

-- An extra that comes last becomes the last extra of the tree.
theorem extrasIn_eq (h : Inserted e t t') (hlt : e.start < e.stop) (hw : t.WellNested bound)
    (hlast : ∀ u ∈ extrasIn [t], u.stop ≤ e.start) :
    extrasIn [t'] = extrasIn [t] ++ [e] := by
  induction h with
  | @among s start stop before after extra _ hbehind =>
    cases hw with
    | intro _ _ _ hchildren =>
      have hold : extrasIn [⟨s, start, stop, before ++ after, extra⟩] =
          (if extra then [⟨s, start, stop⟩] else []) ++ (extrasIn before ++ extrasIn after) := by
        rw [extrasIn_singleton, extrasIn_append]
        rfl
      rw [hold] at hlast
      have hafter : extrasIn after = [] :=
        hbehind.extrasIn_eq_nil hlt (fun t ht => hchildren t (by simp [ht]))
          fun u hu => hlast u (by simp [hu])
      rw [extrasIn_around, hold, extrasIn_extraLeaf, hafter]
      simp
  | @within s start stop before c c' after extra _ hbehind hc hin ih =>
    cases hw with
    | intro _ _ _ hchildren =>
      rw [extrasIn_around] at hlast
      have hafter : extrasIn after = [] :=
        (hbehind.mono (encloses_iff.mp hc).2 (Nat.le_refl _)).extrasIn_eq_nil hlt
          (fun t ht => hchildren t (by simp [ht])) fun u hu => hlast u (by simp [hu])
      have hc' := ih (hchildren c (by simp)) fun u hu => hlast u (by simp [hu])
      rw [extrasIn_around, extrasIn_around, hc', hafter]
      simp

-- The proper children keep their places.
theorem outline_eq (h : Inserted e t t') : t'.outline = t.outline := by
  unfold outline
  rw [h.asToken_eq]
  cases h with
  | among => simp [proper, extraLeaf]
  | @within s start stop before c c' after extra _ _ _ hin =>
    have hc := hin.asToken_eq
    simp only [asToken, Token.mk.injEq] at hc
    cases hx : c.extra <;> simp [proper, hx, hin.extra_eq, asToken, hc]

-- The proper children of the proper children keep their places too.
theorem map_outline_eq (h : Inserted e t t') : t'.proper.map outline = t.proper.map outline := by
  cases h with
  | among => simp [proper, extraLeaf]
  | @within s start stop before c c' after extra _ _ _ hin =>
    cases hx : c.extra <;> simp [proper, hx, hin.extra_eq, hin.outline_eq]

-- Errors stay right below the root.
theorem errorsOnTop (h : Inserted e t t') (he : e.symbol ≠ errorSymbol) (ht : t.ErrorsOnTop) :
    t'.ErrorsOnTop := by
  intro d hd
  cases h with
  | among =>
    simp only [List.mem_append, List.mem_cons] at hd
    rcases hd with hd | rfl | hd
    · exact ht d (by simp [hd])
    · rfl
    · exact ht d (by simp [hd])
  | within _ _ _ hin =>
    simp only [List.mem_append, List.mem_cons] at hd
    rcases hd with hd | rfl | hd
    · exact ht d (by simp [hd])
    · rw [hin.anyError_eq he]
      exact ht _ (by simp)
    · exact ht d (by simp [hd])

end Inserted

/-! ## What all of them change -/

variable {l : Language} {bound : Nat → Prop} {e f : Token} {es fs : List Token} {t t' u : Subtree}

/-- The token can be added to the tree: no tree starts or stops in it, no token leaf overlaps it,
and the extras of the tree stand before it. -/
structure Admits (l : Language) (bound : Nat → Prop) (t : Subtree) (e : Token) : Prop where
  wellNested : t.WellNested bound
  between : e.Between bound t.start t.stop
  whole : ∀ b, bound b → b ≤ e.start ∨ e.stop ≤ b
  symbol : e.symbol ≠ errorSymbol
  leaves : ∀ u ∈ leaves l [t], u.Apart e
  extras : ∀ u ∈ extrasIn [t], u.stop ≤ e.start

/-- `t'` is `t` with the tokens added. -/
structure Grown (l : Language) (bound : Nat → Prop) (t : Subtree) (es : List Token) (t' : Subtree) :
    Prop where
  wellNested : t'.WellNested bound
  asToken : t'.asToken = t.asToken
  leaves : leaves l [t'] = leaves l [t]
  extras : extrasIn [t'] = extrasIn [t] ++ es
  outlines : t'.proper.map outline = t.proper.map outline
  errors : t.ErrorsOnTop → t'.ErrorsOnTop

theorem Grown.refl (hw : t.WellNested bound) : Grown l bound t [] t :=
  ⟨hw, rfl, rfl, (List.append_nil _).symm, rfl, id⟩

theorem Grown.trans (h : Grown l bound t es t') (h' : Grown l bound t' fs u) :
    Grown l bound t (es ++ fs) u where
  wellNested := h'.wellNested
  asToken := h'.asToken.trans h.asToken
  leaves := h'.leaves.trans h.leaves
  extras := by rw [h'.extras, h.extras, List.append_assoc]
  outlines := h'.outlines.trans h.outlines
  errors := fun ht => h'.errors (h.errors ht)

theorem Admits.encloses (h : t.Admits l bound e) : t.encloses e = true :=
  encloses_iff.mpr ⟨h.between.first_le, h.between.le_last⟩

theorem Admits.inserted (h : t.Admits l bound e) : Inserted e t (t.insertExtra e) :=
  insertExtra_inserted h.whole h.wellNested h.encloses

-- Adding one token.
theorem Admits.grown (h : t.Admits l bound e) : Grown l bound t [e] (t.insertExtra e) := by
  have henc := h.encloses
  have hin := h.inserted
  have hlt := h.between.lt
  refine ⟨hin.wellNested h.between.start h.between.stop (Nat.le_of_lt hlt) h.wellNested,
    hin.asToken_eq, hin.leaves_eq henc ?_, hin.extrasIn_eq hlt h.wellNested h.extras,
    hin.map_outline_eq, hin.errorsOnTop h.symbol⟩
  intro u hu
  have := h.leaves u hu
  unfold Token.Apart at this
  omega

-- A token can still be added when others that stand before it were.
theorem Admits.grow (h : t.Admits l bound f) (hgrown : Grown l bound t es t')
    (hes : ∀ e ∈ es, e.stop ≤ f.start) : t'.Admits l bound f where
  wellNested := hgrown.wellNested
  between := by
    have hstart : t'.start = t.start := congrArg Token.start hgrown.asToken
    have hstop : t'.stop = t.stop := congrArg Token.stop hgrown.asToken
    rw [hstart, hstop]
    exact h.between
  whole := h.whole
  symbol := h.symbol
  leaves := hgrown.leaves ▸ h.leaves
  extras := by
    intro u hu
    rw [hgrown.extras] at hu
    rcases List.mem_append.mp hu with hu | hu
    · exact h.extras u hu
    · exact hes u hu

/-- Adding tokens in the order of the text. -/
theorem insertExtras_grown (hw : t.WellNested bound) (hes : ∀ e ∈ es, t.Admits l bound e)
    (horder : es.Pairwise fun e f => e.stop ≤ f.start) :
    Grown l bound t es (t.insertExtras es) := by
  induction es generalizing t with
  | nil => exact .refl hw
  | cons e es ih =>
    obtain ⟨he, hes⟩ := List.forall_mem_cons.mp hes
    obtain ⟨hbehind, horder⟩ := List.pairwise_cons.mp horder
    have hone := he.grown
    refine hone.trans (ih hone.wellNested ?_ horder)
    intro f hf
    exact (hes f hf).grow hone (by simpa using hbehind f hf)

end Subtree

end GrammarKit
