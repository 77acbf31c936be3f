import GrammarKit.Pattern.Reader

/-!
# Patterns in groups

A reader of patterns takes what it takes whatever stands behind it.  So a pattern that can be read
on its own is read in the same way between the parentheses of a group.
-/

namespace GrammarKit

section

variable {α : Type} {p : α → Bool} {xs ys : List α}

theorem dropWhile_append_of_ne_nil (h : xs.dropWhile p ≠ []) :
    (xs ++ ys).dropWhile p = xs.dropWhile p ++ ys := by
  rw [List.dropWhile_append, if_neg (by simpa using h)]

theorem takeWhile_append_of_ne_nil (h : xs.dropWhile p ≠ []) :
    (xs ++ ys).takeWhile p = xs.takeWhile p := by
  have hlength := congrArg List.length (@List.takeWhile_append_dropWhile _ p xs)
  have hpos := List.length_pos_iff.mpr h
  rw [List.length_append] at hlength
  rw [List.takeWhile_append, if_neg (by omega)]

end

namespace Pattern

/-- Whatever the reader takes from a text, it takes from the text with more behind it too. -/
def IsLocal {α : Type} (read : List Char → Option (α × List Char)) : Prop :=
  ∀ {text rest : List Char} {x : α}, read text = some (x, rest) →
    ∀ tail, read (text ++ tail) = some (x, rest ++ tail)

/-! ## Escapes -/

theorem readCodePoint_isLocal {width : Nat} (hwidth : 0 < width) :
    IsLocal (readCodePoint width) := by
  intro text rest x h tail
  match text with
  | [] =>
    have hshort : ([].take width : List Char).length < width := by simpa using hwidth
    rw [readCodePoint, if_pos hshort] at h
    · cases h
    · exact nofun
  | first :: text =>
    by_cases hbrace : first = '\x7b'
    · subst hbrace
      rw [List.cons_append, readCodePoint]
      rw [readCodePoint] at h
      split at h
      next behind hbehind =>
        have hne : text.dropWhile (· != '\x7d') ≠ [] := by
          rw [hbehind]
          exact List.cons_ne_nil _ _
        rw [dropWhile_append_of_ne_nil hne, hbehind, takeWhile_append_of_ne_nil hne]
        obtain ⟨n, hn, h⟩ := Option.bind_eq_some_iff.mp h
        obtain ⟨c, hc, h⟩ := Option.bind_eq_some_iff.mp h
        obtain ⟨rfl, rfl⟩ := Prod.mk.inj (Option.some.inj h)
        exact Option.bind_eq_some_iff.mpr ⟨n, hn, Option.bind_eq_some_iff.mpr ⟨c, hc, rfl⟩⟩
      next => cases h
    · have hother {tail : List Char} : ∀ text', first :: tail = '\x7b' :: text' → False :=
        fun text' heq => hbrace (List.cons.inj heq).1
      rw [readCodePoint.eq_2 _ _ hother] at h
      rw [List.cons_append, readCodePoint.eq_2 _ _ hother, ← List.cons_append]
      split at h
      · cases h
      · rename_i hlength
        have hle : width ≤ (first :: text).length := by
          rw [List.length_take] at hlength
          omega
        rw [List.take_append_of_le_length hle, List.drop_append_of_le_length hle, if_neg hlength]
        obtain ⟨n, hn, h⟩ := Option.bind_eq_some_iff.mp h
        obtain ⟨c, hc, h⟩ := Option.bind_eq_some_iff.mp h
        obtain ⟨rfl, rfl⟩ := Prod.mk.inj (Option.some.inj h)
        exact Option.bind_eq_some_iff.mpr ⟨n, hn, Option.bind_eq_some_iff.mpr ⟨c, hc, rfl⟩⟩

theorem named_isLocal (absent : Bool) : IsLocal (readEscape.named absent) := by
  intro text rest x h tail
  unfold readEscape.named at h ⊢
  split at h
  next behind hbehind =>
    have hne : text.dropWhile (· != '\x7d') ≠ [] := by rw [hbehind]; exact List.cons_ne_nil _ _
    rw [dropWhile_append_of_ne_nil hne, hbehind, takeWhile_append_of_ne_nil hne]
    simp only [Option.bind_eq_bind, Option.bind_eq_some_iff, Option.pure_def, List.cons_append]
      at h ⊢
    obtain ⟨p, hp, h⟩ := h
    obtain ⟨rfl, rfl⟩ := Prod.mk.inj (Option.some.inj h)
    exact ⟨p, hp, rfl⟩
  next => cases h

theorem code_isLocal {width : Nat} (hwidth : 0 < width) : IsLocal (readEscape.code width) := by
  intro text rest x h tail
  obtain ⟨⟨c, rest'⟩, hc, h⟩ := Option.bind_eq_some_iff.mp h
  obtain ⟨rfl, rfl⟩ := Prod.mk.inj (Option.some.inj h)
  exact Option.bind_eq_some_iff.mpr ⟨_, readCodePoint_isLocal hwidth hc tail, rfl⟩

theorem readEscape_isLocal : IsLocal readEscape := by
  intro text rest x h tail
  unfold readEscape at h
  split at h
  case h_1 => cases h
  case h_8 => exact named_isLocal _ h tail
  case h_9 => exact named_isLocal _ h tail
  case h_20 => exact code_isLocal (by decide) h tail
  case h_21 => exact code_isLocal (by decide) h tail
  case h_22 => exact code_isLocal (by decide) h tail
  case h_23 =>
    obtain ⟨hsign, h⟩ := Option.ite_none_right_eq_some.mp h
    obtain ⟨rfl, rfl⟩ := Prod.mk.inj (Option.some.inj h)
    rw [List.cons_append, readEscape, if_pos hsign]
    -- a letter that needs more behind it is no sign
    case x_7 => rintro _ rfl; exact absurd hsign (by decide)
    case x_8 => rintro _ rfl; exact absurd hsign (by decide)
    all_goals assumption
  all_goals
    obtain ⟨rfl, rfl⟩ := Prod.mk.inj (Option.some.inj h)
    rfl

/-! ## Classes -/

theorem readClassAtom_append {text rest : List Char} {x : Escape}
    (h : readClassAtom text = some (x, rest)) (hrest : rest ≠ []) (tail : List Char) :
    readClassAtom (text ++ tail) = some (x, rest ++ tail) := by
  unfold readClassAtom at h
  split at h
  next text =>
    rw [List.cons_append, readClassAtom]
    split at h
    next => cases h
    next hassertion =>
      rw [readEscape_isLocal h tail]
      split
      next heq =>
        obtain ⟨rfl, -⟩ := Prod.mk.inj (Option.some.inj heq)
        exact absurd h (hassertion _ rest)
      next => rfl
  next => cases h
  next => cases h
  next => cases h
  next => cases h
  next c text hslash hbracket hand htilde hdash =>
    obtain ⟨rfl, rfl⟩ := Prod.mk.inj (Option.some.inj h)
    obtain ⟨d, text, rfl⟩ := List.exists_cons_of_ne_nil hrest
    rw [List.cons_append, readClassAtom]
    · exact hslash
    · exact hbracket
    · intro text' hc heq
      exact hand text hc (by rw [(List.cons.inj heq).1])
    · intro text' hc heq
      exact htilde text hc (by rw [(List.cons.inj heq).1])
    · intro text' hc heq
      exact hdash text hc (by rw [(List.cons.inj heq).1])
  next => cases h

theorem readClassItems_nil (fuel : Nat) (items : List ClassItem) :
    readClassItems fuel items [] = none := by
  cases fuel <;> rfl

/-- One member of a class is read from a text, in front of the members before it. -/
inductive ReadsMember (items : List ClassItem) (text : List Char) :
    List ClassItem → List Char → Prop where
  | single {c : Char} {rest : List Char} (h : readClassAtom text = some (.char c, rest))
      (hdash : ∀ behind, rest = '-' :: behind → behind.head? = some ']') :
      ReadsMember items text (.range c c :: items) rest
  | range {c d : Char} {first : Char} {behind rest : List Char}
      (h : readClassAtom text = some (.char c, '-' :: first :: behind)) (hbracket : first ≠ ']')
      (hdash : first ≠ '-') (hlast : readClassAtom (first :: behind) = some (.char d, rest))
      (hle : c ≤ d) : ReadsMember items text (.range c d :: items) rest
  | property {p : CharProperty} {absent : Bool} {rest : List Char}
      (h : readClassAtom text = some (.property p absent, rest))
      (hdash : ∀ behind, rest = '-' :: behind → behind.head? = some ']') :
      ReadsMember items text (.property p absent :: items) rest

theorem readClassItems_eq_some_iff {fuel : Nat} {items : List ClassItem}
    {result : List ClassItem × List Char} {text : List Char} (hclose : text.head? ≠ some ']') :
    readClassItems (fuel + 1) items text = some result ↔
      ∃ items' rest, ReadsMember items text items' rest ∧
        readClassItems fuel items' rest = some result := by
  have hother : ∀ behind, text = ']' :: behind → False := fun behind h => hclose (by rw [h]; rfl)
  rw [readClassItems.eq_3 _ _ _ hother, Option.bind_eq_bind, Option.bind_eq_some_iff]
  constructor
  · rintro ⟨member, hmember, hbehind⟩
    split at hbehind
    next c behind =>
      exact ⟨_, _, .single hmember fun _ heq => by rw [← (List.cons.inj heq).2]; rfl, hbehind⟩
    next => cases hbehind
    next c behind hbracket hdash =>
      obtain ⟨last, hlast, hrange⟩ := Option.bind_eq_some_iff.mp hbehind
      split at hrange
      next d rest =>
        obtain ⟨hle, hrest⟩ := Option.ite_none_right_eq_some.mp hrange
        obtain ⟨first, behind, rfl⟩ : ∃ first others, behind = first :: others := by
          cases behind with
          | nil => cases hlast
          | cons first others => exact ⟨first, others, rfl⟩
        refine ⟨_, _, .range hmember ?_ ?_ hlast hle, hrest⟩
        · exact fun heq => hbracket behind (by rw [heq])
        · exact fun heq => hdash behind (by rw [heq])
      next => cases hrange
    next c rest _ _ hdash =>
      exact ⟨_, _, .single hmember fun behind heq => (hdash behind heq).elim, hbehind⟩
    next p absent behind =>
      exact ⟨_, _, .property hmember fun _ heq => by rw [← (List.cons.inj heq).2]; rfl, hbehind⟩
    next => cases hbehind
    next p absent rest _ hdash =>
      exact ⟨_, _, .property hmember fun behind heq => (hdash behind heq).elim, hbehind⟩
    next => cases hbehind
  · rintro ⟨items', rest, hmember, hrest⟩
    cases hmember with
    | single hatom hdash =>
      refine ⟨_, hatom, ?_⟩
      split
      next heq => cases heq; exact hrest
      next heq => cases heq; cases hdash _ rfl
      next hbracket _ heq =>
        cases heq
        obtain ⟨others, rfl⟩ := List.head?_eq_some_iff.mp (hdash _ rfl)
        exact (hbracket others rfl).elim
      next heq => cases heq; exact hrest
      all_goals rename_i heq; cases heq
    | range hatom hbracket hdash hlast hle =>
      refine ⟨_, hatom, ?_⟩
      split
      next heq => cases heq; exact absurd rfl hbracket
      next heq => cases heq; exact absurd rfl hdash
      next heq =>
        cases heq
        refine Option.bind_eq_some_iff.mpr ⟨_, hlast, ?_⟩
        exact Option.ite_none_right_eq_some.mpr ⟨hle, hrest⟩
      next hother heq => cases heq; exact (hother _ rfl).elim
      all_goals rename_i heq; cases heq
    | property hatom hdash =>
      refine ⟨_, hatom, ?_⟩
      split
      case h_5 heq => cases heq; exact hrest
      case h_6 hbracket heq =>
        cases heq
        obtain ⟨others, rfl⟩ := List.head?_eq_some_iff.mp (hdash _ rfl)
        exact (hbracket others rfl).elim
      case h_7 heq => cases heq; exact hrest
      all_goals rename_i heq; cases heq

theorem ReadsMember.exists_cons {items items' : List ClassItem} {text rest : List Char}
    (h : ReadsMember items text items' rest) : ∃ first others, text = first :: others := by
  cases text with
  | nil => rcases h with ⟨h, -⟩ | ⟨h, -⟩ | ⟨h, -⟩ <;> cases h
  | cons first others => exact ⟨first, others, rfl⟩

theorem ReadsMember.append {items items' : List ClassItem} {text rest : List Char}
    (h : ReadsMember items text items' rest) (hrest : rest ≠ []) (tail : List Char) :
    ReadsMember items (text ++ tail) items' (rest ++ tail) := by
  -- a dash stays in front of the bracket, if it was in front of one
  have hkept (hdash : ∀ behind, rest = '-' :: behind → behind.head? = some ']') (behind)
      (heq : rest ++ tail = '-' :: behind) : behind.head? = some ']' := by
    obtain ⟨first, others, rfl⟩ := List.exists_cons_of_ne_nil hrest
    obtain ⟨rfl, rfl⟩ := List.cons.inj heq
    obtain ⟨others, rfl⟩ := List.head?_eq_some_iff.mp (hdash others rfl)
    rfl
  cases h with
  | single hatom hdash => exact .single (readClassAtom_append hatom hrest tail) (hkept hdash)
  | range hatom hbracket hdash hlast hle =>
    have hatom' := readClassAtom_append hatom (List.cons_ne_nil _ _) tail
    exact .range hatom' hbracket hdash (readClassAtom_append hlast hrest tail) hle
  | property hatom hdash => exact .property (readClassAtom_append hatom hrest tail) (hkept hdash)

theorem readClassItems_append {fuel fuel' : Nat} {items items' : List ClassItem}
    {text rest : List Char} (h : readClassItems fuel items text = some (items', rest))
    (hle : fuel ≤ fuel') (tail : List Char) :
    readClassItems fuel' items (text ++ tail) = some (items', rest ++ tail) := by
  induction fuel generalizing fuel' items text with
  | zero => cases h
  | succ fuel ih =>
    obtain ⟨fuel', rfl⟩ : ∃ n, fuel' = n + 1 := ⟨fuel' - 1, by omega⟩
    by_cases hclose : text.head? = some ']'
    · obtain ⟨behind, rfl⟩ := List.head?_eq_some_iff.mp hclose
      obtain ⟨rfl, rfl⟩ := Prod.mk.inj (Option.some.inj h)
      rfl
    · obtain ⟨items'', behind, hmember, hrest⟩ := (readClassItems_eq_some_iff hclose).mp h
      -- the class is not closed yet where the text ends
      have hopen : behind ≠ [] := by
        rintro rfl
        rw [readClassItems_nil] at hrest
        cases hrest
      obtain ⟨first, others, rfl⟩ := hmember.exists_cons
      have hclose' : (first :: others ++ tail).head? ≠ some ']' := hclose
      exact (readClassItems_eq_some_iff hclose').mpr
        ⟨_, _, hmember.append hopen tail, ih hrest (Nat.le_of_succ_le_succ hle)⟩

/-- Whether a class is negated, and what follows the sign of that. -/
def classSign (text : List Char) : Bool × List Char :=
  match text with
  | '^' :: rest => (true, rest)
  | _ => (false, text)

/-- A closing bracket behind the sign of a class is a member of it. -/
def classStart (items : List ClassItem) (text : List Char) : List ClassItem × List Char :=
  match text, items with
  | ']' :: rest, [] => ([.range ']' ']'], rest)
  | _, _ => (items, text)

/-- The members of a class that are read in another way than those behind them. -/
def classHead (text : List Char) : List ClassItem × List Char :=
  classStart ((text.takeWhile (· == '-')).map fun c => .range c c) (text.dropWhile (· == '-'))

theorem readClass_eq (anyCase : Bool) (text : List Char) :
    readClass anyCase text =
      (readClassItems ((classHead (classSign text).2).2.length + 1)
        (classHead (classSign text).2).1 (classHead (classSign text).2).2).map
          fun (items, rest) => ({ items, negated := (classSign text).1, anyCase }, rest) := by
  rw [readClass.eq_def, Option.map_eq_bind]
  rfl

theorem classSign_append {text : List Char} (h : text ≠ []) (tail : List Char) :
    classSign (text ++ tail) = ((classSign text).1, (classSign text).2 ++ tail) := by
  cases text using classSign.fun_cases with
  | case1 rest => rfl
  | case2 text hother =>
    obtain ⟨first, text, rfl⟩ := List.exists_cons_of_ne_nil h
    rw [List.cons_append, classSign.eq_2 _ hother, classSign.eq_2]
    · rfl
    · exact fun _ heq => hother text (by rw [(List.cons.inj heq).1])

theorem classStart_append {items : List ClassItem} {text : List Char} (h : text ≠ [])
    (tail : List Char) :
    classStart items (text ++ tail) =
      ((classStart items text).1, (classStart items text).2 ++ tail) := by
  cases items, text using classStart.fun_cases with
  | case1 rest => rfl
  | case2 items text hother =>
    obtain ⟨first, text, rfl⟩ := List.exists_cons_of_ne_nil h
    rw [List.cons_append, classStart.eq_2 _ _ hother, classStart.eq_2]
    · rfl
    · exact fun _ heq hitems => hother text (by rw [(List.cons.inj heq).1]) hitems

theorem classHead_append {text : List Char} (h : text.dropWhile (· == '-') ≠ [])
    (tail : List Char) :
    classHead (text ++ tail) = ((classHead text).1, (classHead text).2 ++ tail) := by
  rw [classHead, classHead, dropWhile_append_of_ne_nil h, takeWhile_append_of_ne_nil h,
    classStart_append h]

theorem readClass_isLocal (anyCase : Bool) : IsLocal (readClass anyCase) := by
  intro text rest set h tail
  rw [readClass_eq] at h
  obtain ⟨⟨items, rest⟩, hitems, hset⟩ := Option.map_eq_some_iff.mp h
  obtain ⟨rfl, rfl⟩ := Prod.mk.inj hset
  -- something is left of the text for the bracket that closes the class
  have hmembers : (classSign text).2.dropWhile (· == '-') ≠ [] := by
    intro hnil
    rw [classHead, hnil, classStart, readClassItems_nil] at hitems
    · cases hitems
    · exact nofun
  have htext : text ≠ [] := by
    rintro rfl
    exact hmembers rfl
  rw [readClass_eq, classSign_append htext, classHead_append hmembers]
  refine Option.map_eq_some_iff.mpr ⟨_, readClassItems_append hitems ?_ tail, rfl⟩
  rw [List.length_append]
  omega

/-! ## Repetitions -/

theorem trimStart_append {text : List Char} (h : Text.trimStart text ≠ []) (tail : List Char) :
    Text.trimStart (text ++ tail) = Text.trimStart text ++ tail :=
  dropWhile_append_of_ne_nil h

theorem readCount_append {text rest : List Char} {n : Nat} (h : readCount text = some (n, rest))
    (hrest : rest ≠ []) (tail : List Char) :
    readCount (text ++ tail) = some (n, rest ++ tail) := by
  unfold readCount at h
  simp only at h
  split at h
  next => cases h
  next hdigits =>
    obtain ⟨rfl, rfl⟩ := Prod.mk.inj (Option.some.inj h)
    -- none of the runs that are read is at the end of the text
    have hbehind : (Text.trimStart text).dropWhile Char.isDigit ≠ [] := by
      intro hnil
      rw [hnil] at hrest
      exact hrest rfl
    have htext : Text.trimStart text ≠ [] := by
      intro hnil
      rw [hnil] at hbehind
      exact hbehind rfl
    rw [readCount, trimStart_append htext, takeWhile_append_of_ne_nil hbehind,
      dropWhile_append_of_ne_nil hbehind, trimStart_append hrest]
    simp only

theorem readBounds_append {text rest : List Char} {least : Nat} {most : Option Nat}
    (h : readBounds text = some (least, most, rest)) (tail : List Char) :
    readBounds (text ++ tail) = some (least, most, rest ++ tail) := by
  obtain ⟨count, hcount, hbehind⟩ := Option.bind_eq_some_iff.mp h
  split at hbehind
  next =>
    cases hbehind
    exact Option.bind_eq_some_iff.mpr ⟨_, readCount_append hcount (List.cons_ne_nil _ _) tail, rfl⟩
  next =>
    cases hbehind
    exact Option.bind_eq_some_iff.mpr ⟨_, readCount_append hcount (List.cons_ne_nil _ _) tail, rfl⟩
  next n behind hclose =>
    refine Option.bind_eq_some_iff.mpr
      ⟨_, readCount_append hcount (List.cons_ne_nil _ _) tail, ?_⟩
    obtain ⟨upper, hupper, hbehind⟩ := Option.bind_eq_some_iff.mp hbehind
    split at hbehind
    next =>
      obtain ⟨hle, hbehind⟩ := Option.ite_none_right_eq_some.mp hbehind
      cases hbehind
      have hupper' := readCount_append hupper (List.cons_ne_nil _ _) tail
      have hne : behind ≠ [] := by
        rintro rfl
        cases hupper
      obtain ⟨first, others, rfl⟩ := List.exists_cons_of_ne_nil hne
      simp only [List.cons_append] at hupper' ⊢
      split
      next heq => cases heq
      next heq => cases heq; exact (hclose others rfl).elim
      next heq =>
        cases heq
        exact Option.bind_eq_some_iff.mpr
          ⟨_, hupper', Option.ite_none_right_eq_some.mpr ⟨hle, rfl⟩⟩
      next hcomma => exact (hcomma _ _ rfl).elim
    next => cases hbehind
  next => cases hbehind

theorem readGreed_append {text : List Char} (tail : List Char)
    (h : text = [] → tail.head? ≠ some '?') :
    readGreed (text ++ tail) = ((readGreed text).1, (readGreed text).2 ++ tail) := by
  match text with
  | [] =>
    match tail, h rfl with
    | [], _ => rfl
    | c :: tail, h =>
      rw [List.nil_append, readGreed]
      · rfl
      · rintro rest heq
        exact h (by rw [(List.cons.inj heq).1]; rfl)
  | c :: text =>
    by_cases hlazy : c = '?'
    · subst hlazy
      rfl
    · have hother {tail : List Char} : ∀ behind, c :: tail = '?' :: behind → False :=
        fun behind heq => hlazy (List.cons.inj heq).1
      rw [List.cons_append, readGreed.eq_2 _ hother, readGreed.eq_2 _ hother]
      rfl

/-- How often an operator, with the text behind it, asks for what it repeats, and what follows. -/
def repetitionBounds (operator : Char) (text : List Char) :
    Option (Nat × Option Nat × List Char) :=
  if operator = '*' then some (0, none, text)
  else if operator = '+' then some (1, none, text)
  else if operator = '?' then some (0, some 1, text)
  else readBounds text

theorem readRepetition_eq (p : Pattern) (operator : Char) (text : List Char) :
    readRepetition p operator text = (repetitionBounds operator text).map
      fun (least, most, text) => (p.bounded least most (readGreed text).1, (readGreed text).2) := by
  rw [readRepetition.eq_def, repetitionBounds, Option.map_eq_bind]
  repeat' split
  all_goals rfl

theorem repetitionBounds_isLocal {operator : Char} {text rest : List Char} {least : Nat}
    {most : Option Nat} (h : repetitionBounds operator text = some (least, most, rest))
    (tail : List Char) :
    repetitionBounds operator (text ++ tail) = some (least, most, rest ++ tail) := by
  unfold repetitionBounds at h ⊢
  split at h
  next hstar =>
    rw [if_pos hstar]
    cases h
    rfl
  next hstar =>
  rw [if_neg hstar]
  split at h
  next hplus =>
    rw [if_pos hplus]
    cases h
    rfl
  next hplus =>
  rw [if_neg hplus]
  split at h
  next hmark =>
    rw [if_pos hmark]
    cases h
    rfl
  next hmark =>
    rw [if_neg hmark]
    exact readBounds_append h tail

theorem readRepetition_append {p q : Pattern} {operator : Char} {text rest : List Char}
    (h : readRepetition p operator text = some (q, rest)) (tail : List Char)
    (htail : rest = [] → tail.head? ≠ some '?') :
    readRepetition p operator (text ++ tail) = some (q, rest ++ tail) := by
  rw [readRepetition_eq] at h
  obtain ⟨⟨least, most, behind⟩, hbounds, h⟩ := Option.map_eq_some_iff.mp h
  obtain ⟨rfl, rfl⟩ := Prod.mk.inj h
  have hgreed : readGreed (behind ++ tail) = ((readGreed behind).1, (readGreed behind).2 ++ tail) :=
    readGreed_append tail fun hnil => htail (by rw [hnil]; rfl)
  rw [readRepetition_eq, repetitionBounds_isLocal hbounds tail, Option.map_some]
  simp only [hgreed]

/-! ## Groups -/

theorem readGroupStart_append {anyCase : Bool} {text rest : List Char} {start : GroupStart}
    (h : readGroupStart anyCase text = some (start, rest)) (hne : text ≠ []) (tail : List Char) :
    readGroupStart anyCase (text ++ tail) = some (start, rest ++ tail) := by
  unfold readGroupStart at h
  split at h
  case h_6 => cases h
  case h_7 hmark =>
    cases h
    obtain ⟨first, text, rfl⟩ := List.exists_cons_of_ne_nil hne
    have hfirst {behind : List Char} : first :: text ++ tail = '?' :: behind → False :=
      fun heq => hmark text (by rw [(List.cons.inj heq).1])
    rw [readGroupStart.eq_7]
    all_goals exact fun _ => hfirst
  all_goals
    cases h
    rfl

theorem readAtom_isLocal (anyCase : Bool) : IsLocal (readAtom anyCase) := by
  intro text rest p h tail
  unfold readAtom at h
  split at h
  next => cases h; rfl
  next => cases h; rfl
  next => cases h; rfl
  next text =>
    obtain ⟨⟨set, rest⟩, hset, h⟩ := Option.bind_eq_some_iff.mp h
    cases h
    exact Option.bind_eq_some_iff.mpr ⟨_, readClass_isLocal anyCase hset tail, rfl⟩
  next text =>
    obtain ⟨escape, hescape, h⟩ := Option.bind_eq_some_iff.mp h
    refine Option.bind_eq_some_iff.mpr ⟨_, readEscape_isLocal hescape tail, ?_⟩
    split at h
    all_goals
      cases h
      rfl
  next c text hdot hstart hend hclass hescape =>
    cases h
    exact readAtom.eq_6 anyCase c (rest ++ tail) hdot hstart hend hclass hescape
  next => cases h

theorem readGroup_nil (steps : Nat) (r : Reading) : readGroup steps true r [] = none := by
  cases steps <;> rfl

/-- A text that is read in a group, or as a whole, is read in the same way in a group that has any
text behind it, as a whole if a parenthesis follows that closes the group. -/
theorem readGroup_append {steps steps' : Nat} {nested : Bool} {r : Reading}
    {text rest : List Char} {q : Pattern} (h : readGroup steps nested r text = some (q, rest))
    (hle : steps ≤ steps') (behind : List Char) :
    readGroup steps' true r (text ++ if nested then behind else ')' :: behind) =
      some (q, if nested then rest ++ behind else behind) := by
  induction steps generalizing steps' nested r text rest q behind with
  | zero => cases h
  | succ steps ih =>
    obtain ⟨steps', rfl⟩ : ∃ n, steps' = n + 1 := ⟨steps' - 1, by omega⟩
    have hle' := Nat.le_of_succ_le_succ hle
    match text with
    | [] =>
      cases nested with
      | true => cases h
      | false =>
        cases h
        rfl
    | c :: text =>
      rw [readGroup.eq_3] at h
      rw [List.cons_append, readGroup.eq_3]
      split at h
      next hclose =>
        rw [if_pos hclose, if_pos rfl]
        cases nested with
        | true => cases h; rfl
        | false => cases h
      next hclose =>
      rw [if_neg hclose]
      split at h
      next halternative =>
        rw [if_pos halternative]
        exact ih h hle' behind
      next halternative =>
      rw [if_neg halternative]
      split at h
      next hopen =>
        rw [if_pos hopen]
        obtain ⟨⟨start, text'⟩, hstart, h⟩ := Option.bind_eq_some_iff.mp h
        have htext : text ≠ [] := by
          rintro rfl
          cases hstart
          simp only [readGroup_nil] at h
          cases h
        refine Option.bind_eq_some_iff.mpr ⟨_, readGroupStart_append hstart htext _, ?_⟩
        cases start with
        | setting anyCase => exact ih h hle' behind
        | nested anyCase =>
          obtain ⟨⟨p, text''⟩, hinner, h⟩ := Option.bind_eq_some_iff.mp h
          exact Option.bind_eq_some_iff.mpr ⟨_, ih hinner hle' _, ih h hle' behind⟩
      next hopen =>
      rw [if_neg hopen]
      split at h
      next hrepetition =>
        rw [if_pos hrepetition]
        cases hparts : r.parts with
        | nil => simp only [hparts] at h; cases h
        | cons p parts =>
          simp only [hparts] at h ⊢
          obtain ⟨hsetting, h⟩ := Option.ite_none_left_eq_some.mp h
          obtain ⟨⟨p', text'⟩, hp', h⟩ := Option.bind_eq_some_iff.mp h
          rw [if_neg hsetting]
          refine Option.bind_eq_some_iff.mpr ⟨_, readRepetition_append hp' _ ?_, ih h hle' behind⟩
          rintro rfl
          cases nested with
          | true => simp only [readGroup_nil] at h; cases h
          | false => exact fun hmark => by cases hmark
      next hrepetition =>
        rw [if_neg hrepetition]
        obtain ⟨⟨p, text'⟩, hatom, h⟩ := Option.bind_eq_some_iff.mp h
        exact Option.bind_eq_some_iff.mpr
          ⟨_, readAtom_isLocal r.anyCase hatom _, ih h hle' behind⟩

end Pattern

end GrammarKit
