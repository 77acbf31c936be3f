import GrammarKit.Proofs.Narrowing
import GrammarKit.Proofs.Safety
import Mathlib.Data.List.TakeWhile

/-!
# Points are exact

The point of a byte says how many newlines there are before it and how far it is from the last of
them.  So different bytes have different points, and points follow each other as the bytes do.
-/

namespace GrammarKit

namespace Text

/-- The bytes that spell a text. -/
def bytes (text : List Char) : List UInt8 :=
  text.flatMap String.utf8EncodeChar

/-- The byte that a newline is. -/
def newline : UInt8 := 0x0A

/-- The line of the byte at the index `byte` starts at `start`: at the first byte of all or behind a
newline, with no newline from there up to `byte`. -/
structure IsLineStart (bytes : List UInt8) (byte start : Nat) : Prop where
  le : start ≤ byte
  opens : start = 0 ∨ bytes[start - 1]? = some newline
  unbroken : ∀ i, start ≤ i → i < byte → bytes[i]? ≠ some newline

namespace Point

/-- The point is that of the byte at an index: its row is the number of newlines before the byte,
its column the number of bytes between the start of the line and the byte. -/
structure IsAt (bytes : List UInt8) (byte : Nat) (p : Point) : Prop where
  row : p.row = (bytes.take byte).count newline
  column : ∃ start, IsLineStart bytes byte start ∧ start + p.column = byte

/-- One point comes before another in the order of the text. -/
def Before (p q : Point) : Prop :=
  p.le q = true ∧ q.le p = false

end Point

variable {text : List Char} {byte byte' start start' offset : Nat}

/-! ## Bytes -/

theorem bytes_toList (s : String) : bytes s.toList = s.toByteArray.data.toList := by
  rw [← String.utf8Encode_toList, List.utf8Encode, List.data_toByteArray, List.toList_toArray]
  rfl

theorem bytes_cons (c : Char) (text : List Char) :
    bytes (c :: text) = String.utf8EncodeChar c ++ bytes text := rfl

-- The byte of a newline stands for nothing else, and in no other character.
theorem newline_not_mem_utf8EncodeChar {c : Char} (h : c ≠ '\n') :
    newline ∉ String.utf8EncodeChar c := by
  have hne : c.val.toNat ≠ 10 := fun heq => h (Char.ext (UInt32.toNat_inj.mp heq))
  have hbyte (n : Nat) : newline = UInt8.ofNat n ↔ n % 256 = 10 := by
    rw [← UInt8.toNat_inj, UInt8.toNat_ofNat', eq_comm]
    rfl
  rw [String.utf8EncodeChar]
  generalize c.val.toNat = n at hne
  -- as many bytes as the code point needs
  split
  · rw [List.mem_singleton, hbyte]
    omega
  · split
    · simp only [List.mem_cons, List.not_mem_nil, or_false, hbyte]
      omega
    · split <;> simp only [List.mem_cons, List.not_mem_nil, or_false, hbyte] <;> omega

/-! ## The starts of lines -/

theorem mem_lineStartsFrom :
    start ∈ lineStartsFrom offset text ↔
      ∃ i, (bytes text)[i]? = some newline ∧ start = offset + i + 1 := by
  induction text generalizing offset with
  | nil => simp [lineStartsFrom, bytes]
  | cons c text ih =>
    have hbehind (i : Nat) :
        (bytes (c :: text))[c.utf8Size + i]? = (bytes text)[i]? := by
      rw [bytes_cons, ← String.length_utf8EncodeChar c, List.getElem?_append_right (by omega),
        Nat.add_sub_cancel_left]
    rw [lineStartsFrom]
    split
    next hc =>
      subst hc
      have hsize : '\n'.utf8Size = 1 := rfl
      rw [List.mem_cons, ih, hsize]
      constructor
      · rintro (rfl | ⟨i, hi, rfl⟩)
        · exact ⟨0, rfl, rfl⟩
        · exact ⟨1 + i, (hbehind i).trans hi, by rw [Nat.add_assoc offset]⟩
      · rintro ⟨i, hi, rfl⟩
        cases i with
        | zero => exact .inl rfl
        | succ i => exact .inr ⟨i, hi, by omega⟩
    next hc =>
      rw [ih]
      constructor
      · rintro ⟨i, hi, rfl⟩
        exact ⟨c.utf8Size + i, (hbehind i).trans hi, by rw [Nat.add_assoc offset]⟩
      · rintro ⟨i, hi, rfl⟩
        by_cases hlt : i < c.utf8Size
        · rw [bytes_cons, List.getElem?_append_left
            (by rwa [String.length_utf8EncodeChar])] at hi
          exact absurd (List.mem_of_getElem? hi) (newline_not_mem_utf8EncodeChar hc)
        · obtain ⟨j, rfl⟩ := Nat.exists_eq_add_of_le (Nat.not_lt.mp hlt)
          exact ⟨j, (hbehind j).symm.trans hi, by rw [← Nat.add_assoc offset]⟩

theorem mem_lineStarts :
    start ∈ lineStarts text ↔
      start = 0 ∨ ∃ i, (bytes text)[i]? = some newline ∧ start = i + 1 := by
  rw [lineStarts, List.mem_cons, mem_lineStartsFrom]
  simp only [Nat.zero_add]

theorem pairwise_lineStartsFrom (offset : Nat) (text : List Char) :
    (lineStartsFrom offset text).Pairwise (· < ·) := by
  induction text generalizing offset with
  | nil => exact .nil
  | cons c text ih =>
    rw [lineStartsFrom]
    split
    · refine .cons (fun start hstart => ?_) (ih _)
      obtain ⟨i, -, rfl⟩ := mem_lineStartsFrom.mp hstart
      omega
    · exact ih _

theorem pairwise_lineStarts (text : List Char) : (lineStarts text).Pairwise (· < ·) := by
  refine .cons (fun start hstart => ?_) (pairwise_lineStartsFrom 0 text)
  obtain ⟨i, -, rfl⟩ := mem_lineStartsFrom.mp hstart
  omega

-- The lines that start up to a byte are as many as the newlines before it, and the first line.
theorem length_takeWhile_lineStartsFrom (offset byte : Nat) (text : List Char) :
    ((lineStartsFrom offset text).takeWhile (· ≤ offset + byte)).length =
      ((bytes text).take byte).count newline := by
  induction text generalizing offset byte with
  | nil => simp [lineStartsFrom, bytes]
  | cons c text ih =>
    have hsize : (String.utf8EncodeChar c).length = c.utf8Size := String.length_utf8EncodeChar c
    rw [lineStartsFrom, bytes_cons]
    split
    next hc =>
      subst hc
      have hone : '\n'.utf8Size = 1 := rfl
      rw [hone]
      cases byte with
      | zero => rw [List.takeWhile_cons_of_neg (by simp)]; rfl
      | succ byte =>
        have hnext : offset + (byte + 1) = offset + 1 + byte := by omega
        rw [List.takeWhile_cons_of_pos (by simp), List.length_cons, hnext, ih]
        exact List.count_cons_self.symm
    next hc =>
      have hnone := List.count_eq_zero.mpr (newline_not_mem_utf8EncodeChar hc)
      rw [List.take_append, List.count_append]
      by_cases hlt : byte < c.utf8Size
      · -- the byte is within the character, so no further line starts up to it
        have hbefore : ((lineStartsFrom (offset + c.utf8Size) text).takeWhile
            (· ≤ offset + byte)) = [] := by
          refine List.takeWhile_eq_nil_iff.mpr fun hl hle => ?_
          obtain ⟨i, -, hi⟩ := mem_lineStartsFrom.mp (List.get_mem _ ⟨0, hl⟩)
          rw [hi, decide_eq_true_eq] at hle
          omega
        have htake := (List.take_sublist byte (String.utf8EncodeChar c)).count_le newline
        rw [hbefore, Nat.sub_eq_zero_of_le (by omega), List.take_zero]
        simp only [List.length_nil, List.count_nil]
        omega
      · obtain ⟨behind, rfl⟩ := Nat.exists_eq_add_of_le (Nat.not_lt.mp hlt)
        have hwhole : (String.utf8EncodeChar c).length ≤ c.utf8Size + behind := by omega
        rw [← Nat.add_assoc, ih, List.take_of_length_le hwhole, hnone, hsize,
          Nat.add_sub_cancel_left, Nat.zero_add]

theorem length_takeWhile_lineStarts (byte : Nat) (text : List Char) :
    ((lineStarts text).takeWhile (· ≤ byte)).length =
      ((bytes text).take byte).count newline + 1 := by
  have h := length_takeWhile_lineStartsFrom 0 byte text
  rw [Nat.zero_add] at h
  rw [lineStarts, List.takeWhile_cons_of_pos (by simp), List.length_cons, h]

-- Of increasing numbers those up to a bound are the first ones.
theorem le_iff_lt_length_takeWhile {xs : List Nat} (h : xs.Pairwise (· < ·)) {i x bound : Nat}
    (hx : xs[i]? = some x) : x ≤ bound ↔ i < (xs.takeWhile (· ≤ bound)).length := by
  induction h generalizing i with
  | nil => simp at hx
  | @cons y ys hy _ ih =>
    by_cases hbound : y ≤ bound
    · rw [List.takeWhile_cons_of_pos (by simpa using hbound), List.length_cons]
      cases i with
      | zero =>
        obtain rfl : y = x := Option.some.inj hx
        exact ⟨fun _ => Nat.succ_pos _, fun _ => hbound⟩
      | succ i => rw [ih hx, Nat.succ_lt_succ_iff]
    · rw [List.takeWhile_cons_of_neg (by simpa using hbound), List.length_nil]
      have hle : y ≤ x := by
        cases i with
        | zero => exact Nat.le_of_eq (Option.some.inj hx)
        | succ i => exact Nat.le_of_lt (hy x (List.mem_of_getElem? hx))
      exact ⟨fun h => absurd (hle.trans h) hbound, fun h => absurd h (Nat.not_lt_zero i)⟩

/-! ## The order of points -/

theorem IsLineStart.unique {bytes : List UInt8} (h : IsLineStart bytes byte start)
    (h' : IsLineStart bytes byte start') : start = start' := by
  -- a line that started later would have a newline before it in the line that started earlier
  have hnot {a b : Nat} (ha : IsLineStart bytes byte a) (hb : IsLineStart bytes byte b) :
      ¬ a < b := by
    intro hlt
    have := hb.le
    exact ha.unbroken (b - 1) (by omega) (by omega) (hb.opens.resolve_left (by omega))
  have := hnot h h'
  have := hnot h' h
  omega

namespace Point

variable {p q : Point} {bytes : List UInt8}

theorem before_iff :
    p.Before q ↔ p.row < q.row ∨ p.row = q.row ∧ p.column < q.column := by
  simp only [Before, le, Bool.or_eq_true, Bool.and_eq_true, decide_eq_true_eq, beq_iff_eq,
    Bool.or_eq_false_iff, Bool.and_eq_false_iff, decide_eq_false_iff_not, beq_eq_false_iff_ne]
  omega

theorem le_refl (p : Point) : p.le p = true := by
  simp [le]

theorem count_take_mono (bytes : List UInt8) {i j : Nat} (h : i ≤ j) :
    (bytes.take i).count newline ≤ (bytes.take j).count newline :=
  (List.take_prefix_take_left h).sublist.count_le newline

/-- The point of an earlier byte comes earlier. -/
theorem IsAt.before (hp : p.IsAt bytes byte) (hq : q.IsAt bytes byte') (h : byte < byte') :
    p.Before q := by
  rw [before_iff]
  rcases Nat.lt_or_eq_of_le (count_take_mono bytes (Nat.le_of_lt h)) with hlt | heq
  · exact .inl (by rw [hp.row, hq.row]; exact hlt)
  · right
    obtain ⟨start, hstart, hcolumn⟩ := hp.column
    obtain ⟨start', hstart', hcolumn'⟩ := hq.column
    -- with no newline between them, both bytes are on one line
    have hnone : ∀ i, byte ≤ i → i < byte' → bytes[i]? ≠ some newline := by
      intro i hle hlt hi
      have hcount : (bytes.take (i + 1)).count newline = (bytes.take i).count newline + 1 := by
        rw [List.take_add_one, hi, List.count_append]
        rfl
      have hbefore := count_take_mono bytes hle
      have hbehind : (bytes.take (i + 1)).count newline ≤ (bytes.take byte').count newline :=
        count_take_mono bytes hlt
      omega
    have hsame : IsLineStart bytes byte' start :=
      { le := hstart.le.trans (Nat.le_of_lt h)
        opens := hstart.opens
        unbroken := fun i hi hlt => by
          by_cases hbyte : i < byte
          · exact hstart.unbroken i hi hbyte
          · exact hnone i (Nat.not_lt.mp hbyte) hlt }
    have := hsame.unique hstart'
    exact ⟨by rw [hp.row, hq.row, heq], by omega⟩

end Point

end Text

/-! ## The points of a tree -/

namespace Tree

variable {l : Language} {t : Subtree} {text : List Char}

-- The rows that start no later than a byte are those up to its own.
theorem Locates.le_iff {tree : Tree} {byte : Nat} {p : Text.Point} (h : tree.Locates byte p)
    (hsorted : tree.lineStarts.Pairwise (· < ·)) {row start : Nat}
    (hrow : tree.lineStarts[row]? = some start) : start ≤ byte ↔ row ≤ p.row := by
  rw [Text.le_iff_lt_length_takeWhile hsorted hrow, ← h.row, Nat.lt_succ_iff]

/-- The point of a byte is the one that the bytes of the text give it. -/
theorem isAt_point (l : Language) (t : Subtree) (text : List Char) (byte : Nat) :
    ((Tree.ofSubtree l t text).point byte).IsAt (Text.bytes text) byte := by
  have hlocates := locates_point l t text byte
  have hsorted : (Tree.ofSubtree l t text).lineStarts.Pairwise (· < ·) :=
    Text.pairwise_lineStarts text
  constructor
  · have hrow := hlocates.row
    rw [show (Tree.ofSubtree l t text).lineStarts = Text.lineStarts text from rfl,
      Text.length_takeWhile_lineStarts] at hrow
    exact Nat.succ.inj hrow
  · obtain ⟨start, hstart, hcolumn⟩ := hlocates.column
    refine ⟨start, ⟨by omega, ?_, fun i hle hlt hi => ?_⟩, hcolumn⟩
    · rcases Text.mem_lineStarts.mp (List.mem_of_getElem? hstart) with rfl | ⟨i, hi, rfl⟩
      · exact .inl rfl
      · exact .inr hi
    · -- behind a newline a later row would start, which the byte does not come before
      obtain ⟨row, hrow⟩ := List.mem_iff_getElem?.mp (Text.mem_lineStarts.mpr (.inr ⟨i, hi, rfl⟩))
      have hup := (hlocates.le_iff hsorted hrow).mp hlt
      have hdown : i + 1 ≤ start := by
        rcases Nat.lt_or_eq_of_le hup with hrows | rfl
        · obtain ⟨hr, hrow⟩ := List.getElem?_eq_some_iff.mp hrow
          obtain ⟨hs, hstart⟩ := List.getElem?_eq_some_iff.mp hstart
          rw [← hrow, ← hstart]
          exact Nat.le_of_lt (List.pairwise_iff_getElem.mp hsorted _ _ hr hs hrows)
        · exact Nat.le_of_eq (Option.some.inj (hrow.symm.trans hstart))
      omega

/-- The points of a tree are exact: the table of line starts can be searched in halves, every byte
has the point that the bytes of the text give it, nothing is taken from less than it on the way, and
points are different and ordered as the bytes are.  So no node ends before it starts. -/
structure PlacesExactly (tree : Tree) (bytes : List UInt8) : Prop where
  sorted : tree.lineStarts.Pairwise (· < ·)
  reached : ∀ byte row start, tree.lineStarts[row]? = some start →
    (start ≤ byte ↔ row ≤ (tree.point byte).row)
  isAt : ∀ byte, (tree.point byte).IsAt bytes byte
  locates : ∀ byte, tree.Locates byte (tree.point byte)
  injective : Function.Injective tree.point
  before : ∀ byte byte', byte < byte' → (tree.point byte).Before (tree.point byte')
  node : ∀ n : Node tree, n.startPoint.le n.stopPoint = true

theorem placesExactly_ofSubtree
    (hends : ∀ n : Node (Tree.ofSubtree l t text), n.start ≤ n.stop) :
    (Tree.ofSubtree l t text).PlacesExactly (Text.bytes text) := by
  have hbefore (byte byte' : Nat) (h : byte < byte') :
      ((Tree.ofSubtree l t text).point byte).Before ((Tree.ofSubtree l t text).point byte') :=
    (isAt_point l t text byte).before (isAt_point l t text byte') h
  refine
    { sorted := Text.pairwise_lineStarts text
      reached := fun byte row start hrow =>
        (locates_point l t text byte).le_iff (Text.pairwise_lineStarts text) hrow
      isAt := isAt_point l t text
      locates := locates_point l t text
      injective := fun byte byte' heq => ?_
      before := hbefore
      node := fun n => ?_ }
  · have hnot {b b' : Nat} (heq : (Tree.ofSubtree l t text).point b =
        (Tree.ofSubtree l t text).point b') : ¬ b < b' := by
      intro hlt
      have hb := hbefore b b' hlt
      rw [heq] at hb
      exact Bool.false_ne_true (hb.2.symm.trans (Text.Point.le_refl _))
    have := hnot heq
    have := hnot heq.symm
    omega
  · rcases Nat.lt_or_eq_of_le (hends n) with hlt | heq
    · exact (hbefore _ _ hlt).1
    · rw [Node.startPoint, Node.stopPoint, heq]
      exact Text.Point.le_refl _

end Tree

/-- **Positions are exact.** -/
theorem Parser.parse_placesExactly {l : Language} (hl : l.Loadable) (parser : Parser)
    (hparser : parser.language = some l) (text : String) :
    ∃ result, parser.parse text = some result ∧
      result.tree.PlacesExactly text.toByteArray.data.toList := by
  refine ⟨l.parse parser.maxDepth text, by rw [Parser.parse, hparser]; rfl, ?_⟩
  rw [l.parse_tree, ← Text.bytes_toList]
  exact Tree.placesExactly_ofSubtree fun n => ((hl.tree_nested parser.maxDepth text).ends n).1

theorem Parser.parse_placesExactly_sums :
    ∃ result,
      ({ language := some .sums, maxDepth := 8 } : Parser).parse "1+\n\n#é 2;@+3\n" =
        some result ∧
      result.tree.PlacesExactly "1+\n\n#é 2;@+3\n".toByteArray.data.toList :=
  parse_placesExactly Language.sums_loadable { language := some .sums, maxDepth := 8 } rfl
    "1+\n\n#é 2;@+3\n"

-- On a newline, behind it, within a character and at the end of a text that ends in a newline.
example : [2, 3, 4, 6, 14].map (Text.pointAt (Text.lineStarts "1+\n\n#é 2;@+3\n".toList)) =
    [⟨0, 2⟩, ⟨1, 0⟩, ⟨2, 0⟩, ⟨2, 2⟩, ⟨3, 0⟩] := by
  decide

end GrammarKit
