import GrammarKit.Log
import GrammarKit.Query.Reader

/-!
# Highlighting

The captures of a query cut a text into spans with a highlight each.  A capture within another
overrides it on its own bytes; of captures of the same bytes the one of the earliest pattern counts.
-/

namespace GrammarKit

/-- A stretch of the text with the highlight that it has: the index of a capture name. -/
structure Span where
  start : Nat
  stop : Nat
  highlight : Nat
deriving DecidableEq, Repr

namespace Span

def isEmpty (s : Span) : Bool :=
  s.stop ≤ s.start

end Span

/-- A byte of the text as spans count it, in 32 bits. -/
def spanOffset (byte : Nat) : Nat :=
  byte.toUInt32.toNat

/-- The bytes of a captured node, the pattern that captured it and the highlight that the capture
stands for. -/
structure CapturedRange where
  start : Nat
  stop : Nat
  pattern : Nat
  highlight : Nat
deriving DecidableEq, Repr

namespace CapturedRange

/-- Ranges that start earlier come first, then those that stop later, then those of earlier
patterns. -/
def le (a b : CapturedRange) : Bool :=
  a.start < b.start ||
    (a.start == b.start && (b.stop < a.stop || (a.stop == b.stop && a.pattern ≤ b.pattern)))

def sameBytes (a b : CapturedRange) : Bool :=
  a.start == b.start && a.stop == b.stop

/-- The ranges without those that have the same bytes as the one before them. -/
def distinct : List CapturedRange → List CapturedRange
  | [] => []
  | a :: rest =>
    match distinct rest with
    | [] => [a]
    | b :: others => if a.sameBytes b then a :: others else a :: b :: others

end CapturedRange

/-- Spans that are being laid out: those that are done, the last one first, the ranges that are
open, the innermost first, and the byte up to which the text is done. -/
structure Layout where
  spans : List Span := []
  opened : List (Nat × Nat) := []
  done : Nat := 0

namespace Layout

/-- Gives the bytes up to `stop` a highlight; they join a span before them that has the same. -/
def push (layout : Layout) (stop highlight : Nat) : Layout :=
  if layout.done < stop then
    match layout.spans with
    | last :: others =>
      if last.highlight = highlight ∧ last.stop = layout.done then
        { layout with spans := { last with stop } :: others, done := stop }
      else
        { layout with spans := ⟨layout.done, stop, highlight⟩ :: last :: others, done := stop }
    | [] => { layout with spans := [⟨layout.done, stop, highlight⟩], done := stop }
  else { layout with done := stop }

/-- Closes the open ranges, the innermost first, that stop by the byte `place`. -/
def closeBy (place : Nat) : List (Nat × Nat) → Layout → Layout
  | [], layout => { layout with opened := [] }
  | (stop, highlight) :: outer, layout =>
    if stop ≤ place then closeBy place outer (layout.push stop highlight)
    else { layout with opened := (stop, highlight) :: outer }

def closeAll : List (Nat × Nat) → Layout → Layout
  | [], layout => { layout with opened := [] }
  | (stop, highlight) :: outer, layout => closeAll outer (layout.push stop highlight)

/-- Opens a range that starts no earlier than those before it.  It stops with the range around it
at the latest. -/
def enter (layout : Layout) (range : CapturedRange) : Layout :=
  let layout := closeBy range.start layout.opened layout
  match layout.opened with
  | [] => { layout with opened := [(range.stop, range.highlight)], done := range.start }
  | (stop, highlight) :: outer =>
    let layout := layout.push range.start highlight
    { layout with
      opened := (min range.stop stop, range.highlight) :: (stop, highlight) :: outer
      done := range.start }

def ofRanges (ranges : List CapturedRange) : List Span :=
  let layout := ranges.foldl enter {}
  (closeAll layout.opened layout).spans.reverse

end Layout

/-- A span in words: its bytes, the name of its highlight and its text. -/
structure HighlightedText where
  start : Nat
  stop : Nat
  name : String
  text : String
deriving DecidableEq, Repr

/-- A query for highlighting the trees of a language. -/
structure Highlighter where
  language : Language
  query : Query

namespace Highlighter

def ofText (l : Language) (text : String) : Except QueryError Highlighter :=
  return { language := l, query := ← Query.ofText l text }

def names (h : Highlighter) : List String :=
  h.query.captureNames

/-- What the query captures in a tree, without the nodes that have no byte. -/
def ranges (h : Highlighter) (tree : Tree) : List CapturedRange :=
  ((h.query.run tree.root).flatMap fun m =>
    m.captures.map fun c =>
      ⟨spanOffset c.node.start, spanOffset c.node.stop, m.patternIndex, c.index⟩).filter
      fun r => r.start < r.stop

/-- The spans of a tree in the order of the text.  A tree of another language has none. -/
def spans (h : Highlighter) (tree : Tree) : List Span :=
  if tree.language.sameAs h.language then
    Layout.ofRanges (CapturedRange.distinct ((h.ranges tree).mergeSort CapturedRange.le))
  else []

def events (h : Highlighter) (tree : Tree) : List Event :=
  if tree.language.sameAs h.language then []
  else [.languagesDiffer h.language.name tree.language.name]

/-- The spans of a tree in words; `source` is the text of the tree. -/
def report (h : Highlighter) (source : String) (tree : Tree) : List HighlightedText :=
  (h.spans tree).map fun s =>
    { start := s.start
      stop := s.stop
      name := h.query.captureName s.highlight
      text := String.ofList (Text.slice source.toList s.start s.stop) }

end Highlighter

end GrammarKit
