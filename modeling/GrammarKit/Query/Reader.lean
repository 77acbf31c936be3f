import GrammarKit.Query.Basic
import GrammarKit.Query.Error

/-!
# Reading queries

The written form of queries: `(kind pattern …)`, `(_ pattern …)` for any named node, strings for
anonymous nodes and `[pattern …]` for alternations, each with any number of `@name` behind it.
White space and comments from `;` to the end of the line may stand between them.
-/

namespace GrammarKit

/-- A query that is being read: the text that is left, the bytes before it and the capture names
met so far. -/
structure QueryReading where
  rest : List Char
  offset : Nat := 0
  names : List String := []

/-- A character that names of kinds are made of. -/
def isKindChar (c : Char) : Bool :=
  Text.isAlphanumeric c || c == '_' || c == '-'

def isCaptureChar (c : Char) : Bool :=
  isKindChar c || c == '.'

namespace QueryReading

def peek (r : QueryReading) : Option Char :=
  r.rest.head?

/-- Passes over `n` characters. -/
def advance (r : QueryReading) (n : Nat) : QueryReading :=
  { r with rest := r.rest.drop n, offset := r.offset + Text.byteLength (r.rest.take n) }

/-- The characters up to the first for which `p` does not hold. -/
def takeWhile (r : QueryReading) (p : Char → Bool) : List Char × QueryReading :=
  let taken := r.rest.takeWhile p
  (taken, r.advance taken.length)

/-- How many characters of white space and comments a text starts with. -/
def triviaLength : (inComment : Bool) → List Char → Nat
  | _, [] => 0
  | true, c :: rest => triviaLength (c != '\n') rest + 1
  | false, c :: rest =>
    if Text.isBlank c then triviaLength false rest + 1
    else if c = ';' then triviaLength true rest + 1
    else 0

def skipTrivia (r : QueryReading) : QueryReading :=
  r.advance (triviaLength false r.rest)

/-- Refuses the query at the place that was reached. -/
def malformed {α : Type} (r : QueryReading) (fault : QueryFault) : Except QueryError α :=
  .error (.malformed r.offset fault)

/-- Refuses a part of query languages at the place that was reached. -/
def unsupported {α : Type} (r : QueryReading) (feature : QueryFeature) : Except QueryError α :=
  .error (.unsupported r.offset feature)

/-- The index of a capture name, which is new if it was not met before. -/
def captureIndex (r : QueryReading) (name : String) : Nat × QueryReading :=
  match r.names.findIdx? (· == name) with
  | some i => (i, r)
  | none => (r.names.length, { r with names := r.names ++ [name] })

end QueryReading

open QueryReading

/-- Reads the captures behind a pattern; there are no more than `count`. -/
def readCaptures : (count : Nat) → QueryReading → Except QueryError (List Nat × QueryReading)
  | 0, r => .ok ([], r)
  | count + 1, r =>
    let r := r.skipTrivia
    match r.peek with
    | some '?' => r.unsupported .quantifiers
    | some '*' => r.unsupported .quantifiers
    | some '+' => r.unsupported .quantifiers
    | some '@' =>
      let (name, r) := (r.advance 1).takeWhile isCaptureChar
      if name.isEmpty then r.malformed .expectedCaptureName
      else do
        let (index, r) := r.captureIndex (String.ofList name)
        let (captures, r) ← readCaptures count r
        return (index :: captures, r)
    | _ => .ok ([], r)

/-- What a character behind a backslash stands for in a string. -/
def unescape (c : Char) : Char :=
  if c = 'n' then '\n' else if c = 't' then '\t' else c

/-- Reads a string behind its opening quote, from byte `offset` on; `text` is what was read of it,
last character first. -/
def readString (names : List String) : (text : List Char) → (offset : Nat) → (rest : List Char) →
    Except QueryError (List Char × QueryReading)
  | _, offset, [] => .error (.malformed offset .unterminatedString)
  | text, offset, '"' :: rest => .ok (text.reverse, { rest, offset := offset + 1, names })
  | _, offset, ['\\'] => .error (.malformed (offset + 1) .unterminatedString)
  | text, offset, '\\' :: c :: rest =>
    readString names (unescape c :: text) (offset + 1 + c.utf8Size) rest
  | text, offset, c :: rest => readString names (c :: text) (offset + c.utf8Size) rest

/-- Reads a string, which stands for the anonymous kind that it spells. -/
def readLiteral (l : Language) (r : QueryReading) :
    Except QueryError (NodeTest × QueryReading) := do
  let (text, r') ← readString r.names [] (r.offset + 1) (r.rest.drop 1)
  match l.kindOfName? (String.ofList text) false with
  | some s => return (.kind s, r')
  | none => .error (.unknownKind r.offset (String.ofList text))

/-- Reads the kind behind the parenthesis that opens a pattern for a node. -/
def readTest (l : Language) (r : QueryReading) : Except QueryError (NodeTest × QueryReading) :=
  let r := r.skipTrivia
  if r.peek = some '(' then r.unsupported .groupedPatterns
  else
    match r.takeWhile isKindChar with
    | ([], r) => r.malformed .expectedKind
    | (['_'], r) => .ok (.anyNamed, r)
    | (name, r') =>
      let name := String.ofList name
      match l.kindOfName? name true with
      | some s => if l.isVisible s then .ok (.kind s, r') else .error (.unknownKind r.offset name)
      | none => .error (.unknownKind r.offset name)

/-- What a character that opens no pattern tells about the query. -/
def refuseAtom {α : Type} (r : QueryReading) : Except QueryError α :=
  match r.peek with
  | none => r.malformed .unexpectedEnd
  | some '#' => r.unsupported .predicates
  | some '.' => r.unsupported .anchors
  | some '!' => r.unsupported .negatedFields
  | some c =>
    if isKindChar c then
      if (r.takeWhile isKindChar).2.peek = some ':' then r.unsupported .fields
      else r.malformed .expectedPattern
    else r.malformed (.unexpected c)

mutual

/-- Reads a pattern with its captures.  A pattern takes at least one character, so two steps for
each character are enough. -/
def readPattern (l : Language) : (steps : Nat) → QueryReading →
    Except QueryError (QueryPattern × QueryReading)
  | 0, r => r.malformed .unexpectedEnd
  | steps + 1, r => do
    let r := r.skipTrivia
    match r.peek with
    | some '(' =>
      let (test, r) ← readTest l (r.advance 1)
      let (children, r) ← readPatterns l steps ')' .unclosedParenthesis r
      let (captures, r) ← readCaptures (r.rest.length + 1) r
      return (.node test children captures, r)
    | some '"' =>
      let (test, r) ← readLiteral l r
      let (captures, r) ← readCaptures (r.rest.length + 1) r
      return (.node test [] captures, r)
    | some '[' =>
      let (alternatives, r) ← readPatterns l steps ']' .unclosedBracket (r.advance 1)
      if alternatives.isEmpty then r.malformed .emptyAlternation
      let (captures, r) ← readCaptures (r.rest.length + 1) r
      return (.alternation alternatives captures, r)
    | _ => refuseAtom r

/-- Reads patterns up to the character that closes them. -/
def readPatterns (l : Language) : (steps : Nat) → (close : Char) → (unclosed : QueryFault) →
    QueryReading → Except QueryError (List QueryPattern × QueryReading)
  | 0, _, unclosed, r => r.malformed unclosed
  | steps + 1, close, unclosed, r =>
    let r := r.skipTrivia
    match r.peek with
    | none => r.malformed unclosed
    | some c =>
      if c = close then .ok ([], r.advance 1)
      else do
        let (pattern, r) ← readPattern l steps r
        let (patterns, r) ← readPatterns l steps close unclosed r
        return (pattern :: patterns, r)

end

/-- Reads the patterns of a whole query; there are no more than `count`. -/
def readQuery (l : Language) : (count : Nat) → QueryReading →
    Except QueryError (List QueryPattern × QueryReading)
  | 0, r => .ok ([], r)
  | count + 1, r =>
    let r := r.skipTrivia
    if r.rest.isEmpty then .ok ([], r)
    else do
      let (pattern, r) ← readPattern l (2 * r.rest.length + 2) r
      let (patterns, r) ← readQuery l count r
      return (pattern :: patterns, r)

def Query.ofText (l : Language) (text : String) : Except QueryError Query := do
  let (patterns, r) ← readQuery l (text.toList.length + 1) { rest := text.toList }
  return { patterns, captureNames := r.names }

end GrammarKit
