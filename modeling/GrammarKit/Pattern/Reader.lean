import GrammarKit.Pattern.Basic
import GrammarKit.Text.Hexadecimal

/-!
# Reading patterns

The written form of patterns: alternatives `a|b`, repetitions `* + ? {m} {m,} {m,n}` with a `?`
behind them when they are lazy, groups `(a)` and `(?:a)`, the setting `(?i)` for the rest of a
group, character classes, escapes and the assertions `^ $ \b \B`.  There is no pattern for a text
in any other form, so none with names for groups, with other settings, or with classes and operators
within classes.  Neither size nor depth is limited.
-/

namespace GrammarKit.Pattern

/-- A code point written with `width` hexadecimal digits, or with any number of them in braces. -/
def readCodePoint (width : Nat) : List Char → Option (Char × List Char)
  | '\x7b' :: text =>
    match text.dropWhile (· != '\x7d') with
    | '\x7d' :: rest => do
      let n ← Text.hexNumber (text.takeWhile (· != '\x7d'))
      return (← Text.codePoint n, rest)
    | _ => none
  | text => do
    let digits := text.take width
    if digits.length < width then none
    let n ← Text.hexNumber digits
    return (← Text.codePoint n, text.drop width)

def propertyOfName (name : List Char) : Option CharProperty :=
  if name = ['X', 'I', 'D', '_', 'S', 't', 'a', 'r', 't'] then some .xidStart
  else if name = ['X', 'I', 'D', '_', 'C', 'o', 'n', 't', 'i', 'n', 'u', 'e'] then
    some .xidContinue
  else none

inductive Escape where
  | char (c : Char)
  | property (property : CharProperty) (absent : Bool)
  | assertion (condition : Assertion)

def readEscape : List Char → Option (Escape × List Char)
  | [] => none
  | 'd' :: rest => some (.property .digit false, rest)
  | 'D' :: rest => some (.property .digit true, rest)
  | 'w' :: rest => some (.property .word false, rest)
  | 'W' :: rest => some (.property .word true, rest)
  | 's' :: rest => some (.property .space false, rest)
  | 'S' :: rest => some (.property .space true, rest)
  | 'p' :: '\x7b' :: rest => named false rest
  | 'P' :: '\x7b' :: rest => named true rest
  | 'b' :: rest => some (.assertion .wordBoundary, rest)
  | 'B' :: rest => some (.assertion .noWordBoundary, rest)
  | 'A' :: rest => some (.assertion .textStart, rest)
  | 'z' :: rest => some (.assertion .textEnd, rest)
  | 'n' :: rest => some (.char '\n', rest)
  | 't' :: rest => some (.char '\t', rest)
  | 'r' :: rest => some (.char '\r', rest)
  | 'f' :: rest => some (.char '\x0c', rest)
  | 'v' :: rest => some (.char '\x0b', rest)
  | 'a' :: rest => some (.char '\x07', rest)
  | 'x' :: rest => code 2 rest
  | 'u' :: rest => code 4 rest
  | 'U' :: rest => code 8 rest
  | c :: rest =>
    if c.toNat < 0x80 && !c.isAlphanum && c != '<' && c != '>' then some (.char c, rest) else none
where
  /-- A property whose name ends at the next closing brace. -/
  named (absent : Bool) (text : List Char) : Option (Escape × List Char) :=
    match text.dropWhile (· != '\x7d') with
    | '\x7d' :: rest => do
      let p ← propertyOfName (text.takeWhile (· != '\x7d'))
      return (.property p absent, rest)
    | _ => none
  code (width : Nat) (text : List Char) : Option (Escape × List Char) := do
    let (c, rest) ← readCodePoint width text
    return (.char c, rest)

/-- Reads one member of a class up to the dash of a range: a character or a property.  Two signs
of an operator on classes are none. -/
def readClassAtom : List Char → Option (Escape × List Char)
  | '\\' :: rest =>
    match readEscape rest with
    | some (.assertion _, _) => none
    | atom => atom
  | '[' :: _ => none
  | '&' :: '&' :: _ => none
  | '~' :: '~' :: _ => none
  | '-' :: '-' :: _ => none
  | c :: rest => some (.char c, rest)
  | [] => none

/-- Reads the members of a class up to its closing bracket, the last one first. -/
def readClassItems : (fuel : Nat) → List ClassItem → List Char →
    Option (List ClassItem × List Char)
  | 0, _, _ => none
  | _ + 1, items, ']' :: rest => some (items, rest)
  | fuel + 1, items, text => do
    match ← readClassAtom text with
    | (.char first, '-' :: ']' :: rest) =>
      readClassItems fuel (.range first first :: items) ('-' :: ']' :: rest)
    | (.char _, '-' :: '-' :: _) => none
    | (.char first, '-' :: rest) =>
      match ← readClassAtom rest with
      | (.char last, rest) =>
        if first ≤ last then readClassItems fuel (.range first last :: items) rest else none
      | _ => none
    | (.char c, rest) => readClassItems fuel (.range c c :: items) rest
    | (.property p absent, '-' :: ']' :: rest) =>
      readClassItems fuel (.property p absent :: items) ('-' :: ']' :: rest)
    | (.property _ _, '-' :: _) => none
    | (.property p absent, rest) => readClassItems fuel (.property p absent :: items) rest
    | (.assertion _, _) => none

/-- Reads a class after its opening bracket.  A closing bracket that comes first is a member, and
so are the dashes before any other member. -/
def readClass (anyCase : Bool) (text : List Char) : Option (CharClass × List Char) := do
  let (negated, text) := match text with
    | '^' :: rest => (true, rest)
    | _ => (false, text)
  let dashes := text.takeWhile (· == '-')
  let text := text.dropWhile (· == '-')
  let items := dashes.map fun c => ClassItem.range c c
  let (items, text) := match text, items with
    | ']' :: rest, [] => ([ClassItem.range ']' ']'], rest)
    | _, _ => (items, text)
  let (items, rest) ← readClassItems (text.length + 1) items text
  return ({ items, negated, anyCase }, rest)

/-- Reads a decimal number with white space around it. -/
def readCount (text : List Char) : Option (Nat × List Char) :=
  let text := Text.trimStart text
  match text.takeWhile Char.isDigit with
  | [] => none
  | digits =>
    some (digits.foldl (fun n c => n * 10 + (c.toNat - '0'.toNat)) 0,
      Text.trimStart (text.dropWhile Char.isDigit))

/-- Reads the bounds of a repetition after the opening brace. -/
def readBounds (text : List Char) : Option (Nat × Option Nat × List Char) := do
  match ← readCount text with
  | (least, '\x7d' :: rest) => return (least, some least, rest)
  | (least, ',' :: '\x7d' :: rest) => return (least, none, rest)
  | (least, ',' :: rest) =>
    match ← readCount rest with
    | (most, '\x7d' :: rest) => if least ≤ most then return (least, some most, rest) else none
    | _ => none
  | _ => none

/-- Whether a repetition is greedy, and what follows its mark of laziness if it has one. -/
def readGreed : List Char → Bool × List Char
  | '?' :: rest => (false, rest)
  | rest => (true, rest)

def isRepetition (c : Char) : Bool :=
  c == '*' || c == '+' || c == '?' || c == '\x7b'

/-- The repetition of `p` that the character `operator` and the text after it ask for. -/
def readRepetition (p : Pattern) (operator : Char) (text : List Char) :
    Option (Pattern × List Char) := do
  let (least, most, text) ←
    if operator = '*' then some (0, none, text)
    else if operator = '+' then some (1, none, text)
    else if operator = '?' then some (0, some 1, text)
    else readBounds text
  let (greedy, rest) := readGreed text
  return (p.bounded least most greedy, rest)

/-- What a group has been read to so far. -/
structure Reading where
  /-- The alternatives before the current one, the last first. -/
  done : List Pattern := []
  /-- The parts of the current alternative, the last first. -/
  parts : List Pattern := []
  /-- Whether the last part was a setting, which cannot be repeated. -/
  afterSetting : Bool := false
  anyCase : Bool := false

namespace Reading

def alternatives (r : Reading) : List Pattern :=
  concat r.parts.reverse :: r.done

def pattern (r : Reading) : Pattern :=
  choose r.alternatives.reverse

def push (r : Reading) (p : Pattern) : Reading :=
  { r with parts := p :: r.parts, afterSetting := false }

end Reading

inductive GroupStart where
  /-- A group of its own, with or without regard to case. -/
  | nested (anyCase : Bool)
  /-- A setting for what is left of the group around it. -/
  | setting (anyCase : Bool)

def readGroupStart (anyCase : Bool) : List Char → Option (GroupStart × List Char)
  | '?' :: ':' :: rest => some (.nested anyCase, rest)
  | '?' :: 'i' :: ')' :: rest => some (.setting true, rest)
  | '?' :: 'i' :: ':' :: rest => some (.nested true, rest)
  | '?' :: '-' :: 'i' :: ')' :: rest => some (.setting false, rest)
  | '?' :: '-' :: 'i' :: ':' :: rest => some (.nested false, rest)
  | '?' :: _ => none
  | rest => some (.nested anyCase, rest)

/-- The part that a character which is no operator stands for, with what follows it. -/
def readAtom (anyCase : Bool) : List Char → Option (Pattern × List Char)
  | '.' :: rest => some (.chars .exceptNewline, rest)
  | '^' :: rest => some (.assertion .textStart, rest)
  | '$' :: rest => some (.assertion .textEnd, rest)
  | '[' :: rest => do
    let (set, rest) ← readClass anyCase rest
    return (.chars set, rest)
  | '\\' :: rest => do
    match ← readEscape rest with
    | (.char c, rest) => return (.chars (.single c anyCase), rest)
    | (.property p absent, rest) =>
      return (.chars { items := [.property p absent], anyCase }, rest)
    | (.assertion a, rest) => return (.assertion a, rest)
  | c :: rest => some (.chars (.single c anyCase), rest)
  | [] => none

/-- Reads a group up to the parenthesis that closes it, or, when `nested` is false, up to the end
of the text.  Every turn takes at least one character, so a step for each is enough. -/
def readGroup : (steps : Nat) → (nested : Bool) → Reading → List Char →
    Option (Pattern × List Char)
  | 0, _, _, _ => none
  | _ + 1, nested, r, [] => if nested then none else some (r.pattern, [])
  | steps + 1, nested, r, c :: text =>
    if c = ')' then
      if nested then some (r.pattern, text) else none
    else if c = '|' then
      readGroup steps nested
        { r with done := r.alternatives, parts := [], afterSetting := false } text
    else if c = '(' then do
      match ← readGroupStart r.anyCase text with
      | (.setting anyCase, rest) =>
        readGroup steps nested { r with anyCase, afterSetting := true } rest
      | (.nested anyCase, rest) =>
        let (p, rest) ← readGroup steps true { anyCase } rest
        readGroup steps nested (r.push p) rest
    else if isRepetition c then
      match r.parts with
      | [] => none
      | p :: parts =>
        if r.afterSetting then none
        else do
          let (p, rest) ← readRepetition p c text
          readGroup steps nested { r with parts := p :: parts } rest
    else do
      let (p, rest) ← readAtom r.anyCase (c :: text)
      readGroup steps nested (r.push p) rest

def ofText? (text : List Char) : Option Pattern := do
  let (p, _) ← readGroup (text.length + 1) false {} text
  return p

end GrammarKit.Pattern
