import GrammarKit.Text.Hexadecimal
import GrammarKit.Toml.Basic

/-!
# Reading TOML

Each reader takes what it reads from the start of a text and answers it with the rest, or answers
nothing if the text does not start that way.  Fractions, truth values and dates are not read.
-/

namespace GrammarKit.Toml

/-- A control character other than the tab; it stands in no document except to end a line. -/
def isControl (c : Char) : Bool :=
  (c.toNat < 0x20 && c != '\t') || c.toNat == 0x7F

def skipSpaces (text : List Char) : List Char :=
  text.dropWhile fun c => c == ' ' || c == '\t'

/-- The text behind spaces, tabs, line ends and comments. -/
def skipGap : (inComment : Bool) → List Char → List Char
  | _, [] => []
  | _, '\n' :: rest => skipGap false rest
  | _, '\r' :: '\n' :: rest => skipGap false rest
  | true, c :: rest => if isControl c then c :: rest else skipGap true rest
  | false, c :: rest =>
    if c = ' ' || c = '\t' then skipGap false rest
    else if c = '#' then skipGap true rest
    else c :: rest

/-! ## Strings -/

def readEscape : List Char → Option (Char × List Char)
  | 'b' :: rest => some ('\x08', rest)
  | 't' :: rest => some ('\t', rest)
  | 'n' :: rest => some ('\n', rest)
  | 'f' :: rest => some ('\x0c', rest)
  | 'r' :: rest => some ('\r', rest)
  | 'e' :: rest => some ('\x1b', rest)
  | '"' :: rest => some ('"', rest)
  | '\\' :: rest => some ('\\', rest)
  | 'x' :: rest => readCodePoint 2 rest
  | 'u' :: rest => readCodePoint 4 rest
  | 'U' :: rest => readCodePoint 8 rest
  | _ => none
where
  /-- Reads a code point of so many hexadecimal digits. -/
  readCodePoint (width : Nat) (text : List Char) : Option (Char × List Char) := do
    let digits := text.take width
    if digits.length < width then none
    return (← Text.codePoint (← Text.hexNumber digits), text.drop width)

/-- Reads a string in one line behind its opening quote; `done` is what was read of it, last
character first.  There are at most `turns` characters. -/
def readLineString (quote : Char) : (turns : Nat) → (done text : List Char) →
    Option (String × List Char)
  | 0, _, _ => none
  | _, _, [] => none
  | turns + 1, done, c :: rest =>
    if c = quote then some (String.ofList done.reverse, rest)
    else if isControl c then none
    else if c = '\\' && quote = '"' then do
      let (c, rest) ← readEscape rest
      readLineString quote turns (c :: done) rest
    else readLineString quote turns (c :: done) rest

/-- Reads a string of several lines behind its three opening quotes.  Three quotes end it; up to
two more of them still belong to it.  Behind a backslash at the end of a line all white space is
left out. -/
def readBlockString (quote : Char) : (turns : Nat) → (done text : List Char) →
    Option (String × List Char)
  | 0, _, _ => none
  | _, _, [] => none
  | turns + 1, done, c :: rest =>
    if c = quote then
      let quotes := (c :: rest).takeWhile (· == quote)
      if quotes.length < 3 then readBlockString quote turns (c :: done) rest
      else if 5 < quotes.length then none
      else
        let kept := List.replicate (quotes.length - 3) quote
        some (String.ofList (done.reverse ++ kept), (c :: rest).drop quotes.length)
    else if c = '\n' then readBlockString quote turns ('\n' :: done) rest
    else if c = '\r' then
      if rest.head? = some '\n' then readBlockString quote turns done rest else none
    else if isControl c then none
    else if c = '\\' && quote = '"' then
      if (skipSpaces rest).head? = some '\n' || (skipSpaces rest).head? = some '\r' then
        readBlockString quote turns done
          (rest.dropWhile fun c => c == ' ' || c == '\t' || c == '\n' || c == '\r')
      else do
        let (c, rest) ← readEscape rest
        readBlockString quote turns (c :: done) rest
    else readBlockString quote turns (c :: done) rest

/-- The text behind a line end that it starts with. -/
def dropLineEnd : List Char → List Char
  | '\n' :: rest => rest
  | '\r' :: '\n' :: rest => rest
  | text => text

def readString (quote : Char) (text : List Char) : Option (String × List Char) :=
  if [quote, quote].isPrefixOf text then
    readBlockString quote text.length [] (dropLineEnd (text.drop 2))
  else readLineString quote text.length [] text

/-! ## Keys and numbers -/

def isBareKeyChar (c : Char) : Bool :=
  c.isAlphanum || c == '_' || c == '-'

def readName (text : List Char) : Option (String × List Char) :=
  match text with
  | '"' :: rest => readLineString '"' rest.length [] rest
  | '\'' :: rest => readLineString '\'' rest.length [] rest
  | _ =>
    let name := text.takeWhile isBareKeyChar
    if name.isEmpty then none else some (String.ofList name, text.drop name.length)

/-- Reads a key of at most `turns` names. -/
def readKey : (turns : Nat) → List Char → Option (KeyPath × List Char)
  | 0, _ => none
  | turns + 1, text => do
    let (name, rest) ← readName text
    match skipSpaces rest with
    | '.' :: rest =>
      let (names, rest) ← readKey turns (skipSpaces rest)
      return (name :: names, rest)
    | rest => return ([name], rest)

/-- The number that digits spell behind digits for `n`.  A single underscore may stand between two
digits. -/
def digitsValue (base n : Nat) : List Char → Option Nat
  | [] => some n
  | '_' :: c :: rest => do
    let d ← Text.hexValue c
    if d < base then digitsValue base (n * base + d) rest else none
  | c :: rest => do
    let d ← Text.hexValue c
    if d < base then digitsValue base (n * base + d) rest else none

def digits? (base : Nat) (digits : List Char) : Option Nat :=
  if digits.isEmpty || digits.head? == some '_' then none else digitsValue base 0 digits

/-- The number that decimal digits spell; there is no zero before other digits. -/
def decimal? (digits : List Char) : Option Int :=
  if 1 < digits.length && digits.head? == some '0' then none
  else (digits? 10 digits).map Int.ofNat

def integer? : List Char → Option Int
  | '0' :: 'x' :: digits => (digits? 16 digits).map Int.ofNat
  | '0' :: 'o' :: digits => (digits? 8 digits).map Int.ofNat
  | '0' :: 'b' :: digits => (digits? 2 digits).map Int.ofNat
  | '+' :: digits => decimal? digits
  | '-' :: digits => (decimal? digits).map (- ·)
  | digits => decimal? digits

def isNumberChar (c : Char) : Bool :=
  c.isAlphanum || c == '_' || c == '+' || c == '-' || c == '.' || c == ':'

def readInteger (text : List Char) : Option (Int × List Char) := do
  let word := text.takeWhile isNumberChar
  return (← integer? word, text.drop word.length)

/-! ## Values and documents -/

mutual

/-- Reads a value.  Values are nested less than `turns` deep. -/
def readValue : (turns : Nat) → List Char → Option (Value × List Char)
  | 0, _ => none
  | turns + 1, text =>
    match text with
    | '"' :: rest => (readString '"' rest).map fun (s, rest) => (.text s, rest)
    | '\'' :: rest => (readString '\'' rest).map fun (s, rest) => (.text s, rest)
    | '[' :: rest => (readElements turns rest).map fun (items, rest) => (.array items, rest)
    | '\x7b' :: rest => (readEntries turns rest).map fun (entries, rest) => (.table entries, rest)
    | text => (readInteger text).map fun (n, rest) => (.integer n, rest)

/-- Reads the elements of an array and the bracket that closes it. -/
def readElements : (turns : Nat) → List Char → Option (List Value × List Char)
  | 0, _ => none
  | turns + 1, text =>
    match skipGap false text with
    | ']' :: rest => some ([], rest)
    | text => do
      let (item, rest) ← readValue turns text
      match skipGap false rest with
      | ',' :: rest =>
        let (items, rest) ← readElements turns rest
        return (item :: items, rest)
      | ']' :: rest => return ([item], rest)
      | _ => none

/-- Reads the entries of a table and the brace that closes it. -/
def readEntries : (turns : Nat) → List Char → Option (List (KeyPath × Value) × List Char)
  | 0, _ => none
  | turns + 1, text =>
    match skipGap false text with
    | '\x7d' :: rest => some ([], rest)
    | text => do
      let (entry, rest) ← readEntry turns text
      match skipGap false rest with
      | ',' :: rest =>
        let (entries, rest) ← readEntries turns rest
        return (entry :: entries, rest)
      | '\x7d' :: rest => return ([entry], rest)
      | _ => none

def readEntry : (turns : Nat) → List Char → Option ((KeyPath × Value) × List Char)
  | 0, _ => none
  | turns + 1, text => do
    let (key, rest) ← readKey text.length text
    match rest with
    | '=' :: rest =>
      let (value, rest) ← readValue turns (skipSpaces rest)
      return ((key, value), rest)
    | _ => none

end

def readItem (text : List Char) : Option (Item × List Char) :=
  match text with
  | '[' :: '[' :: rest => do
    match ← readKey rest.length (skipSpaces rest) with
    | (key, ']' :: ']' :: rest) => return (.elementHeader key, rest)
    | _ => none
  | '[' :: rest => do
    match ← readKey rest.length (skipSpaces rest) with
    | (key, ']' :: rest) => return (.header key, rest)
    | _ => none
  | text => do
    let ((key, value), rest) ← readEntry (text.length + 1) text
    return (.assignment key value, rest)

/-- Whether the line has nothing more on it but a comment. -/
def isLineEnd (text : List Char) : Bool :=
  match skipSpaces text with
  | [] => true
  | '#' :: _ => true
  | '\n' :: _ => true
  | '\r' :: '\n' :: _ => true
  | _ => false

/-- Reads at most `turns` items. -/
def readItems : (turns : Nat) → List Char → Option (List Item)
  | 0, _ => none
  | turns + 1, text =>
    match skipGap false text with
    | [] => some []
    | text => do
      let (item, rest) ← readItem text
      if isLineEnd rest then return item :: (← readItems turns rest) else none

/-- The items of a document, if the text is one.  A byte order mark may stand before it. -/
def itemsOfText? (text : String) : Option (List Item) :=
  match text.toList with
  | '\ufeff' :: text => readItems (text.length + 1) text
  | text => readItems (text.length + 1) text

end GrammarKit.Toml
