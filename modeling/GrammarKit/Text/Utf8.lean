/-!
# Reading UTF-8

Bytes are read as characters in the one encoding UTF-8 allows for each: no overlong forms, no
surrogates and nothing above the last code point.
-/

namespace GrammarKit.Text

/-- Why bytes are no UTF-8. -/
inductive Utf8Fault where
  /-- After `index` good bytes stand `length` bytes that begin no character. -/
  | invalid (index length : Nat)
  /-- After `index` good bytes the text ends inside a character. -/
  | incomplete (index : Nat)
deriving DecidableEq, Repr

def Utf8Fault.message : Utf8Fault → String
  | .invalid index length =>
    s!"invalid utf-8 sequence of {length} bytes from index {index}"
  | .incomplete index => s!"incomplete utf-8 byte sequence from index {index}"

def isContinuation (b : UInt8) : Bool :=
  0x80 ≤ b && b ≤ 0xBF

/-- The bytes that may follow the first byte of a character of three bytes. -/
def secondOfThree (first second : UInt8) : Bool :=
  if first = 0xE0 then 0xA0 ≤ second && second ≤ 0xBF
  else if first = 0xED then 0x80 ≤ second && second ≤ 0x9F
  else isContinuation second

/-- The bytes that may follow the first byte of a character of four bytes. -/
def secondOfFour (first second : UInt8) : Bool :=
  if first = 0xF0 then 0x90 ≤ second && second ≤ 0xBF
  else if first = 0xF4 then 0x80 ≤ second && second ≤ 0x8F
  else isContinuation second

def payload (b : UInt8) : Nat :=
  b.toNat % 64

/-- The characters that the bytes spell; `index` bytes were read before. -/
def decodeFrom (index : Nat) : List UInt8 → Except Utf8Fault (List Char)
  | [] => .ok []
  | a :: rest =>
    if a < 0x80 then return Char.ofNat a.toNat :: (← decodeFrom (index + 1) rest)
    else if 0xC2 ≤ a && a ≤ 0xDF then
      match rest with
      | [] => .error (.incomplete index)
      | b :: rest =>
        if isContinuation b then
          return Char.ofNat (a.toNat % 32 * 64 + payload b) :: (← decodeFrom (index + 2) rest)
        else .error (.invalid index 1)
    else if 0xE0 ≤ a && a ≤ 0xEF then
      match rest with
      | [] => .error (.incomplete index)
      | b :: rest =>
        if secondOfThree a b then
          match rest with
          | [] => .error (.incomplete index)
          | c :: rest =>
            if isContinuation c then
              return Char.ofNat (a.toNat % 16 * 4096 + payload b * 64 + payload c) ::
                (← decodeFrom (index + 3) rest)
            else .error (.invalid index 2)
        else .error (.invalid index 1)
    else if 0xF0 ≤ a && a ≤ 0xF4 then
      match rest with
      | [] => .error (.incomplete index)
      | b :: rest =>
        if secondOfFour a b then
          match rest with
          | [] => .error (.incomplete index)
          | c :: rest =>
            if isContinuation c then
              match rest with
              | [] => .error (.incomplete index)
              | d :: rest =>
                if isContinuation d then
                  return Char.ofNat
                      (a.toNat % 8 * 262144 + payload b * 4096 + payload c * 64 + payload d) ::
                    (← decodeFrom (index + 4) rest)
                else .error (.invalid index 3)
            else .error (.invalid index 2)
        else .error (.invalid index 1)
    else .error (.invalid index 1)

def decode (bytes : List UInt8) : Except Utf8Fault String :=
  return String.ofList (← decodeFrom 0 bytes)

def byteLength : List Char → Nat
  | [] => 0
  | c :: cs => c.utf8Size + byteLength cs

@[simp] theorem byteLength_nil : byteLength [] = 0 := rfl

@[simp] theorem byteLength_cons (c : Char) (cs : List Char) :
    byteLength (c :: cs) = c.utf8Size + byteLength cs := rfl

@[simp] theorem byteLength_append (cs ds : List Char) :
    byteLength (cs ++ ds) = byteLength cs + byteLength ds := by
  induction cs with
  | nil => simp
  | cons c cs ih => simp [ih, Nat.add_assoc]

/-- The bytes of a string are those of its characters. -/
theorem byteLength_toList (s : String) : byteLength s.toList = s.utf8ByteSize := by
  have ofList (cs : List Char) : byteLength cs = (String.ofList cs).utf8ByteSize := by
    induction cs with
    | nil => simp
    | cons c cs ih =>
      rw [byteLength_cons, ih, String.ofList_cons, String.utf8ByteSize_append,
        String.utf8ByteSize_singleton]
  rw [ofList, String.ofList_toList]

end GrammarKit.Text
