import GrammarKit.Text.Hexadecimal
import GrammarKit.Text.Unshown

/-!
# Quoted text

Text inside a message stands between quotes: the quote itself, the backslash and every character
that would not be seen are spelled as escapes.
-/

namespace GrammarKit.Text

/-- One character of a text that stands between two marks `quote`. -/
def escapeChar (quote c : Char) : List Char :=
  if c = '\x00' then ['\\', '0']
  else if c = '\t' then ['\\', 't']
  else if c = '\r' then ['\\', 'r']
  else if c = '\n' then ['\\', 'n']
  else if c = '\\' then ['\\', '\\']
  else if c = quote then ['\\', quote]
  else if isUnshown c then '\\' :: 'u' :: '\x7b' :: hexDigits c.toNat ++ ['\x7d']
  else [c]

def quote (s : String) : String :=
  String.ofList ('"' :: s.toList.flatMap (escapeChar '"') ++ ['"'])

def quoteChar (c : Char) : String :=
  String.ofList ('\'' :: escapeChar '\'' c ++ ['\''])

end GrammarKit.Text
