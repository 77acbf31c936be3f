/-!
# TOML documents

A document gives values to keys.  Headers `[a.b]` say to which table the keys behind them belong.
Only the values that settings are made of are kept: texts, whole numbers, arrays and tables.
-/

namespace GrammarKit.Toml

abbrev KeyPath := List String

inductive Value where
  | text (s : String)
  | integer (n : Int)
  | array (items : List Value)
  | table (entries : List (KeyPath × Value))

inductive Item where
  /-- The keys behind the header belong to this table. -/
  | header (table : KeyPath)
  /-- The table behind the header is one more element of this array. -/
  | elementHeader (array : KeyPath)
  | assignment (key : KeyPath) (value : Value)

end GrammarKit.Toml
