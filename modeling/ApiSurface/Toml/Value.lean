import ApiSurface.Double.Shortest
import ApiSurface.Mismatch

/-! TOML values and tables. Each value and key knows the part of the text that it was read from. -/

namespace ApiSurface.Toml

/-- A part of a text, by the numbers of characters that are left at its start and at its end. -/
structure Span where
  start : Nat
  stop : Nat
deriving DecidableEq, Repr

/-- A value on the right of an equals sign or in an array. -/
inductive Value where
  | string (text : String)
  | integer (value : Int)
  | floating (value : Double)
  | boolean (value : Bool)
  /-- A date, a time or both. -/
  | date
  | array (items : List (Value × Span))
  /-- A table in braces, by the dotted names of its entries. -/
  | table (entries : List (List String × Value))

/-- A part of a dotted key. -/
structure Key where
  name : String
  span : Span
deriving DecidableEq

/-- How a table came about. -/
inductive TableKind where
  /-- By a header of its own, or as the whole document. -/
  | explicit
  /-- By the header of a table below it. -/
  | implied
  /-- By a dotted key. -/
  | dotted
deriving DecidableEq

/-- An entry of a table. -/
inductive Item where
  | value (value : Value) (span : Span)
  | table (kind : TableKind) (span : Option Span) (entries : List (Key × Item))
  /-- Tables with doubled headers, in an array, which is never empty. -/
  | tables (earlier : List (Span × List (Key × Item))) (last : Span × List (Key × Item))

/-- The entries of a table, in the order in which they were made. -/
abbrev Entries : Type := List (Key × Item)

namespace Value

/-- What the value is, for messages. -/
def found : Value → Found
  | string text => .string text
  | integer value => .integer value
  | floating value => .floating value.positional
  | boolean value => .boolean value
  | date => .map
  | array _ => .sequence
  | table _ => .map

end Value

namespace Item

/-- What the entry is, for messages. -/
def found : Item → Found
  | value v _ => v.found
  | table .. => .map
  | tables .. => .sequence

/-- The text of the entry: a value, or the header of a table with what it holds. A table without a
header has none. -/
def span? : Item → Option Span
  | value _ s => some s
  | table _ s _ => s
  | tables earlier last => some ⟨(earlier.head?.getD last).1.start, last.1.stop⟩

end Item

end ApiSurface.Toml
