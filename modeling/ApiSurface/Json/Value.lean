/-!
JSON values made of strings, arrays and objects, and their text. One writer serves both layouts: they
differ in what separates a name from its value and in how the lines are broken.
-/

namespace ApiSurface

/-- A JSON value of strings, arrays and objects. -/
inductive Json where
  | string (text : String)
  | array (items : List Json)
  | object (fields : List (String × Json))
deriving Inhabited

namespace Json

/-- How values are laid out. -/
structure Style where
  /-- What stands before an item or a closing bracket at the given depth. -/
  lineBreak : Nat → List Char
  /-- What stands between the name of a field and its value. -/
  colon : List Char

/-- Everything on one line, without blanks. -/
def compact : Style where
  lineBreak _ := []
  colon := [':']

/-- Each item on a line of its own, two spaces deeper than its container. -/
def pretty : Style where
  lineBreak depth := '\n' :: List.replicate (2 * depth) ' '
  colon := [':', ' ']

/-- A hexadecimal digit. -/
def hexDigit (n : Nat) : Char := n.digitChar

/-- A character inside a string: quotes, backslashes and control characters are escaped, all others
stand for themselves. -/
def escape (c : Char) : List Char :=
  if c = '"' then ['\\', '"']
  else if c = '\\' then ['\\', '\\']
  else if c = '\n' then ['\\', 'n']
  else if c = '\r' then ['\\', 'r']
  else if c = '\t' then ['\\', 't']
  else if c = '\x08' then ['\\', 'b']
  else if c = '\x0c' then ['\\', 'f']
  else if c.toNat < 0x20 then
    ['\\', 'u', '0', '0', hexDigit (c.toNat / 16), hexDigit (c.toNat % 16)]
  else [c]

/-- A string in quotes. -/
def quote (text : String) : List Char :=
  '"' :: (text.toList.flatMap escape ++ ['"'])

mutual

/-- The text of a value whose container has the given depth. -/
def write (style : Style) (depth : Nat) : Json → List Char
  | string text => quote text
  | array [] => ['[', ']']
  | array (item :: items) =>
    '[' :: (style.lineBreak (depth + 1) ++ write style (depth + 1) item ++
      writeItems style (depth + 1) items ++ style.lineBreak depth ++ [']'])
  | object [] => ['\x7b', '\x7d']
  | object (field :: fields) =>
    '\x7b' :: (style.lineBreak (depth + 1) ++ writeField style (depth + 1) field ++
      writeFields style (depth + 1) fields ++ style.lineBreak depth ++ ['\x7d'])

/-- The items of an array after the first. -/
def writeItems (style : Style) (depth : Nat) : List Json → List Char
  | [] => []
  | item :: items =>
    ',' :: (style.lineBreak depth ++ write style depth item ++ writeItems style depth items)

/-- A field of an object. -/
def writeField (style : Style) (depth : Nat) : String × Json → List Char
  | (name, value) => quote name ++ style.colon ++ write style depth value

/-- The fields of an object after the first. -/
def writeFields (style : Style) (depth : Nat) : List (String × Json) → List Char
  | [] => []
  | field :: fields =>
    ',' :: (style.lineBreak depth ++ writeField style depth field ++
      writeFields style depth fields)

end

/-- The text of a value. -/
def render (style : Style) (value : Json) : String :=
  String.ofList (value.write style 0)

end Json

end ApiSurface
