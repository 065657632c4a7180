import ApiSurface.Mismatch

/-! Why a text is not the JSON that was asked for, and where reading stopped. -/

namespace ApiSurface.Json

/-- The kinds of faults. -/
inductive Category where
  /-- The text ends too early. -/
  | truncated
  /-- The text is not JSON. -/
  | malformed
  /-- The text is JSON of another shape. -/
  | mismatched
deriving DecidableEq, Repr

/-- Why reading stopped. -/
inductive Cause where
  | endOfValue
  | endOfList
  | endOfObject
  | endOfString
  | colonExpected
  | listEndExpected
  | objectEndExpected
  | wordExpected
  | valueExpected
  | keyExpected
  | trailingComma
  | trailingCharacters
  | controlCharacter
  | invalidEscape
  | hexEscapeEnd
  | loneSurrogate
  | invalidNumber
  | numberOutOfRange
  | mismatch (mismatch : Mismatch)
  | duplicateField (name : String)
deriving DecidableEq, Repr

namespace Cause

def category : Cause → Category
  | endOfValue | endOfList | endOfObject | endOfString => .truncated
  | mismatch _ | duplicateField _ => .mismatched
  | _ => .malformed

def text : Cause → String
  | endOfValue => "EOF while parsing a value"
  | endOfList => "EOF while parsing a list"
  | endOfObject => "EOF while parsing an object"
  | endOfString => "EOF while parsing a string"
  | colonExpected => "expected `:`"
  | listEndExpected => "expected `,` or `]`"
  | objectEndExpected => "expected `,` or `\x7d`"
  | wordExpected => "expected ident"
  | valueExpected => "expected value"
  | keyExpected => "key must be a string"
  | trailingComma => "trailing comma"
  | trailingCharacters => "trailing characters"
  | controlCharacter => "control character (\\u0000-\\u001F) found while parsing a string"
  | invalidEscape => "invalid escape"
  | hexEscapeEnd => "unexpected end of hex escape"
  | loneSurrogate => "lone leading surrogate in hex escape"
  | invalidNumber => "invalid number"
  | numberOutOfRange => "number out of range"
  | mismatch m => m.message
  | duplicateField name => "duplicate field `" ++ name ++ "`"

end Cause

/-- A fault at a place in a text: before what is left of it, or so many bytes further. -/
structure Fault where
  cause : Cause
  rest : List Char
  ahead : Nat := 0
deriving DecidableEq, Repr

/-- A place in a text: the line, counted from one, and the number of bytes of it that were read. -/
structure Place where
  line : Nat := 1
  column : Nat := 0
deriving DecidableEq, Repr

namespace Place

/-- The place after one more character. -/
def step (p : Place) (c : Char) : Place :=
  if c = '\n' then ⟨p.line + 1, 0⟩ else ⟨p.line, p.column + c.utf8Size⟩

/-- The place a number of bytes further, but not beyond the end of the text. -/
def advance (p : Place) : Nat → List Char → Place
  | _, [] => p
  | bytes, c :: cs =>
    if c.utf8Size ≤ bytes then advance (p.step c) (bytes - c.utf8Size) cs
    else ⟨p.line, p.column + bytes⟩

end Place

/-- A fault with its place in the whole text. -/
structure Error where
  cause : Cause
  place : Place
deriving DecidableEq, Repr

/-- The fault as seen in the whole text. -/
def Fault.locate (text : List Char) (f : Fault) : Error where
  cause := f.cause
  place := ((text.take (text.length - f.rest.length)).foldl Place.step {}).advance f.ahead f.rest

def Error.message (e : Error) : String :=
  e.cause.text ++ " at line " ++ e.place.line.repr ++ " column " ++ e.place.column.repr

end ApiSurface.Json
