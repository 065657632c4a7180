import ApiSurface.Toml.Value

/-!
Reading the keys and values of TOML. Each reader takes the text that is left and gives what it read
together with the text after it, or nothing.
-/

namespace ApiSurface.Toml

/-- A reader. -/
abbrev Scan : Type → Type := StateT (List Char) Option

namespace Scan

/-- The next character. -/
def peek : Scan (Option Char) := fun cs => some (cs.head?, cs)

/-- Passes over the next character, if it is the given one, and tells so. -/
def accept (c : Char) : Scan Bool := fun
  | d :: cs => if c = d then some (true, cs) else some (false, d :: cs)
  | [] => some (false, [])

/-- Passes over the given text, if it comes next, and tells so. -/
def acceptText (text : String) : Scan Bool := fun cs =>
  if text.toList.isPrefixOf cs then some (true, cs.drop text.length) else some (false, cs)

/-- Passes over the given character, which has to come next. -/
def expect (c : Char) : Scan Unit := do
  unless ← accept c do failure

/-- The longest run of characters of a class. -/
def takeWhile (p : Char → Bool) : Scan (List Char) := fun cs =>
  some (cs.takeWhile p, cs.dropWhile p)

/-- The longest run of characters of a class, before those that a reader gives. -/
def run (p : Char → Bool) (read : Scan (List Char)) : Scan (List Char) := do
  let plain ← takeWhile p
  return plain ++ (← read)

/-- What a reader gives, with the part of the text that it read. -/
def spanned {α : Type} (read : Scan α) : Scan (α × Span) := fun cs => do
  let (value, rest) ← read cs
  return ((value, ⟨cs.length, rest.length⟩), rest)

end Scan

open Scan

/-! ### Blanks, comments and line ends -/

def isBlank (c : Char) : Bool := c = ' ' || c = '\t'

/-- Characters of comments: all but control characters. -/
def isCommentChar (c : Char) : Bool := c = '\t' || (0x20 ≤ c.toNat && c.toNat != 0x7F)

def blanks : Scan Unit := do
  let _ ← takeWhile isBlank

/-- Passes over a line end, if there is one, and tells so. -/
def newline : Scan Bool := do
  if ← accept '\n' then return true
  acceptText "\r\n"

/-- Passes over a comment, if there is one. -/
def comment : Scan Unit := do
  if ← accept '#' then
    let _ ← takeWhile isCommentChar

/-- The rest of a line: blanks, perhaps a comment, and the line end or the end of the text. -/
def lineRest : Scan Unit := do
  blanks
  comment
  unless ← newline do
    if (← peek).isSome then failure

/-- Blanks, comments and line ends. -/
def gap : Nat → Scan Unit
  | 0 => failure
  | n + 1 => do
    match ← peek with
    | some ' ' | some '\t' => blanks; gap n
    | some '#' => comment; gap n
    | some '\n' | some '\r' => if ← newline then gap n
    | _ => return

theorem gap_nil (n : Nat) : gap (n + 1) [] = some ((), []) := by
  rw [gap]
  rfl

/-! ### Strings -/

/-- Characters that stand for themselves in a string in double quotes. -/
def isBasicChar (c : Char) : Bool := isCommentChar c && c != '"' && c != '\\'

/-- Characters that stand for themselves in a string in single quotes. -/
def isLiteralChar (c : Char) : Bool := isCommentChar c && c != '\''

/-- The value of a hexadecimal digit. -/
def hexValue? (c : Char) : Option Nat :=
  if '0' ≤ c && c ≤ '9' then some (c.toNat - '0'.toNat)
  else if 'a' ≤ c && c ≤ 'f' then some (c.toNat - 'a'.toNat + 10)
  else if 'A' ≤ c && c ≤ 'F' then some (c.toNat - 'A'.toNat + 10)
  else none

/-- A number of hexadecimal digits. -/
def hexDigits : Nat → Nat → Scan Nat
  | 0, value => return value
  | n + 1, value => fun
    | c :: cs => do
      let digit ← hexValue? c
      hexDigits n (value * 16 + digit) cs
    | [] => none

/-- The character of a code, which must be one of a character. -/
def codePoint (digits : Nat) : Scan Char := do
  let code ← hexDigits digits 0
  if code < 0xD800 || (0xDFFF < code && code < 0x110000) then
    return Char.ofNat code
  else
    failure

/-- The character of an escape, after its backslash. -/
def escaped : Scan Char := fun
  | 'b' :: cs => some ('\x08', cs)
  | 't' :: cs => some ('\t', cs)
  | 'n' :: cs => some ('\n', cs)
  | 'f' :: cs => some ('\x0c', cs)
  | 'r' :: cs => some ('\r', cs)
  | '"' :: cs => some ('"', cs)
  | '\\' :: cs => some ('\\', cs)
  | 'u' :: cs => codePoint 4 cs
  | 'U' :: cs => codePoint 8 cs
  | _ => none

/-- The characters of a string in double quotes, after the opening one. -/
def basicBody : Nat → Scan (List Char)
  | 0 => failure
  | n + 1 => run isBasicChar do
    if ← accept '"' then
      return []
    else
      expect '\\'
      return (← escaped) :: (← basicBody n)

/-- The characters of a string in single quotes, after the opening one. -/
def literalBody : Scan (List Char) := do
  let plain ← takeWhile isLiteralChar
  expect '\''
  return plain

/-- The end of a string in three quotes, if it is here, with up to two more quotes before it that
belong to the string. -/
def closing? (quote : Char) : Scan (Option (List Char)) := fun cs =>
  let run := (cs.takeWhile (· = quote)).length
  if run < 3 then some (none, cs)
  else
    let inside := min 2 (run - 3)
    some (some (List.replicate inside quote), cs.drop (inside + 3))

/-- The text after blanks and line ends. -/
def dropLines : List Char → List Char
  | '\r' :: '\n' :: cs => dropLines cs
  | c :: cs => if isBlank c || c = '\n' then dropLines cs else c :: cs
  | [] => []

/-- A line end in a string, after its backslash: it and all blanks and line ends after it do not
count. Tells whether there was one. -/
def continuation : Scan Bool := fun cs =>
  match (do blanks; newline : Scan Bool) cs with
  | some (true, rest) => some (true, dropLines rest)
  | _ => some (false, cs)

/-- The characters of a string in three double quotes. -/
def multilineBasicBody : Nat → Scan (List Char)
  | 0 => failure
  | n + 1 => run isBasicChar do
    if let some inside ← closing? '"' then
      return inside
    else if ← accept '"' then
      return '"' :: (← multilineBasicBody n)
    else if ← newline then
      return '\n' :: (← multilineBasicBody n)
    else
      expect '\\'
      if ← continuation then
        multilineBasicBody n
      else
        return (← escaped) :: (← multilineBasicBody n)

theorem multilineBasicBody_of_closing {n : Nat} {cs inside rest : List Char}
    (h : closing? '"' ('"' :: cs) = some (some inside, rest)) :
    multilineBasicBody (n + 1) ('"' :: cs) = some (inside, rest) := by
  rw [multilineBasicBody]
  change Option.bind (Option.bind (closing? '"' ('"' :: cs)) _) _ = _
  rw [h]
  rfl

/-- The characters of a string in three single quotes. -/
def multilineLiteralBody : Nat → Scan (List Char)
  | 0 => failure
  | n + 1 => run isLiteralChar do
    if let some inside ← closing? '\'' then
      return inside
    else if ← accept '\'' then
      return '\'' :: (← multilineLiteralBody n)
    else if ← newline then
      return '\n' :: (← multilineLiteralBody n)
    else
      failure

theorem multilineLiteralBody_of_closing {n : Nat} {cs inside rest : List Char}
    (h : closing? '\'' ('\'' :: cs) = some (some inside, rest)) :
    multilineLiteralBody (n + 1) ('\'' :: cs) = some (inside, rest) := by
  rw [multilineLiteralBody]
  change Option.bind (Option.bind (closing? '\'' ('\'' :: cs)) _) _ = _
  rw [h]
  rfl

/-- A string on one line. -/
def lineString : Scan String := do
  if ← accept '"' then
    return String.ofList (← basicBody ((← get).length + 1))
  else
    expect '\''
    return String.ofList (← literalBody)

/-- A string of any form. A line end right after three opening quotes does not count. -/
def scanString : Scan String := do
  if ← acceptText "\"\"\"" then
    let _ ← newline
    return String.ofList (← multilineBasicBody ((← get).length + 1))
  else if ← acceptText "'''" then
    let _ ← newline
    return String.ofList (← multilineLiteralBody ((← get).length + 1))
  else
    lineString

/-! ### Keys -/

def isBareChar (c : Char) : Bool := c.isAlphanum || c = '-' || c = '_'

/-- One part of a key. -/
def keyPart : Scan String := do
  match ← peek with
  | some '"' | some '\'' => lineString
  | _ =>
    let name ← takeWhile isBareChar
    if name.isEmpty then failure
    return String.ofList name

/-- The parts of a dotted key. -/
def keyParts : Nat → Scan (List Key)
  | 0 => failure
  | n + 1 => do
    blanks
    let (name, span) ← spanned keyPart
    blanks
    if ← accept '.' then
      return ⟨name, span⟩ :: (← keyParts n)
    else
      return [⟨name, span⟩]

/-- Keys have fewer parts than this, and values are less deep. -/
def depthLimit : Nat := 80

/-- A dotted key. -/
def key : Scan (List Key) := keyParts (depthLimit - 1)

/-! ### Dates and times -/

/-- A number of exactly so many digits. -/
def fixedDigits : Nat → Nat → Scan Nat
  | 0, value => return value
  | n + 1, value => fun
    | c :: cs => if c.isDigit then fixedDigits n (value * 10 + (c.toNat - '0'.toNat)) cs else none
    | [] => none

/-- A number of two digits in a range. -/
def twoDigits (low high : Nat) : Scan Nat := do
  let value ← fixedDigits 2 0
  if low ≤ value && value ≤ high then return value else failure

def daysInMonth (year month : Nat) : Nat :=
  if month = 2 then
    if year % 4 = 0 && (year % 100 != 0 || year % 400 = 0) then 29 else 28
  else if month = 4 || month = 6 || month = 9 || month = 11 then 30
  else 31

/-- A time of day. -/
def time : Scan Unit := do
  let _ ← twoDigits 0 23
  expect ':'
  let _ ← twoDigits 0 59
  expect ':'
  let _ ← twoDigits 0 60
  if ← accept '.' then
    if (← takeWhile Char.isDigit).isEmpty then failure

/-- The offset of a time, if there is one. -/
def offset : Scan Unit := do
  match ← peek with
  | some 'Z' | some 'z' => let _ ← accept 'Z' <||> accept 'z'
  | some '+' | some '-' =>
    let _ ← accept '+' <||> accept '-'
    let _ ← twoDigits 0 23
    expect ':'
    let _ ← twoDigits 0 59
  | _ => return

/-- The text begins with so many digits and the given character. -/
def digitsThen (count : Nat) (mark : Char) (cs : List Char) : Bool :=
  (cs.take count).length = count && (cs.take count).all Char.isDigit && cs[count]? = some mark

/-- A date, perhaps with a time. -/
def date : Scan Unit := do
  let year ← fixedDigits 4 0
  expect '-'
  let month ← twoDigits 1 12
  expect '-'
  let _ ← twoDigits 1 (daysInMonth year month)
  match ← get with
  | d :: cs =>
    if (d = 'T' || d = 't' || d = ' ') && digitsThen 2 ':' cs then
      set cs
      time
      offset
  | [] => return

/-! ### Numbers -/

/-- Digits with single underscores between them. -/
def digitGroups (isDigit : Char → Bool) : Nat → Scan (List Char)
  | 0 => failure
  | n + 1 => do
    let digits ← takeWhile isDigit
    if digits.isEmpty then failure
    if ← accept '_' then
      return digits ++ (← digitGroups isDigit n)
    else
      return digits

/-- The value of digits in a base. -/
def digitsValue (base : Nat) (digits : List Char) : Nat :=
  digits.foldl (fun value c => value * base + (hexValue? c).getD 0) 0

/-- An integer of 64 bits. -/
def integer (value : Int) : Scan Value :=
  if -Int.pow 2 63 ≤ value && value < Int.pow 2 63 then return .integer value else failure

/-- The character is a digit in a base. -/
def isDigitIn (base : Nat) (c : Char) : Bool :=
  match hexValue? c with
  | some d => d < base
  | none => false

/-- An integer in another base than ten, after its mark. -/
def basedInteger (base : Nat) : Scan Value := do
  let digits ← digitGroups (isDigitIn base) ((← get).length + 1)
  integer (digitsValue base digits)

/-- The digits of a whole part, which begin with a zero only if there is no other digit. -/
def wholeDigits : Scan (List Char) := do
  match ← peek with
  | some '0' => expect '0'; return ['0']
  | _ => digitGroups Char.isDigit ((← get).length + 1)

/-- A sign, if there is one. Tells whether it is a minus. -/
def minus : Scan Bool := do
  if ← accept '-' then
    return true
  else
    let _ ← accept '+'
    return false

/-- An exponent after its letter. -/
def exponent : Scan Int := do
  let negative ← minus
  let size := digitsValue 10 (← digitGroups Char.isDigit ((← get).length + 1))
  return if negative then -size else size

/-- The double nearest to `digits · 10 ^ exponent`. Beyond 400 places it is zero or infinite. -/
def nearest (negative : Bool) (digits : List Char) (exponent : Int) : Double :=
  let coefficient := digitsValue 10 digits
  let places := exponent + digits.length
  if coefficient = 0 || places < -400 then .ofRatio negative ⟨0, 1⟩
  else if 400 + digits.length < places then .infinite negative
  else .ofRatio negative (.scaled coefficient 10 exponent)

/-- A double, unless it is too large. -/
def floating (x : Double) : Scan Value :=
  if x = .infinite false then failure else return .floating x

/-- The exponent of a double, if there is one. -/
def exponent? : Scan (Option Int) := do
  if ← accept 'e' <||> accept 'E' then return some (← exponent) else return none

/-- A number after its sign. -/
def unsigned (negative : Bool) : Scan Value := do
  if ← acceptText "inf" then return .floating (.infinite negative)
  if ← acceptText "nan" then return .floating .nan
  let whole ← wholeDigits
  if ← accept '.' then
    let fraction ← digitGroups Char.isDigit ((← get).length + 1)
    let power := (← exponent?).getD 0
    floating (nearest negative (whole ++ fraction) (power - fraction.length))
  else if let some power ← exponent? then
    floating (nearest negative whole power)
  else
    let size : Int := digitsValue 10 whole
    integer (if negative then -size else size)

/-- A date, a time or a number. -/
def scalar : Scan Value := do
  let cs ← get
  if digitsThen 4 '-' cs then
    date
    return .date
  else if digitsThen 2 ':' cs then
    time
    return .date
  else if ← acceptText "0x" then basedInteger 16
  else if ← acceptText "0o" then basedInteger 8
  else if ← acceptText "0b" then basedInteger 2
  else unsigned (← minus)

/-! ### Values -/

/-- One path leads to or through the place of another. -/
def clash (p q : List String) : Bool := p.isPrefixOf q || q.isPrefixOf p

mutual

/-- A value; the second argument is the depth that is left. -/
def value : Nat → Nat → Scan Value
  | 0, _ => failure
  | n + 1, depth => do
    match ← peek with
    | some '"' | some '\'' => return .string (← scanString)
    | some '[' =>
      expect '['
      if depth ≤ 1 then failure
      return .array (← arrayItems n (depth - 1))
    | some '\x7b' =>
      expect '\x7b'
      if depth ≤ 1 then failure
      blanks
      if ← accept '\x7d' then return .table []
      return .table (← inlineEntries n (depth - 1) [])
    | some 't' => if ← acceptText "true" then return .boolean true else failure
    | some 'f' => if ← acceptText "false" then return .boolean false else failure
    | _ => scalar

/-- The items of an array and its closing bracket. -/
def arrayItems : Nat → Nat → Scan (List (Value × Span))
  | 0, _ => failure
  | n + 1, depth => do
    gap ((← get).length + 1)
    if ← accept ']' then return []
    let item ← spanned (value n depth)
    gap ((← get).length + 1)
    if ← accept ',' then
      return item :: (← arrayItems n depth)
    else
      expect ']'
      return [item]

/-- The entries of a table in braces, of which there is one, and the closing brace. No two may name
the same place. -/
def inlineEntries : Nat → Nat → List (List String) → Scan (List (List String × Value))
  | 0, _, _ => failure
  | n + 1, depth, before => do
    let path := (← key).map Key.name
    if before.any (clash path) then failure
    expect '='
    blanks
    let v ← value n depth
    blanks
    if ← accept ',' then
      return (path, v) :: (← inlineEntries n depth (path :: before))
    else
      expect '\x7d'
      return [(path, v)]

end

theorem value_true (n depth : Nat) (cs : List Char) :
    value (n + 1) depth ('t' :: 'r' :: 'u' :: 'e' :: cs) = some (.boolean true, cs) := by
  rw [value]
  rfl

theorem value_false (n depth : Nat) (cs : List Char) :
    value (n + 1) depth ('f' :: 'a' :: 'l' :: 's' :: 'e' :: cs) = some (.boolean false, cs) := by
  rw [value]
  rfl

end ApiSurface.Toml
