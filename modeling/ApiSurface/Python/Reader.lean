import ApiSurface.Python.Layout

/-! Readers: computations that move a reading position forward or stop at a fault, and the tokens
they are made of. Words are read whole; whether a word is a keyword is decided by the rule that looks
at it, so the same letters can be a keyword in one place and a name in another. -/

namespace ApiSurface.Python

/-- Why reading stopped: no rule goes on from this place. -/
structure Fault where
  position : Position
deriving DecidableEq, Repr, Inhabited

/-- A computation on the reading position. -/
abbrev Reader := StateT Reading (Except Fault)

namespace Reader

/-- Stops at the reading position. -/
def fail {α : Type} : Reader α := fun r => .error ⟨r.position⟩

/-- Reads as `first` does, or as `second` if `first` stops. -/
def either {α : Type} (first second : Reader α) : Reader α := fun r =>
  match first r with
  | .ok done => .ok done
  | .error _ => second r

/-- Looks for the next token where `w` is wanted. -/
def next (w : Wanted) : Reader Break := fun r => .ok (r.next w)

/-- Looks for the next token inside an expression, where the line may end but no block may begin or
end: tells whether the line ends. -/
def settle (w : Wanted) : Reader Bool := do
  match ← next w with
  | .none => return false
  | .newline => return true
  | _ => fail

/-- The characters that are left. -/
def rest : Reader (List Char) := return (← get).rest

/-- The reading position. -/
def here : Reader Position := return (← get).position

/-- Passes over `n` characters. -/
def take (n : Nat) : Reader Unit := modify (·.drop n)

/-- The text stands at the reading position. -/
def standing (text : String) : Reader Bool := return text.toList.isPrefixOf (← rest)

/-- Passes over the text if it stands at the reading position, and tells so. -/
def accept (text : String) : Reader Bool := do
  if ← standing text then
    take text.length
    return true
  else
    return false

/-- Passes over the text if it stands at the reading position and the longer token does not. -/
def acceptUnless (longer text : String) : Reader Bool := do
  if ← standing longer then return false
  accept text

/-- Passes over the text, which has to stand at the reading position. -/
def expect (text : String) : Reader Unit := do
  unless ← accept text do fail

end Reader

/-! ### Words -/

/-- The identifier at the head of the text, empty if there is none. -/
def wordOf : List Char → List Char
  | [] => []
  | c :: cs => if Unicode.isIdentifierStart c then c :: cs.takeWhile Unicode.isIdentifierPart else []

/-- Words that are keywords wherever an operand may begin. -/
def operandKeywords : List String := ["not", "lambda", "await", "None", "True", "False"]

/-- Words that are keywords in some places and may be names in expressions. -/
def softKeywords : List String := ["print", "exec", "async", "await", "match", "type"]

namespace Reader

/-- The word at the reading position, empty if there is none. -/
def word : Reader String := return String.ofList (wordOf (← rest))

/-- The word stands at the reading position, as a whole word. -/
def atWord (text : String) : Reader Bool := return (← word) == text

/-- Passes over a word, whichever it is. -/
def takeWord : Reader String := do
  let w ← word
  if w.isEmpty then fail
  take w.length
  return w

/-- Passes over the given word if it stands at the reading position, and tells so. -/
def acceptWord (text : String) : Reader Bool := do
  if ← atWord text then
    take text.length
    return true
  else
    return false

/-- Passes over the given word, which has to stand at the reading position. -/
def expectWord (text : String) : Reader Unit := do
  unless ← acceptWord text do fail

end Reader

/-! ### Numbers -/

/-- The length of a run of decimal digits in which each group may have one underscore after it. The
flag tells that the run goes on after a digit. -/
def digitRun : Bool → List Char → Nat
  | _, [] => 0
  | afterDigit, c :: cs =>
    if c.isDigit then digitRun true cs + 1
    else if afterDigit && c == '_' then digitRun false cs + 1
    else 0

/-- The length of a run of digits of another base in which each group may have one underscore before
it. -/
def basedRun (isDigit : Char → Bool) : List Char → Nat
  | '_' :: c :: cs => if isDigit c then basedRun isDigit cs + 2 else 0
  | c :: cs => if isDigit c then basedRun isDigit cs + 1 else 0
  | [] => 0

/-- A digit to base sixteen. -/
def isHexDigit (c : Char) : Bool :=
  c.isDigit || ('a' ≤ c && c ≤ 'f') || ('A' ≤ c && c ≤ 'F')

/-- The length of an exponent, zero if there is none. -/
def exponentLength : List Char → Nat
  | e :: cs =>
    if e == 'e' || e == 'E' then
      let sign := match cs with
        | '+' :: _ | '-' :: _ => 1
        | _ => 0
      let digits := digitRun false (cs.drop sign)
      if digits = 0 then 0 else 1 + sign + digits
    else 0
  | [] => 0

/-- One if the text begins with one of the letters, else zero. -/
def suffixLength (letters : List Char) : List Char → Nat
  | c :: _ => if letters.contains c then 1 else 0
  | [] => 0

/-- The length of the integer at the head of the text, zero if there is none: a based or a decimal
one with its optional letter. -/
def integerLength (cs : List Char) : Nat :=
  let based (isDigit : Char → Bool) : Nat :=
    let digits := basedRun isDigit (cs.drop 2)
    if digits = 0 then 0 else 2 + digits + suffixLength ['L', 'l'] (cs.drop (2 + digits))
  let special := match cs with
    | '0' :: c :: _ =>
      if c == 'x' || c == 'X' then based isHexDigit
      else if c == 'o' || c == 'O' then based fun d => '0' ≤ d && d ≤ '7'
      else if c == 'b' || c == 'B' then based fun d => d == '0' || d == '1'
      else 0
    | _ => 0
  if special != 0 then special
  else
    let digits := digitRun false cs
    if digits = 0 then 0 else digits + suffixLength ['L', 'l', 'j', 'J'] (cs.drop digits)

/-- The length of the decimal fraction at the head of the text, zero if there is none: digits on at
least one side of a point, or digits with an exponent, with an optional letter. -/
def fractionLength (cs : List Char) : Nat :=
  let whole := digitRun false cs
  let fraction := match cs.drop whole with
    | '.' :: r =>
      let digits := digitRun false r
      if whole = 0 && digits = 0 then 0 else digits + 1
    | _ => 0
  let exponent := exponentLength (cs.drop (whole + fraction))
  if whole + fraction = 0 || fraction + exponent = 0 then 0
  else
    let size := whole + fraction + exponent
    size + suffixLength ['L', 'l', 'j', 'J'] (cs.drop size)

/-- The length of the number at the head of the text, zero if there is none. -/
def numberLength (cs : List Char) : Nat := max (integerLength cs) (fractionLength cs)

/-! ### Operators -/

/-- The assignment operators that also compute. -/
def augmentedOperators : List String :=
  ["**=", "//=", ">>=", "<<=", "+=", "-=", "*=", "/=", "@=", "%=", "&=", "^=", "|="]

/-- The operators between operands of arithmetic, longer ones first. -/
def binaryOperators : List String :=
  ["**", "//", "<<", ">>", "+", "-", "*", "@", "/", "%", "|", "&", "^"]

/-- The comparison operators written with signs, longer ones first. -/
def comparisonSigns : List String := ["<=", ">=", "==", "!=", "<>", "<", ">"]

/-- The first of the texts that stands at the head. -/
def firstStanding? (texts : List String) (cs : List Char) : Option String :=
  texts.find? fun t => t.toList.isPrefixOf cs

/-- The arithmetic operator at the head of the text. One that an equals sign follows belongs to an
assignment. -/
def binaryOperator? (cs : List Char) : Option String :=
  if (firstStanding? augmentedOperators cs).isSome then none else firstStanding? binaryOperators cs

/-! ### Strings -/

/-- How a string was opened: its quote, whether the quote is tripled, and the letters before it. -/
structure Delimiter where
  quote : Char
  triple : Bool
  raw : Bool
  bytes : Bool
  format : Bool
deriving DecidableEq, Repr, Inhabited

/-- The letters that may stand before a quote. -/
def isStringLetter (c : Char) : Bool := "fFrRbBuU".toList.contains c

/-- The opening of a string at the head of the text, with its length. -/
def stringStart? (cs : List Char) : Option (Delimiter × Nat) :=
  let letters := cs.takeWhile isStringLetter
  let has (a b : Char) : Bool := letters.contains a || letters.contains b
  let opened (quote : Char) (triple : Bool) : Delimiter :=
    ⟨quote, triple, has 'r' 'R', has 'b' 'B', has 'f' 'F'⟩
  match cs.drop letters.length with
  | '`' :: _ => some (opened '`' false, letters.length + 1)
  | '\'' :: '\'' :: '\'' :: _ => some (opened '\'' true, letters.length + 3)
  | '\'' :: _ => some (opened '\'' false, letters.length + 1)
  | '"' :: '"' :: '"' :: _ => some (opened '"' true, letters.length + 3)
  | '"' :: _ => some (opened '"' false, letters.length + 1)
  | _ => none

/-- A piece of a string: text of the given length, the closing quote, neither, or the end of the
source. -/
inductive Piece where
  | text (length : Nat)
  | close (length : Nat)
  | stuck
  | over
deriving Repr, Inhabited

/-- How many characters a backslash in a raw string takes with it: a quote or backslash, then a line
end. -/
def rawEscapeLength (d : Delimiter) (cs : List Char) : Nat :=
  let escaped := match cs with
    | c :: _ => if c == d.quote || c == '\\' then 1 else 0
    | [] => 0
  match cs.drop escaped with
  | '\r' :: '\n' :: _ => escaped + 2
  | '\r' :: _ => escaped + 1
  | '\n' :: _ => escaped + 1
  | _ => escaped

/-- The piece at the head of the text. `filled` is set once there is text before, and `length` counts
what was passed. A line end in a string of one line leaves the piece stuck unless it comes first. -/
def pieceOf (d : Delimiter) : List Char → (filled : Bool) → (length : Nat) → Piece
  | [], _, _ => .over
  | c :: cs, filled, length =>
    let before : Piece := if filled then .text length else .stuck
    if c == '\x00' then .stuck
    else if d.format && (c == '\x7b' || c == '\x7d') then before
    else if c == '\\' then
      if d.raw then
        let taken := rawEscapeLength d cs
        pieceOf d (cs.drop taken) filled (length + 1 + taken)
      else if d.bytes && (cs.head?.any fun e => e == 'N' || e == 'u' || e == 'U') then
        pieceOf d (cs.drop 2) true (length + 3)
      else before
    else if c == d.quote then
      if !d.triple then if filled then .text length else .close (length + 1)
      else match cs with
        | a :: b :: _ =>
          if a != d.quote then .text (length + 1)
          else if b != d.quote then .text (length + 2)
          else if filled then .text length
          else .close (length + 3)
        | [a] => .text (if a == d.quote then length + 2 else length + 1)
        | [] => .text (length + 1)
    else if c == '\n' && filled && !d.triple then .stuck
    else pieceOf d cs true (length + 1)
termination_by cs => cs.length

/-- The length of an escape at a backslash: a known escape whole, any other backslash alone. -/
def escapeLength (cs : List Char) : Nat :=
  let hex (n : Nat) (r : List Char) : Bool := (r.take n).length == n && (r.take n).all isHexDigit
  match cs with
  | '\\' :: 'u' :: r => if hex 4 r then 6 else 1
  | '\\' :: 'U' :: r => if hex 8 r then 10 else 1
  | '\\' :: 'x' :: r => if hex 2 r then 4 else 1
  | '\\' :: 'N' :: '\x7b' :: r =>
    let name := r.takeWhile (· != '\x7d')
    if name.isEmpty || name.length == r.length then 1 else 4 + name.length
  | '\\' :: '\n' :: _ => 2
  | '\\' :: '\r' :: '\n' :: _ => 3
  | '\\' :: a :: r =>
    if "'\"abfrntv\\".toList.contains a then 2
    else if a.isDigit then
      match r with
      | b :: c :: _ => if b.isDigit && c.isDigit then 4 else 1
      | _ => 1
    else 1
  | _ => 1

end ApiSurface.Python
