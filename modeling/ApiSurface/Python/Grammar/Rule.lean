/-! The shape of grammar rules. A rule is written over terminals, which a source is cut into, and
constructs, which the grammar names. Ranks and sides settle, as between operators, which of two
readings of a text is meant. -/

namespace ApiSurface.Python

/-- A piece of a source. -/
inductive Terminal where
  /-- A sign or a keyword, by its letters. -/
  | text (letters : String)
  | name
  | integer
  | float
  /-- An escape in a string that stands for another character. -/
  | escape
  /-- A backslash in a string that begins no escape. -/
  | backslash
  /-- Text that says how a replacement is to be formatted. -/
  | format
  /-- An exclamation mark with its letter in a replacement. -/
  | conversion
  | comment
  /-- A backslash at the end of a line, which joins the line with the next. -/
  | joint
  | newline
  | indent
  | dedent
  /-- The letters and quote that open a string. -/
  | quote
  /-- Text of a string. -/
  | content
  /-- A doubled brace in a formatted string. -/
  | braces
  /-- The quote that closes a string. -/
  | unquote
  /-- The end of the source. -/
  | finish
deriving DecidableEq, Repr, Inhabited

namespace Terminal

/-- A terminal that shows in a syntax tree. -/
def isShown : Terminal → Bool
  | backslash | format | newline | indent | dedent | content => false
  | _ => true

/-- A terminal that may stand anywhere between others. -/
def isExtra : Terminal → Bool
  | comment | joint => true
  | _ => false

end Terminal

/-- The operand that an operator takes first when two operators of one rank meet. -/
inductive Side where
  | left
  | right
deriving DecidableEq, Repr

/-- A rule over constructs `κ`. -/
inductive Rule (κ : Type) where
  | token (t : Terminal)
  | ref (c : κ)
  | seq (parts : List (Rule κ))
  | choice (options : List (Rule κ))
  | optional (part : Rule κ)
  | ranked (rank : Int) (side : Option Side) (part : Rule κ)

namespace Rule

variable {κ : Type}

instance : Coe String (Rule κ) := ⟨fun s => token (.text s)⟩

instance : Coe Terminal (Rule κ) := ⟨token⟩

instance : Coe κ (Rule κ) := ⟨ref⟩

/-- A step of a spelled-out rule: a terminal or construct, with the rank and side that hold there. -/
structure Step (κ : Type) where
  symbol : Terminal ⊕ κ
  rank : Int
  side : Option Side
deriving BEq

/-- A sequence of steps in which the rank, and the side if a rule set one, end before the last step. -/
def endRank (rank : Int) (side : Option Side) (set : Bool) (steps : List (Step κ)) : List (Step κ) :=
  match steps.reverse with
  | [] => []
  | last :: before =>
    ({ last with rank := rank, side := if set then side else last.side } :: before).reverse

mutual

/-- The sequences of steps that a rule stands for, under a rank and side. A rank reaches over the
last step of its part only if nothing follows the part. -/
def spellings (rank : Int) (side : Option Side) (atEnd : Bool) : Rule κ → List (List (Step κ))
  | token t => [[⟨.inl t, rank, side⟩]]
  | ref c => [[⟨.inr c, rank, side⟩]]
  | seq parts => sequences rank side atEnd parts
  | choice options => alternatives rank side atEnd options
  | optional part => spellings rank side atEnd part ++ [[]]
  | ranked inner own part =>
    let found := spellings inner (own.or side) atEnd part
    if atEnd then found else found.map (endRank rank side own.isSome)

/-- The spellings of a sequence of rules. -/
def sequences (rank : Int) (side : Option Side) (atEnd : Bool) :
    List (Rule κ) → List (List (Step κ))
  | [] => [[]]
  | [part] => spellings rank side atEnd part
  | part :: parts =>
    (spellings rank side false part).flatMap fun front =>
      (sequences rank side atEnd parts).map (front ++ ·)

/-- The spellings of several rules, one after the other. -/
def alternatives (rank : Int) (side : Option Side) (atEnd : Bool) :
    List (Rule κ) → List (List (Step κ))
  | [] => []
  | option :: options =>
    spellings rank side atEnd option ++ alternatives rank side atEnd options

end

end Rule

end ApiSurface.Python
