import ApiSurface.Python.Node
import ApiSurface.Unicode.Identifier

/-! Reading position and line structure. Line ends and indentation are tokens only where the grammar
asks for them; elsewhere they are blanks. What stands next therefore depends on what is wanted, and
every reader says so in a `Wanted` before it looks at the next token. Newline, indent and dedent
tokens take no text: the blanks they were read off are looked at again for the token after them. -/

namespace ApiSurface.Python

/-- The place after a character. -/
def Position.step (p : Position) (c : Char) : Position :=
  if c = '\n' then ⟨p.row + 1, 0⟩ else ⟨p.row, p.column + c.utf8Size⟩

/-- What is left to read, where it begins, the open blocks' indentations (innermost first), and
whether the innermost string opened last, if not closed since, is a formatted one. -/
structure Reading where
  rest : List Char
  position : Position := ⟨0, 0⟩
  indents : List Nat := []
  formatted : Bool := false
deriving Repr, Inhabited

namespace Reading

/-- Passes over the first `n` characters. -/
def drop (r : Reading) : Nat → Reading
  | 0 => r
  | n + 1 => match r.rest with
    | [] => r
    | c :: cs => drop { r with rest := cs, position := r.position.step c } n

/-- The indentation of the innermost open block. -/
def indent (r : Reading) : Nat := r.indents.headD 0

end Reading

/-- The tokens without text of their own that may stand next, and whether a closing bracket or a
string may: these two decide whether a line that is indented less ends the block. -/
structure Wanted where
  newline : Bool := false
  indent : Bool := false
  dedent : Bool := false
  handler : Bool := false
  close : Bool := false
  string : Bool := false

/-- The line structure at a place. -/
inductive Break where
  | none
  | newline
  | indent
  | dedent
deriving DecidableEq, Repr, Inhabited

/-- The blanks before the next token: whether a line ends in them (the end of the text ends a line),
how far the token's line is indented, the indentation of the first comment passed, whether the token
opens a string with a plain quote, and the number of characters passed. -/
structure Ahead where
  lineEnd : Bool
  indent : Nat
  comment : Option Nat
  quote : Bool
  length : Nat
deriving Repr, Inhabited

/-- Looks over the blanks. A space counts one column and a tab eight; a line feed, a carriage return
or a form feed goes back to column zero, but only the line feed ends a line. Comment lines are passed
when `comments` is set; a comment on the line on which the blanks begin, and a backslash before
anything but a line end, leave no line structure to read. -/
def ahead (comments : Bool) : List Char → (inComment lineEnd : Bool) → (indent : Nat) →
    (comment : Option Nat) → (length : Nat) → Option Ahead
  | [], _, _, _, k, n => some ⟨true, 0, k, false, n⟩
  | '\n' :: cs, _, _, _, k, n => ahead comments cs false true 0 k (n + 1)
  | '\x00' :: cs, true, e, _, k, n => ahead comments cs false e 0 k (n + 1)
  | _ :: cs, true, e, i, k, n => ahead comments cs true e i k (n + 1)
  | ' ' :: cs, false, e, i, k, n => ahead comments cs false e (i + 1) k (n + 1)
  | '\t' :: cs, false, e, i, k, n => ahead comments cs false e (i + 8) k (n + 1)
  | '\r' :: cs, false, e, _, k, n => ahead comments cs false e 0 k (n + 1)
  | '\x0c' :: cs, false, e, _, k, n => ahead comments cs false e 0 k (n + 1)
  | '\\' :: '\n' :: cs, false, e, i, k, n => ahead comments cs false e i k (n + 2)
  | '\\' :: '\r' :: '\n' :: cs, false, e, i, k, n => ahead comments cs false e i k (n + 3)
  | ['\\'], false, _, _, k, n => some ⟨true, 0, k, false, n + 1⟩
  | ['\\', '\r'], false, _, _, k, n => some ⟨true, 0, k, false, n + 2⟩
  | '\\' :: _, false, _, _, _, _ => none
  | '#' :: cs, false, e, i, k, n =>
    if comments then
      if e then ahead comments cs true e i (k.or (some i)) (n + 1) else none
    else some ⟨e, i, k, false, n⟩
  | c :: _, false, e, i, k, n => some ⟨e, i, k, c == '"' || c == '\'' || c == '`', n⟩

theorem ahead_space (comments : Bool) (cs : List Char) (e : Bool) (i : Nat) (k : Option Nat) (n : Nat) :
    ahead comments (' ' :: cs) false e i k n = ahead comments cs false e (i + 1) k (n + 1) := by
  rw [ahead]

/-- The line structure that the blanks give where the tokens `w` are wanted: deeper indentation where
a block may begin; shallower indentation where a block may end, and also where neither a line end nor
a closing bracket nor a string may stand; else the end of the line. A block is not ended before the
comments that are indented like it. -/
def Ahead.toBreak (a : Ahead) (w : Wanted) (top : Nat) (formatted : Bool) : Break :=
  if !a.lineEnd then .none
  else if w.indent && top < a.indent then .indent
  else if (w.dedent || (!w.newline && !(w.string && a.quote) && !w.close)) && a.indent < top
      && !formatted && a.comment.all (· < top) then .dedent
  else if w.newline then .newline
  else .none

/-- Characters between tokens. -/
def isBlank (c : Char) : Bool :=
  c == ' ' || c == '\n' || c == '\t' || c == '\r' || c == '\x0b' || c == '\x0c' ||
    c == '\ufeff' || c == '\u2060' || c == '\u200b'

/-- The number of characters of blanks, then of a comment or of a backslash with its line end. The
second part is zero if neither follows. -/
def blankLength (cs : List Char) : Nat × Nat :=
  let blanks := cs.takeWhile isBlank
  let skipped := match cs.drop blanks.length with
    | '#' :: r => (r.takeWhile (· != '\n')).length + 1
    | '\\' :: '\n' :: _ => 2
    | '\\' :: '\r' :: '\n' :: _ => 3
    | ['\\'] => 1
    | _ => 0
  (blanks.length, skipped)

namespace Reading

/-- The line structure at the reading position. Without one, the reading position moves to the next
token; an indent or dedent opens or closes a block. An indentation is kept modulo 256. -/
def scan (w : Wanted) : Nat → Reading → Break × Reading
  | 0, r => (.none, r)
  | fuel + 1, r =>
    let comments := w.newline || w.indent || w.dedent || w.handler
    let found := ahead comments r.rest false false 0 none 0
    let shape : Break := match found with
      | some a => a.toBreak w r.indent r.formatted
      | none => .none
    match shape, found with
    | .newline, _ => (.newline, r)
    | .indent, some a => (.indent, { r with indents := a.indent % 256 :: r.indents })
    | .dedent, _ => (.dedent, { r with indents := r.indents.tail })
    | _, _ =>
      let (blanks, skipped) := blankLength r.rest
      let r := r.drop (blanks + skipped)
      if skipped = 0 then (.none, r) else scan w fuel r

/-- `scan` with room for every comment that is left. -/
def next (w : Wanted) (r : Reading) : Break × Reading := r.scan w (r.rest.length + 1)

theorem next_of_ahead {w : Wanted} {r : Reading} {a : Ahead}
    (h : ∀ comments, ahead comments r.rest false false 0 none 0 = some a) :
    r.next w = match a.toBreak w r.indent r.formatted with
      | .newline => (.newline, r)
      | .indent => (.indent, { r with indents := a.indent % 256 :: r.indents })
      | .dedent => (.dedent, { r with indents := r.indents.tail })
      | .none =>
        let (blanks, skipped) := blankLength r.rest
        let past := r.drop (blanks + skipped)
        if skipped = 0 then (.none, past) else past.scan w r.rest.length := by
  rw [next, scan]
  simp only [h]
  cases a.toBreak w r.indent r.formatted <;> rfl

end Reading

end ApiSurface.Python
