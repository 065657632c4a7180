import ApiSurface.Python.Reader
import ApiSurface.Python.Grammar.State

/-! The next terminal of a source that may be faulty. Where the state of reading has a use for a
terminal that stands next, that one is read. Where it has none, the terminal that stands there is
read all the same, whatever it is; and where not even that can be told, the characters up to the next
terminal are taken together as one piece of error. -/

namespace ApiSurface.Python.Repair

/-- A place in a source: what is left to read there, and where it stands. -/
structure Place where
  rest : List Char
  position : Position := ⟨0, 0⟩
  byte : Nat := 0
deriving Repr, Inhabited

namespace Place

/-- The place some characters further. -/
def drop (p : Place) : Nat → Place
  | 0 => p
  | n + 1 => match p.rest with
    | [] => p
    | c :: cs => drop ⟨cs, p.position.step c, p.byte + c.utf8Size⟩ n

/-- The end of the source. -/
def finish (p : Place) : Place := p.drop p.rest.length

end Place

/-- What reading has to keep in mind from one terminal to the next: the indentations of the open
blocks and the openings of the open strings, innermost first, and whether the string opened last, if
not closed since, is a formatted one. -/
structure Memory where
  indents : List Nat := []
  strings : List Delimiter := []
  formatted : Bool := false
deriving DecidableEq, Repr, Inhabited

/-- A terminal that was read, with the memory after it if it belongs to the layout. -/
structure Token where
  /-- Nothing stands for a piece of error. -/
  terminal : Option Terminal
  start : Place
  stop : Place
  memory : Option Memory := none
deriving Inhabited

/-- The terminals of the layout that are looked for. -/
structure Sought extends Wanted where
  content : Bool := false
  braces : Bool := false

namespace Sought

/-- Looking for whatever there is. -/
def all : Sought :=
  { newline := true, indent := true, dedent := true, handler := true, close := true, string := true
    content := true, braces := true }

/-- Looking for the terminals of a set. -/
def ofSet (g : Grammar) (s : TerminalSet) : Sought :=
  let has (t : Terminal) : Bool := s.has (g.terminal t)
  { newline := has .newline, indent := has .indent, dedent := has .dedent
    handler := has (.text "except")
    close := has (.text ")") || has (.text "]") || has (.text "\x7d")
    string := has .quote, content := has .content, braces := has .braces }

/-- Nobody looks for text of a string where a block may begin, except in search of anything. -/
def isSearch (s : Sought) : Bool := s.content && s.indent

end Sought

/-- The line structure or the opening of a string after the blanks at a place. A line end alone is
nothing to go by in a search. -/
def lineToken? (s : Sought) (m : Memory) (p : Place) : Option Token := do
  let a ← ahead (s.newline || s.indent || s.dedent || s.handler) p.rest false false 0 none 0
  match a.toBreak s.toWanted (m.indents.headD 0) m.formatted with
  | .indent => return ⟨some .indent, p, p, some { m with indents := a.indent % 256 :: m.indents }⟩
  | .dedent => return ⟨some .dedent, p, p, some { m with indents := m.indents.tail }⟩
  | shape =>
    if shape == .newline && !s.isSearch then
      return ⟨some .newline, p, p, some m⟩
    else if a.comment.isNone && s.string then
      let start := p.drop a.length
      let (d, size) ← stringStart? start.rest
      return ⟨some .quote, start, start.drop size,
        some { m with strings := d :: m.strings, formatted := d.format }⟩
    else
      none

/-- The terminal of the layout that stands at a place: a part of the string that is open, or else
line structure or the opening of a string. -/
def layoutToken? (s : Sought) (m : Memory) (p : Place) : Option Token :=
  match if s.isSearch then none else m.strings.head? with
  | none => lineToken? s m p
  | some d =>
    let atBrace := p.rest.head?.any fun c => c == '\x7b' || c == '\x7d'
    if s.braces && d.format && atBrace then
      if (firstStanding? ["\x7b\x7b", "\x7d\x7d"] p.rest).isSome then
        some ⟨some .braces, p, p.drop 2, some m⟩
      else none
    else if s.content then
      match pieceOf d p.rest false 0 with
      | .text size => some ⟨some .content, p, p.drop size, some m⟩
      | .close size =>
        some ⟨some .unquote, p, p.drop size,
          some { m with strings := m.strings.tail, formatted := false }⟩
      | .stuck => none
      | .over => (lineToken? s m p.finish).map ({ · with start := p })
    else lineToken? s m p

/-- Letters that could be a name. -/
def isWord (letters : String) : Bool :=
  (wordOf letters.toList).length == letters.length

/-- The length of a terminal at the head of a text, zero if it does not stand there. Keywords are
read as names. -/
def terminalLength (t : Terminal) (cs : List Char) : Nat :=
  match t with
  | .text letters =>
    if !isWord letters && letters.toList.isPrefixOf cs then letters.length else 0
  | .name => (wordOf cs).length
  | .integer => integerLength cs
  | .float => fractionLength cs
  | .escape => if cs.head? == some '\\' && escapeLength cs != 1 then escapeLength cs else 0
  | .backslash => if cs.head? == some '\\' then 1 else 0
  | .format => (cs.takeWhile fun c => c != '\x7b' && c != '\x7d' && c != '\n').length
  | .conversion => match cs with
    | '!' :: c :: _ => if c.isLower then 2 else 0
    | _ => 0
  | .comment => if cs.head? == some '#' then (cs.takeWhile (· != '\n')).length else 0
  | .joint => match cs with
    | '\\' :: '\n' :: _ | '\\' :: '\x00' :: _ => 2
    | '\\' :: '\r' :: '\n' :: _ => 3
    | ['\\'] => 1
    | _ => 0
  | _ => 0

/-- A terminal is not read in place of a shorter one that is expected. -/
def isHidden (g : Grammar) (expected : TerminalSet) (t : Terminal) : Bool :=
  let has (t : Terminal) : Bool := expected.has (g.terminal t)
  match t with
  | .text "except*" =>
    g.terminals.any fun
      | .name => has .name
      | .text letters => isWord letters && has (.text letters)
      | _ => false
  | .text letters =>
    (List.range letters.length).any fun n =>
      n != 0 && has (.text (String.ofList (letters.toList.take n)))
  | .float => has (.text ".") || has .integer
  | .escape => true
  | .finish => has (.text ".") || has (.text "+=")
  | _ => false

/-- A terminal can be read where some are expected: it is one of them, or it is none that would be
taken for one of them. The text of a format is read only where it is expected, and then nothing else
is. In a search, which expects nothing in particular, all else is read. -/
def isReadable (g : Grammar) (expected : Option TerminalSet) (t : Terminal) : Bool :=
  match expected with
  | none => t != .format
  | some expected =>
    expected.has (g.terminal t) ||
      (t != .format && !expected.has (g.terminal .format) && !isHidden g expected t)

/-- The longest readable terminal at the head of a text, with its length. -/
def longest? (g : Grammar) (expected : Option TerminalSet) (afterBlanks : Bool) (cs : List Char) :
    Option (Terminal × Nat) :=
  g.terminals.foldl (fun found t =>
    let size := if afterBlanks && (t == .escape || t == .backslash) then 0 else terminalLength t cs
    if found.elim 0 (·.2) < size && isReadable g expected t then some (t, size) else found) none

/-- The terminal after the blanks at a place that is no part of the layout. -/
def plainToken? (g : Grammar) (expected : Option TerminalSet) (p : Place) : Option Token :=
  match longest? g expected false p.rest with
  | some (t, size) => some ⟨some t, p, p.drop size, none⟩
  | none =>
    let start := p.drop (p.rest.takeWhile isBlank).length
    if start.rest.isEmpty then
      if isReadable g expected .finish then some ⟨some .finish, start, start, none⟩ else none
    else
      (longest? g expected true start.rest).map fun (t, size) =>
        ⟨some t, start, start.drop size, none⟩

/-- The terminal that stands at a place, whatever it is. A token of the layout without text counts
only if it changes the memory. -/
def anyToken? (g : Grammar) (m : Memory) (p : Place) : Option Token :=
  match layoutToken? .all m p with
  | some t =>
    if t.stop.byte ≤ p.byte && t.memory == some m then plainToken? g none p else some t
  | none => plainToken? g none p

/-- The place of the next terminal after characters that belong to none. -/
def skipTo (g : Grammar) (m : Memory) : Nat → Place → Place
  | 0, p => p
  | fuel + 1, p =>
    if p.rest.isEmpty || (anyToken? g m p).isSome then p
    else skipTo g m fuel ((p.drop (p.rest.takeWhile isBlank).length).drop 1)

/-- A name is a keyword where the keyword is wanted. -/
def Token.keyword (wanted : Terminal → Bool) (t : Token) : Token :=
  match t.terminal with
  | some .name =>
    let word := Terminal.text (String.ofList (wordOf t.start.rest))
    if wanted word then { t with terminal := some word } else t
  | _ => t

/-- The next token in a search. -/
def searchToken (g : Grammar) (m : Memory) (p : Place) : Token :=
  match anyToken? g m p with
  | some t => t
  | none =>
    let start := p.drop (p.rest.takeWhile isBlank).length
    ⟨none, start, skipTo g m p.rest.length (start.drop 1), none⟩

/-- The next token where a state expects some terminals. `advanced` tells that something was read
since the last fault: if not, a token without text that changes nothing is passed over. -/
def nextToken (g : Grammar) (expected : TerminalSet) (m : Memory) (advanced : Bool) (p : Place) :
    Token :=
  let layout := (layoutToken? (.ofSet g expected) m p).filter fun t =>
    advanced || p.byte < t.stop.byte || t.memory != some m
  let token := match layout.or (plainToken? g (some expected) p) with
    | some t => t
    | none => searchToken g m p
  token.keyword fun word => expected.has (g.terminal word)

end ApiSurface.Python.Repair
