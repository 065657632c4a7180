import ApiSurface.Toml.Scan

/-!
TOML documents. A document is read as a list of sections, each a header with key-value pairs; the
sections are then put together into one table. A table is made by one header only, and neither
headers nor dotted keys can go through a value or change a table made in the other way.
-/

namespace ApiSurface.Toml

/-! ### Tables -/

/-- The entry of a name. -/
def lookup (name : String) (es : Entries) : Option Item :=
  (es.find? fun e => e.1.name == name).map Prod.snd

/-- The entries with that of a name replaced. -/
def replace (name : String) (item : Item) (es : Entries) : Entries :=
  es.map fun e => if e.1.name == name then (e.1, item) else e

/-- The entries without that of a name. -/
def erase (name : String) (es : Entries) : Entries :=
  es.filter fun e => e.1.name != name

/-- Changes the table at the end of a path, which is made if it is not there. A path leads through
the last of the tables in an array, and not through a value; that of a dotted key does not lead
through a table with a header of its own. -/
def descend (dotted : Bool) (change : TableKind → Entries → Option Entries) :
    List Key → TableKind → Entries → Option Entries
  | [], kind, es => change kind es
  | k :: ks, _, es =>
    match lookup k.name es with
    | none => do
      let kind := if dotted then .dotted else .implied
      let inner ← descend dotted change ks kind []
      return es ++ [(k, .table kind none inner)]
    | some (.value ..) => none
    | some (.table kind span inner) =>
      if dotted && kind = .explicit then none
      else do
        let inner ← descend dotted change ks kind inner
        return replace k.name (.table kind span inner) es
    | some (.tables earlier (span, inner)) => do
      let inner ← descend dotted change ks .explicit inner
      return replace k.name (.tables earlier (span, inner)) es

/-- A key with its value. -/
structure Pair where
  path : List Key
  key : Key
  value : Value
  span : Span

/-- Puts the last part of a pair into the table that it belongs to. -/
def Pair.addTo (p : Pair) (kind : TableKind) (table : Entries) : Option Entries :=
  if decide (kind = .dotted) == p.path.isEmpty then none
  else if (lookup p.key.name table).isSome then none
  else some (table ++ [(p.key, .value p.value p.span)])

/-- Puts a pair into a table. -/
def addPair (es : Entries) (p : Pair) : Option Entries :=
  descend true p.addTo p.path .explicit es

/-! ### Sections -/

/-- The header of a section. -/
structure Header where
  path : List Key
  key : Key
  /-- The header adds to an array of tables. -/
  doubled : Bool
  span : Span

/-- A header with the pairs below it. -/
structure Section where
  header : Header
  pairs : List Pair

/-- The text of a section: from its header to its last value. -/
def Section.span (s : Section) : Span :=
  ⟨s.header.span.start, ((s.pairs.getLast?).map fun p => p.span.stop).getD s.header.span.stop⟩

/-- Puts a section into the table right above it. A table that so far only was implied by other headers
is taken up and comes last. -/
def Section.addTo (s : Section) (parent : Entries) : Option Entries :=
  let name := s.header.key.name
  match lookup name parent, s.header.doubled with
  | none, false => do
    let es ← s.pairs.foldlM addPair []
    return parent ++ [(s.header.key, .table .explicit (some s.span) es)]
  | some (.table .implied _ before), false => do
    let es ← s.pairs.foldlM addPair before
    return erase name parent ++ [(s.header.key, .table .explicit (some s.span) es)]
  | none, true => do
    let es ← s.pairs.foldlM addPair []
    return parent ++ [(s.header.key, .tables [] (s.span, es))]
  | some (.tables earlier last), true => do
    let es ← s.pairs.foldlM addPair []
    return replace name (.tables (earlier ++ [last]) (s.span, es)) parent
  | _, _ => none

/-- Puts a section into the table that its header names. -/
def addSection (root : Entries) (s : Section) : Option Entries :=
  descend false (fun _ => s.addTo) s.header.path .explicit root

/-! ### Reading -/

open Scan

/-- The last of the parts of a key, with those before it. -/
def splitLast : List Key → Option (List Key × Key)
  | [] => none
  | k :: ks => some (match splitLast ks with
    | some (path, last) => (k :: path, last)
    | none => ([], k))

/-- A pair and the rest of its line. -/
def pair : Scan Pair := do
  let (path, last) ← (splitLast (← key) : Option _)
  expect '='
  blanks
  let (v, span) ← spanned (value (2 * (← get).length + 2) depthLimit)
  lineRest
  return ⟨path, last, v, span⟩

/-- A header and the rest of its line. -/
def header : Scan Header := do
  let ((doubled, parts), span) ← spanned do
    expect '['
    let doubled ← accept '['
    let parts ← key
    expect ']'
    if doubled then expect ']'
    return (doubled, parts)
  lineRest
  let (path, last) ← (splitLast parts : Option _)
  return ⟨path, last, doubled, span⟩

/-- The lines of a document: the pairs up to the next header, and the sections from there on. -/
def lines : Nat → Scan (List Pair × List Section)
  | 0 => failure
  | n + 1 => do
    blanks
    match ← peek with
    | none => return ([], [])
    | some '#' | some '\n' | some '\r' =>
      lineRest
      lines n
    | some '[' =>
      let h ← header
      let (pairs, sections) ← lines n
      return ([], ⟨h, pairs⟩ :: sections)
    | some _ =>
      let p ← pair
      let (pairs, sections) ← lines n
      return (p :: pairs, sections)

theorem lines_nil (n : Nat) : lines (n + 1) [] = some (([], []), []) := by
  rw [lines]
  rfl

/-- The table of a document, if the text is one. -/
def document (text : String) : Option Entries := do
  let cs := text.toList
  let cs := if cs.head? = some '\ufeff' then cs.tail else cs
  let ((pairs, sections), _) ← lines (cs.length + 1) cs
  let root ← pairs.foldlM addPair []
  sections.foldlM addSection root

end ApiSurface.Toml
