import ApiSurface.Python.Grammar.Construct

/-! The grammar spelled out into productions. Terminals and constructs are numbered: the terminals
come first, in the order in which they are tried when one is to be supplied, and the constructs
follow. No production but that of an empty source is empty, so the first terminals of a production
are those of its first step. -/

namespace ApiSurface.Python

/-- A set of terminals: the bits of a number tell which terminals belong to it. -/
abbrev TerminalSet := Nat

namespace TerminalSet

def single (n : Nat) : TerminalSet := 1 <<< n

def has (s : TerminalSet) (n : Nat) : Bool := s.testBit n

/-- The terminals of a set below a bound, in order. -/
def upTo (s : TerminalSet) (bound : Nat) : List Nat := (List.range bound).filter s.has

end TerminalSet

/-- A step of a production: the number of a terminal or construct, with its rank and side. -/
structure Step where
  symbol : Nat
  rank : Int
  side : Option Side
deriving Inhabited

/-- One way to spell a construct out. -/
structure Production where
  construct : Construct
  steps : Array Step
deriving Inhabited

/-- A grammar in numbers. -/
structure Grammar where
  terminals : Array Terminal
  productions : Array Production
  /-- By symbol: the productions that begin with it. -/
  beginning : Array (List Nat)
  /-- By construct: the constructs that its productions begin with, each with what may follow it
  there, or nothing if what may follow the whole may follow it. -/
  heads : Array (List (Nat × Option TerminalSet))
  /-- By symbol: the terminals that it can begin with. -/
  first : Array TerminalSet
deriving Inhabited

namespace Construct

/-- All constructs in order. -/
def all : List Construct := (List.range (formatParts.ctorIdx + 1)).map Construct.ofNat

/-- The spellings of a construct. A repetition is two shorter ones, or one part. -/
def spellings (c : Construct) : List (List (Rule.Step Construct)) :=
  let own := Rule.spellings 0 none true c.rule
  if c.role == .repetition then
    [⟨.inr c, 0, none⟩, ⟨.inr c, 0, none⟩] :: own
  else
    own.foldl (fun found s => if found.contains s then found else found ++ [s]) []

end Construct

namespace Grammar

/-- Terminals that carry the line structure and the strings of a source. -/
def layout : List Terminal := [.newline, .indent, .dedent, .quote, .content, .braces, .unquote]

/-- The terminals of the spellings in the order of their numbers: the end and the name, then by
first use, then those that may stand anywhere, then those of the layout. -/
def number (spellings : List (Construct × List (Rule.Step Construct))) : List Terminal :=
  let special := layout ++ [.comment, .joint]
  let used := spellings.foldl (fun found s => s.2.foldl (fun found step =>
    match step.symbol with
    | .inl t => if found.contains t || special.contains t then found else found ++ [t]
    | .inr _ => found) found) [.finish, .name]
  used ++ [.comment, .joint] ++ layout

/-- Lets every symbol begin with what its productions begin with, until nothing is added. -/
def firsts (terminals : Nat) (productions : Array Production) :
    Nat → Array TerminalSet → Array TerminalSet
  | 0, found => found
  | rounds + 1, found =>
    let grown := productions.foldl (fun found p =>
      match p.steps[0]? with
      | some s =>
        found.modify (terminals + p.construct.ctorIdx) (· ||| found.getD s.symbol 0)
      | none => found) found
    if grown == found then found else firsts terminals productions rounds grown

/-- The grammar of some constructs. -/
def ofConstructs (constructs : List Construct) : Grammar :=
  let spelled := constructs.flatMap fun c => c.spellings.map (c, ·)
  let terminals := number spelled
  let size := terminals.length
  let symbol : Terminal ⊕ Construct → Nat
    | .inl t => terminals.idxOf t
    | .inr c => size + c.ctorIdx
  let productions : Array Production := (spelled.map fun s =>
    ({ construct := s.1
       steps := (s.2.map fun step => ⟨symbol step.symbol, step.rank, step.side⟩).toArray } :
      Production)).toArray
  let symbols := size + constructs.length
  let first := firsts size productions symbols
    ((Array.range symbols).map fun n => if n < size then TerminalSet.single n else 0)
  let beginning := (Array.range productions.size).foldr (fun n found =>
    match (productions.getD n default).steps[0]? with
    | some s => found.modify s.symbol (n :: ·)
    | none => found) (Array.replicate symbols [])
  let heads := productions.foldl (fun found p =>
    match p.steps[0]? with
    | some s =>
      if s.symbol < size then found
      else
        let after := p.steps[1]?.map fun next => first.getD next.symbol 0
        let head := (s.symbol - size, after)
        found.modify p.construct.ctorIdx fun hs => if hs.contains head then hs else head :: hs
    | none => found) (Array.replicate constructs.length [])
  { terminals := terminals.toArray, productions, beginning, heads, first }

/-- The number of a terminal. -/
def terminal (g : Grammar) (t : Terminal) : Nat := g.terminals.toList.idxOf t

/-- The number of a construct. -/
def construct (g : Grammar) (c : Construct) : Nat := g.terminals.size + c.ctorIdx

/-- The grammar of Python sources. -/
def python : Grammar := ofConstructs Construct.all

end Grammar

end ApiSurface.Python
