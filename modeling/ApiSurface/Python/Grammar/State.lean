import ApiSurface.Python.Grammar.Production

/-! States of reading a source from left to right. A state holds the productions that the text read
so far has begun, each with how far it has come and with what may follow it. States are made when
they are needed: one is the start, the others are reached from it over terminals and constructs. -/

namespace ApiSurface.Python

/-- A production that has been begun: the steps done, and the terminals that may follow it. -/
structure Item where
  production : Nat
  done : Nat
  ahead : TerminalSet
deriving BEq, Repr, Inhabited

/-- A state: the productions begun, and for every construct that may begin here what may follow it
(no terminal at all for a construct that may not). -/
structure State where
  items : List Item
  fresh : Array TerminalSet
deriving Inhabited

/-- The second part of a state follows from the first. -/
instance : BEq State := ⟨fun s t => s.items == t.items⟩

/-- What may be done at a terminal: constructs that end before it, by their productions, and
whether the terminal itself may be taken. -/
structure Decision where
  reductions : List Nat
  shift : Bool
deriving Repr, Inhabited

namespace Grammar

def production (g : Grammar) (n : Nat) : Production := g.productions.getD n default

/-- What the next step of an item stands for, if a step is left. -/
def next? (g : Grammar) (i : Item) : Option Nat :=
  (g.production i.production).steps[i.done]?.map (·.symbol)

/-- The step of an item that was done last. -/
def last? (g : Grammar) (i : Item) : Option Step :=
  if i.done = 0 then none else (g.production i.production).steps[i.done - 1]?

/-- The rank of what was read of an item. -/
def rank (g : Grammar) (i : Item) : Int := match g.last? i with
  | some s => s.rank
  | none => 0

def starters (g : Grammar) (symbol : Nat) : TerminalSet := g.first.getD symbol 0

/-- Lets constructs begin, each with what may follow it, and with them the constructs that their
productions begin with. -/
def settle (g : Grammar) : Nat → List (Nat × TerminalSet) → Array TerminalSet → Array TerminalSet
  | 0, _, fresh => fresh
  | _, [], fresh => fresh
  | fuel + 1, (c, ahead) :: rest, fresh =>
    let old := fresh.getD c 0
    let all := old ||| ahead
    if all == old then settle g fuel rest fresh
    else
      let heads := (g.heads.getD c []).map fun h => (h.1, h.2.getD all)
      settle g fuel (heads ++ rest) (fresh.setIfInBounds c all)

/-- The state of some items. -/
def stateOf (g : Grammar) (items : List Item) : State :=
  let begun := items.filterMap fun i => match g.next? i with
    | some symbol =>
      if symbol < g.terminals.size then none
      else
        let after := match (g.production i.production).steps[i.done + 1]? with
          | some s => g.starters s.symbol
          | none => i.ahead
        some (symbol - g.terminals.size, after)
    | none => none
  { items, fresh := g.settle 100000 begun (Array.replicate g.heads.size 0) }

/-- Before a source nothing is read, and the end has to follow it, or the end stands here already. -/
def start (g : Grammar) : State :=
  let begun := (List.range g.productions.size).filter fun n =>
    (g.production n).construct == .source || (g.production n).steps.isEmpty
  g.stateOf (begun.map fun n => ⟨n, 0, .single (g.terminal .finish)⟩)

/-- The state after one more terminal or construct. -/
def after? (g : Grammar) (s : State) (symbol : Nat) : Option State :=
  let continued := s.items.filterMap fun i =>
    if g.next? i == some symbol then some { i with done := i.done + 1 } else none
  let started := (g.beginning.getD symbol []).filterMap fun p =>
    let ahead := s.fresh.getD (g.production p).construct.ctorIdx 0
    if ahead == 0 then none else some ⟨p, 1, ahead⟩
  let items := continued ++ started
  if items.isEmpty then none else some (g.stateOf items)

/-- The terminals that a state has a use for. -/
def expected (g : Grammar) (s : State) : TerminalSet :=
  s.items.foldl (fun found i => found ||| match g.next? i with
    | some symbol => g.starters symbol
    | none => i.ahead) 0

/-- Productions that are done at a terminal, with their common rank and the sides they lean to. Only
those of the highest rank are kept. -/
structure Finished where
  productions : List Nat := []
  rank : Int := 0
  left : Bool := false
  right : Bool := false
  neither : Bool := false

/-- Productions of one construct with one number of steps; where both are done they are the same. -/
def alike (g : Grammar) (p q : Nat) : Bool :=
  let a := g.production p
  let b := g.production q
  a.construct == b.construct && a.steps.size == b.steps.size

/-- Adds an item that is done. -/
def Finished.add (g : Grammar) (f : Finished) (i : Item) : Finished :=
  let rank := g.rank i
  let side := (g.last? i).bind (·.side)
  let joined (f : Finished) : Finished :=
    { productions :=
        if f.productions.any (g.alike i.production) then f.productions
        else f.productions ++ [i.production]
      rank
      left := f.left || side == some .left
      right := f.right || side == some .right
      neither := f.neither || side == none }
  if f.productions.isEmpty || rank == f.rank then joined f
  else if f.rank < rank then joined {}
  else f

/-- What may be done in a state at a terminal. Where a construct may end before the terminal and the
terminal may also be taken, the higher rank decides, then the side; a repetition ends, so that it
grows to the left; where nothing decides both are done. -/
def decide (g : Grammar) (s : State) (t : Nat) : Decision :=
  let done := s.items.filter fun i => (g.next? i).isNone && i.ahead.has t
  let pending := s.items.filter fun i => match g.next? i with
    | some symbol => (g.starters symbol).has t
    | none => false
  let finished := done.foldl (Finished.add g) {}
  let reductions := finished.productions
  if reductions.isEmpty || pending.isEmpty then ⟨reductions, !pending.isEmpty⟩
  else
    let begun := pending.filter (0 < ·.done)
    let constructs := (begun ++ done).map fun i => (g.production i.production).construct
    let repeats : Bool := match constructs with
      | c :: cs => c.role == .repetition && cs.all (· == c)
      | [] => false
    let higher := begun.any fun i => finished.rank < g.rank i
    let lower := begun.any fun i => g.rank i < finished.rank
    if repeats then ⟨reductions, false⟩
    else if higher && !lower then ⟨[], true⟩
    else if lower && !higher then ⟨reductions, false⟩
    else if !higher && finished.left && !finished.right && !finished.neither then
      ⟨reductions, false⟩
    else if !higher && finished.right && !finished.left && !finished.neither then ⟨[], true⟩
    else ⟨reductions, true⟩

end Grammar

end ApiSurface.Python
