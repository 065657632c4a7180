import ApiSurface.Python.Repair.Token

/-! Trees of what was read of a source that may be faulty, with the cost of their faults. Text that
fits no rule costs by the number of errors, of trees and of bytes and lines in it; a terminal that had
to be supplied costs a fixed amount. -/

namespace ApiSurface.Python.Repair

/-- What a tree stands for. -/
inductive Label where
  | terminal (t : Terminal)
  | construct (c : Construct)
  /-- Text that fits no rule. -/
  | error
  /-- Terminals passed over in search of one that fits. -/
  | skipped
deriving DecidableEq, Repr, Inhabited

namespace Label

/-- A tree with this label is a node of the syntax tree. -/
def isShown : Label → Bool
  | terminal t => t.isShown
  | construct c => c.role == .shown
  | error => true
  | skipped => false

/-- A tree with this label holds what does not fit. -/
def isLoss : Label → Bool
  | error | skipped => true
  | _ => false

end Label

namespace Cost

/-- An error, wherever it is. -/
def error : Nat := 500

/-- A node in an error. -/
def node : Nat := 100

/-- A line end in an error; a byte costs one. -/
def line : Nat := 30

/-- A terminal that was supplied: it costs more than a short error with one node in it. -/
def supplied : Nat := error + 110

/-- The text between two places. -/
def text (start stop : Place) : Nat :=
  (stop.byte - start.byte) + line * (stop.position.row - start.position.row)

end Cost

/-- What is known of a tree without looking at its parts. -/
structure Summary where
  label : Label
  /-- Where the blanks before the tree begin. -/
  margin : Place
  start : Place
  stop : Place
  /-- The tree may stand anywhere, as a comment may, and is no part of a production. -/
  extra : Bool := false
  /-- The terminal is not in the source. -/
  supplied : Bool := false
  /-- The memory after a terminal of the layout. -/
  memory : Option Memory := none
  /-- The cost of the faults in the tree. -/
  cost : Nat := 0
  /-- The number of nodes of the syntax tree that it stands for if it is none itself. -/
  shown : Nat := 0
  /-- The number of nodes below it. -/
  nodes : Nat := 0
deriving Inhabited

/-- A tree. -/
inductive Tree where
  | mk (summary : Summary) (children : List Tree)
deriving Inhabited

namespace Tree

def summary : Tree → Summary
  | mk s _ => s

def children : Tree → List Tree
  | mk _ cs => cs

def label (t : Tree) : Label := t.summary.label

def extra (t : Tree) : Bool := t.summary.extra

def stop (t : Tree) : Place := t.summary.stop

def cost (t : Tree) : Nat := t.summary.cost

/-- The nodes of the syntax tree that a tree holds, itself included. Skipped terminals count once
more. -/
def nodes (t : Tree) : Nat :=
  t.summary.nodes + (if t.label.isShown then 1 else 0) + if t.label = .skipped then 1 else 0

/-- The tree with the mark that it may stand anywhere. -/
def asExtra : Tree → Tree
  | mk s cs => mk { s with extra := true } cs

/-- What a tree costs by being part of an error: as many nodes as it shows. -/
def loss (t : Tree) : Nat :=
  if t.extra || (t.label = .error && t.children.isEmpty) then 0
  else if t.label.isShown then Cost.node
  else Cost.node * t.summary.shown

/-- A number for each of some trees, added up. -/
def total (count : Tree → Nat) (trees : List Tree) : Nat :=
  trees.foldr (fun t n => count t + n) 0

/-- The tree of some parts; without parts it stands at the given place. The cost of terminals skipped
earlier is counted anew where they become part of a larger error. -/
def ofChildren (label : Label) (place : Place) (children : List Tree) : Tree :=
  let margin := (children.head?.map (·.summary.margin)).getD place
  let start := (children.head?.map (·.summary.start)).getD place
  let stop := (children.getLast?.map (·.stop)).getD place
  let inner := total (fun t => if t.label = .skipped then 0 else t.cost) children
  let own :=
    if label.isLoss then total loss children + Cost.error + Cost.text start stop else 0
  mk { label, margin, start, stop
       cost := inner + own
       shown := total (fun t => if t.label.isShown then 1 else t.summary.shown) children
       nodes := total (fun t => t.summary.nodes + if t.label.isShown then 1 else 0) children }
    children

/-- The tree of a token after blanks that begin at a place. -/
def ofToken (margin : Place) (t : Token) : Tree :=
  mk { label := (t.terminal.map Label.terminal).getD .error
       margin, start := t.start, stop := t.stop
       extra := t.terminal == some .finish, memory := t.memory } []

/-- A terminal that is not in the source. -/
def supply (t : Terminal) (p : Place) : Tree :=
  mk { label := .terminal t, margin := p, start := p, stop := p, supplied := true
       cost := Cost.supplied } []

/-- Trees that make no difference to what is read after them. Of two faulty trees one is enough. -/
def similar (a b : Tree) : Bool :=
  let width (t : Tree) : Nat × Nat :=
    (t.summary.start.byte - t.summary.margin.byte, t.stop.byte - t.summary.start.byte)
  a.label == b.label &&
    ((a.cost != 0 && b.cost != 0) ||
      (width a == width b && a.children.length == b.children.length && a.extra == b.extra &&
        a.summary.memory == b.summary.memory))

/-- Trees without the ones at the end that may stand anywhere, and those. -/
def splitExtras (ts : List Tree) : List Tree × List Tree :=
  let extras := (ts.reverse.takeWhile extra).reverse
  (ts.take (ts.length - extras.length), extras)

/-- Of two trees for one text the second is better if its faults cost less, and in case of a tie if
there are faults at all. -/
def yields (first second : Tree) : Bool :=
  second.cost < first.cost || (second.cost == first.cost && first.cost != 0)

end Tree

end ApiSurface.Python.Repair
