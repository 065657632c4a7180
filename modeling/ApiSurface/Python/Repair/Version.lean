import ApiSurface.Python.Repair.Tree

/-! Versions of what a faulty source may have been meant to be. A version is what was read under some
choice of repairs, as trees that are still to be put together, with the states between them. Versions
that have come to the same place in the same state at the same cost are one version from there on,
which keeps their pasts side by side. -/

namespace ApiSurface.Python.Repair

/-- Trees that are still to be put together, the last one on top, with the states between them and
with the cost and the number of nodes up to there. -/
inductive Stack where
  | bottom (state : State) (place : Place)
  | push (below : Stack) (tree : Tree) (state : State) (cost nodes : Nat)
deriving Inhabited

namespace Stack

def state : Stack → State
  | bottom s _ => s
  | push _ _ s _ _ => s

def place : Stack → Place
  | bottom _ p => p
  | push _ t _ _ _ => t.stop

def cost : Stack → Nat
  | bottom .. => 0
  | push _ _ _ c _ => c

def nodes : Stack → Nat
  | bottom .. => 0
  | push _ _ _ _ n => n

/-- One tree more. -/
def add (s : Stack) (t : Tree) (state : State) : Stack :=
  push s t state (s.cost + t.cost) (s.nodes + t.nodes)

/-- Some trees more that may stand anywhere. -/
def addExtras (s : Stack) (ts : List Tree) : Stack :=
  ts.foldl (fun s t => s.add t s.state) s

/-- All trees, the last one first. -/
def trees : Stack → List Tree
  | bottom .. => []
  | push s t _ _ _ => t :: trees s

/-- A number of trees from the top, first ones first, with the extra ones among them, and what is
below. -/
def pop? (s : Stack) (count : Nat) (popped : List Tree) : Option (Stack × List Tree) :=
  match count, s with
  | 0, s => some (s, popped)
  | _ + 1, bottom .. => none
  | n + 1, push below t _ _ _ => below.pop? (if t.extra then n + 1 else n) (t :: popped)

/-- Stacks at one place in one state at one cost. -/
def meets (a b : Stack) : Bool :=
  a.place.byte == b.place.byte && a.cost == b.cost && a.state == b.state

/-- Stacks of which one is enough. -/
def similar : Stack → Stack → Bool
  | bottom .., bottom .. => true
  | push a t s c n, push b u r d m =>
    (push a t s c n).meets (push b u r d m) && t.similar u && a.similar b
  | _, _ => false

end Stack

/-- The most stacks that a version keeps. -/
def maxStacks : Nat := 8

/-- Adds a stack to others unless one of them is enough. -/
def addStack (stackList : List Stack) (s : Stack) : List Stack :=
  if maxStacks ≤ stackList.length || stackList.any (·.similar s) then stackList else stackList ++ [s]

/-- The stacks below a number of trees, with those trees: shorter ways down first, and the ways that
end in one place, state and cost together. -/
def popAll (stackList : List Stack) (count : Nat) : List (List (Stack × List Tree)) :=
  let ways := stackList.filterMap fun s => s.pop? count []
  let sorted := ways.mergeSort fun a b => a.2.length ≤ b.2.length
  sorted.foldl (fun groups way =>
    let (before, after) := groups.span fun g => !(g.any fun w => w.1.meets way.1)
    match after with
    | g :: rest => before ++ (g ++ [way]) :: rest
    | [] => groups ++ [[way]]) []

/-- A place further back where reading could go on: how many trees lie above it, and what is below. -/
structure Exit where
  depth : Nat
  stack : Stack

/-- What a version is doing. -/
inductive Mode where
  | reading
  /-- It met a token that it has no use for. -/
  | stopped (token : Tree)
  /-- It looks for a token that fits one of its exits, past some that did not. -/
  | lost (exits : List Exit) (skipped : Option Tree)
  /-- It has come to an end. -/
  | over
deriving Inhabited

/-- A version. -/
structure Version where
  /-- Its pasts, which end in one state; there is at least one. -/
  stackList : List Stack
  mode : Mode := .reading
  memory : Option Memory := none
  /-- The number of nodes that it had at its last fault. -/
  marked : Nat := 0
deriving Inhabited

namespace Version

/-- The first past. -/
def stack (v : Version) : Stack := v.stackList.headD default

def state (v : Version) : State := v.stack.state

/-- The terminals passed over since the last fault. -/
def skipped? (v : Version) : Option Tree :=
  match v.mode with
  | .lost _ skipped => skipped
  | _ => none

def isReading (v : Version) : Bool := v.mode matches .reading

def isLost (v : Version) : Bool := v.mode matches .lost ..

def isStopped (v : Version) : Bool := v.mode matches .stopped _

def isOver (v : Version) : Bool := v.mode matches .over

def place (v : Version) : Place := match v.skipped? with
  | some t => t.stop
  | none => v.stack.place

/-- The cost so far. A version that stopped or is lost pays for an error at once. -/
def cost (v : Version) : Nat :=
  match v.mode with
  | .lost _ (some t) => v.stack.cost + t.cost
  | .lost _ none | .stopped _ => v.stack.cost + Cost.error
  | _ => v.stack.cost

/-- The number of nodes read. -/
def nodes (v : Version) : Nat :=
  (v.stackList.map (·.nodes)).foldl max 0 + match v.skipped? with
    | some t => t.nodes
    | none => 0

/-- The version with one tree more. -/
def add (v : Version) (t : Tree) (state : State) : Version :=
  { v with stackList := v.stackList.map (·.add t state) }

/-- Something of the text was read since the last fault. -/
def hasAdvanced (v : Version) : Bool :=
  v.stack.cost == 0 || advanced v.stack
where
  advanced : Stack → Bool
    | .bottom .. => false
    | .push below t _ _ n =>
      t.summary.margin.byte < t.stop.byte || (v.marked < n && t.cost == 0 && advanced below)

/-- Versions that are one from here on. -/
def meets (v w : Version) : Bool :=
  ((v.isReading && w.isReading && v.state == w.state) || (v.isLost && w.isLost)) &&
    v.place.byte == w.place.byte && v.cost == w.cost && v.memory == w.memory

/-- Two versions that are one from here on. -/
def join (v w : Version) : Version :=
  if v.isLost then { v with marked := v.nodes }
  else { v with stackList := w.stackList.foldl addStack v.stackList }

/-- A mark that is not ahead of what was read: going back may have lost nodes. -/
def clampMark (v : Version) : Version := { v with marked := min v.marked v.nodes }

end Version

/-- What decides between two versions: the cost, the nodes read since the last fault, and whether a
version has not yet got over its last fault. -/
structure Standing where
  cost : Nat
  nodes : Nat
  lost : Bool

def Version.standing (v : Version) : Standing where
  cost := if v.isStopped then v.cost + Cost.node else v.cost
  nodes := v.nodes - v.marked
  lost := !v.isReading

/-- How two versions compare. -/
inductive Preference where
  /-- Only the first is worth keeping. -/
  | first
  | ratherFirst
  | neither
  | ratherSecond
  /-- Only the second is worth keeping. -/
  | second
deriving DecidableEq, Repr

namespace Standing

/-- The advantage in cost from which on the dearer version is given up; it shrinks as the cheaper
version reads on. -/
def margin : Nat := 16 * Cost.node

/-- A version that reads on is better than one that does not; then the lower cost decides. -/
def compare (a b : Standing) : Preference :=
  if a.lost != b.lost then
    if b.lost then if a.cost < b.cost then .first else .ratherFirst
    else if b.cost < a.cost then .second else .ratherSecond
  else if a.cost < b.cost then
    if margin < (b.cost - a.cost) * (a.nodes + 1) then .first else .ratherFirst
  else if b.cost < a.cost then
    if margin < (a.cost - b.cost) * (b.nodes + 1) then .second else .ratherSecond
  else .neither

end Standing

end ApiSurface.Python.Repair
