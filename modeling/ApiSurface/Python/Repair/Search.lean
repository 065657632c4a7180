import ApiSurface.Python.Repair.Version

/-! The search for the cheapest repair of a faulty source. All versions read on side by side. One that
meets a terminal it has no use for stops; if every version has stopped, the best of them goes on in
two ways. It may take it that one terminal is missing. Or it is lost: it passes over terminals until
one comes that could have followed some earlier place, and makes an error of all that lies between.
Versions that have become too dear are given up. -/

namespace ApiSurface.Python.Repair

/-- The most versions that read on. -/
def maxVersions : Nat := 6

/-- The most versions that there are for a while. -/
def maxBranches : Nat := 10

/-- How far back a lost version looks. -/
def maxDepth : Nat := 16

/-- A search: the versions, and the best tree of the whole source so far. -/
structure Search where
  versions : Array Version
  result : Option Tree := none
  /-- How many trees of the whole source there were. -/
  accepted : Nat := 0

namespace Search

def version (s : Search) (i : Nat) : Version := s.versions.getD i default

def size (s : Search) : Nat := s.versions.size

def set (s : Search) (i : Nat) (v : Version) : Search :=
  { s with versions := s.versions.setIfInBounds i v }

def modify (s : Search) (i : Nat) (f : Version → Version) : Search :=
  { s with versions := s.versions.modify i f }

def push (s : Search) (v : Version) : Search := { s with versions := s.versions.push v }

def erase (s : Search) (i : Nat) : Search :=
  { s with versions := s.versions.eraseIdxIfInBounds i }

/-- Puts a version in the place of another. -/
def move (s : Search) (source target : Nat) : Search :=
  if source = target then s else (s.set target (s.version source)).erase source

/-- Makes a version one with the first of some others that it meets. -/
def join? (s : Search) (others : List Nat) (i : Nat) : Option Search := do
  let j ← others.find? fun j => (s.version j).meets (s.version i)
  return (s.set j ((s.version j).join (s.version i))).erase i

/-- Ends a version. -/
def giveUp (s : Search) (i : Nat) : Search := s.modify i fun v => { v with mode := .over }

/-- Offers a tree of the whole source. -/
def offer (s : Search) (root : Tree) : Search :=
  { s with
    accepted := s.accepted + 1
    result := match s.result with
      | some best => some (if best.yields root then root else best)
      | none => some root }

/-- Puts the trees at the end of a version together by a production. -/
def reduce (g : Grammar) (s : Search) (i p : Nat) : Search :=
  let v := s.version i
  let construct := (g.production p).construct
  (popAll v.stackList (g.production p).steps.size).foldl (fun s ways =>
    let parents := ways.map fun way =>
      let (parts, extras) := Tree.splitExtras way.2
      (Tree.ofChildren (.construct construct) way.1.place parts, extras)
    match ways, parents with
    | way :: _, parent :: others =>
      match g.after? way.1.state (g.construct construct) with
      | some state =>
        if maxBranches < s.size then s
        else
          let (tree, extras) := others.foldl (fun best other =>
            if best.1.yields other.1 then other else best) parent
          let bases := (ways.map (·.1)).foldl addStack []
          let grown := s.push
            { stackList := bases.map fun b => (b.add tree state).addExtras extras
              memory := v.memory, marked := v.marked }
          (grown.join? ((List.range s.size).filter (· != i)) s.size).getD grown
      | none => s
    | _, _ => s) s

/-- Does so by several productions, and gives the first new version of each if there is one. -/
def reduceEach (g : Grammar) (i : Nat) : List Nat → Search → Search × List (Option Nat)
  | [], s => (s, [])
  | p :: ps, s =>
    let reduced := s.reduce g i p
    let (final, found) := reduceEach g i ps reduced
    (final, (if s.size < reduced.size then some s.size else none) :: found)

/-- The whole source is read: offers the trees that a version has of it. -/
def accept (s : Search) (i : Nat) (finish : Tree) : Search :=
  let trees := (s.version i).stackList.map (·.trees)
  let sorted := trees.mergeSort fun a b => a.length ≤ b.length
  let roots := sorted.filterMap fun ts =>
    match ts.span (·.extra) with
    | (after, top :: before) =>
      some (.ofChildren top.label finish.stop (before.reverse ++ top.children ++ after.reverse ++ [finish]))
    | _ => none
  let s := s.modify i fun v => { v.add finish v.state with mode := .over }
  roots.foldl offer s

/-- Lets a version read a token; `t` is its number, if it is a terminal. -/
def take (g : Grammar) (i : Nat) (token : Tree) (t : Option Nat) : Nat → Search → Search
  | 0, s => s.giveUp i
  | fuel + 1, s =>
    let v := s.version i
    let kept := (token.summary.memory.or v.memory)
    match token.label, t with
    | .terminal terminal, some t =>
      if terminal.isExtra then s.set i { v.add token.asExtra v.state with memory := kept }
      else
        let d := g.decide v.state t
        if d.reductions.any fun p => (g.production p).construct == .source then s.accept i token
        else
          let (reduced, found) := s.reduceEach g i d.reductions
          if d.shift then
            match g.after? v.state t with
            | some state => reduced.modify i fun v => { v.add token state with memory := kept }
            | none => reduced.giveUp i
          else match found.reverse.findSome? id with
            | some j => (reduced.move j i).take g i token (some t) fuel
            | none => reduced.modify i fun v =>
                { v with mode := .stopped token, marked := v.nodes }
    | _, _ => s.set i { v with mode := .stopped token, marked := v.nodes }

/-- A better version than one that has a given cost. -/
def beats (s : Search) (i cost : Nat) : Bool :=
  let v := s.version i
  let standing : Standing := ⟨cost, v.nodes - v.marked, false⟩
  s.result.any (·.cost ≤ cost) ||
    (List.range s.size).any fun j =>
      let w := s.version j
      j != i && (w.isReading || w.isLost) && v.place.byte ≤ w.place.byte &&
        match standing.compare w.standing with
        | .second => true
        | .ratherSecond => w.meets v
        | _ => false

/-- The versions that go on from an exit of a lost one, over an error of all that lies between. -/
def resume (v : Version) (skipped : Option Tree) (e : Exit) : List Version :=
  (popAll v.stackList (e.depth - 1)).filterMap fun ways =>
    match ways with
    | [] => none
    | way :: _ =>
      if way.1.state != e.stack.state then none
      else
        let between := way.2 ++ skipped.toList
        let bases := (ways.map (·.1)).foldl addStack []
        let errors := bases.filterMap fun
          | .push below t _ _ _ => if t.label = .error then some (below, t.children) else none
          | _ => none
        let (bases, all) := match errors with
          | (below, inner) :: _ => ([below], inner ++ between)
          | [] => (bases, between)
        let (parts, extras) := Tree.splitExtras all
        let error := (Tree.ofChildren .error way.1.place parts).asExtra
        let added := if parts.isEmpty then extras else error :: extras
        some { stackList := bases.map (·.addExtras added), memory := v.memory, marked := v.marked }

/-- A state has a use for a terminal. -/
def uses (g : Grammar) (s : State) (t : Nat) : Bool :=
  (g.terminals.getD t .finish).isExtra || (g.expected s).has t

/-- The first exit of a lost version that has a use for a terminal and at which no other version is
better, taken. -/
def leave (g : Grammar) (i t known : Nat) (skipped : Option Tree) : List Exit → Search → Search
  | [], s => s
  | e :: es, s =>
    let v := s.version i
    let back := e.stack.place
    let here := v.place
    let taken := (List.range known).any fun j =>
      let w := s.version j
      (w.isReading || w.isStopped) && w.place.byte == here.byte && w.state == e.stack.state
    if back.byte == here.byte || taken then leave g i t known skipped es s
    else if s.beats i (v.cost + Cost.node * e.depth + Cost.text back here) then s
    else if uses g e.stack.state t then
      match resume v skipped e with
      | [] => leave g i t known skipped es s
      | vs => vs.foldl push s
    else leave g i t known skipped es s

/-- Lets a lost version meet a token: it goes on from an exit, or passes over the token, or both. At
the end of the source all that it read is one error. -/
def recover (g : Grammar) (s : Search) (i : Nat) (token : Tree) (t : Option Nat) : Search :=
  let v := s.version i
  let (exits, skipped) := match v.mode with
    | .lost exits skipped => (exits, skipped)
    | _ => ([], none)
  let left := match t with
    | some t => leave g i t s.size skipped exits s
    | none => s
  let resumed : Bool := s.size < left.size
  if resumed && (maxVersions < left.size || token.summary.memory.isSome) then left.giveUp i
  else if token.label = .terminal .finish then
    let all := v.stackList.map fun base => base.trees.reverse ++ skipped.toList ++ [token]
    let sorted := all.mergeSort fun a b => a.length ≤ b.length
    sorted.foldl (fun s ts => s.offer (.ofChildren .error v.place ts)) (left.giveUp i)
  else if left.beats i (v.cost + Cost.node + Cost.text token.summary.margin token.stop) then
    left.giveUp i
  else
    let extra : Bool := match token.label with
      | .terminal terminal => terminal.isExtra
      | _ => false
    let passed := Tree.ofChildren .skipped v.place [if extra then token.asExtra else token]
    let all := match skipped with
      | some before => Tree.ofChildren .skipped v.place [before, passed]
      | none => passed
    left.set i { v with mode := .lost exits (some all), memory := token.summary.memory.or v.memory }

/-- What a state can do at some terminals: whether it can take one of them, and the productions that
are done at one. -/
def choices (g : Grammar) (s : State) (terminals : List Nat) : Bool × List Nat :=
  terminals.foldl (fun found t =>
    let d := g.decide s t
    let done := d.reductions.filter fun p => (g.production p).steps.size != 0
    (found.1 || d.shift, done.foldl (fun ps p =>
      if ps.any (g.alike p) then ps else ps ++ [p]) found.2)) (false, [])

/-- Puts together whatever can be, in a version and in those that come of it, before one terminal or
before any. Tells whether one of them can take the terminal; before one terminal, those that cannot
are given up. -/
def exhaust (g : Grammar) (only : Option Nat) (start first : Nat) :
    Nat → Nat → Bool → Nat → Search → Search × Bool
  | 0, _, able, _, s => (s, able)
  | fuel + 1, round, able, i, s =>
    let size := s.size
    if size ≤ i then (s, able)
    else match s.join? ((List.range i).filter (first ≤ ·)) i with
      | some joined => exhaust g only start first fuel (round + 1) able i joined
      | none =>
        let state := (s.version i).state
        let terminals := match only with
          | some t => [t]
          | none => ((g.expected state).upTo g.terminals.size).filter (0 < ·)
        let (shift, reductions) := choices g state terminals
        let (reduced, found) := s.reduceEach g i reductions
        let next := if i = start then size else i + 1
        if shift then exhaust g only start first fuel (round + 1) true next reduced
        else match found.getLast?.join, decide (round < maxVersions) with
          | some j, true => exhaust g only start first fuel (round + 1) able i (reduced.move j i)
          | _, _ =>
            let s := if only.isSome then reduced.erase i else reduced
            exhaust g only start first fuel (round + 1) able next s

/-- Enough for any of the loops over versions. -/
def rounds : Nat := 10000

/-- Something may end at a terminal after another one was supplied. -/
def endsAfter (g : Grammar) (s : State) (supplied t : Nat) : Bool :=
  (s.items.any fun i =>
    i.ahead.has t && g.next? i == some supplied &&
      (g.production i.production).steps.size == i.done + 1) ||
    (g.beginning.getD supplied []).any fun p =>
      (g.production p).steps.size == 1 &&
        TerminalSet.has (s.fresh.getD (g.production p).construct.ctorIdx 0) t

/-- Supplies one of some terminals before another, the first that fits, in a new version; tells
whether one did. -/
def supplyOne (g : Grammar) (i t : Nat) : List Nat → Search → Search × Bool
  | [], s => (s, false)
  | k :: ks, s =>
    let v := s.version i
    match (if (g.decide v.state k).shift then g.after? v.state k else none), g.terminals[k]? with
    | some state, some terminal =>
      if (g.decide state t).reductions.isEmpty then supplyOne g i t ks s
      else
        let grown := s.push (v.add (.supply terminal v.place) state)
        let (final, able) := exhaust g (some t) s.size grown.size rounds 0 false s.size grown
        if able then (final, true) else supplyOne g i t ks final
    | _, _ => supplyOne g i t ks s

/-- Supplies a terminal before another in the first of some versions where one fits. -/
def supply (g : Grammar) (t : Nat) : List Nat → Search → Search
  | [], s => s
  | i :: is, s =>
    let state := (s.version i).state
    let fitting := ((g.expected state).upTo g.terminals.size).filter fun k =>
      0 < k && endsAfter g state k t
    let (final, able) := supplyOne g i t fitting s
    if able then final else supply g t is final

/-- The places further back where reading could go on, nearest first; of those at one depth in one
state only the first. -/
def exits : Nat → List (Nat × Stack) → List Exit → List Exit
  | 0, _, found => found.reverse
  | fuel + 1, stackList, found =>
    let near := stackList.filter (·.1 ≤ maxDepth)
    let found := near.foldl (fun found (depth, stack) =>
      let known := (found.takeWhile (depth ≤ ·.depth)).any fun e =>
        e.depth == depth && e.stack.state == stack.state
      if known then found else ⟨depth, stack⟩ :: found) found
    let below := near.filterMap fun
      | (depth, .push below t _ _ _) => some (if t.extra then depth else depth + 1, below)
      | _ => none
    if below.isEmpty then found.reverse else exits fuel below found

/-- Lets a version that has stopped go on, with a terminal supplied and lost. -/
def restart (g : Grammar) (s : Search) (i : Nat) (token : Tree) (t : Option Nat) : Search :=
  let before := s.size
  let s := s.modify i fun v => { v with mode := .reading }
  let (s, _) := exhaust g none i before rounds 0 false i s
  let after := s.size
  let all := i :: (List.range after).filter (before ≤ ·)
  let s := match t with
    | some t => supply g t all s
    | none => s
  let stackList := (all.flatMap fun j => (s.version j).stackList).foldl addStack []
  let deepest := (stackList.map fun b => b.trees.length).foldl max 0
  let v := { s.version i with stackList }
  let lost : Version :=
    { v with
      marked := v.nodes
      mode := .lost (exits (deepest + 1) (stackList.map ((1, ·))) []) none }
  let s := s.set i lost
  let kept := s.versions.extract 0 before ++ s.versions.extract after s.size
  { s with versions := kept }.recover g i token t

/-- The number of a token's terminal. -/
def numberOf (g : Grammar) (token : Token) : Option Nat := token.terminal.map g.terminal

/-- Lets a version read the next token. -/
def advance (g : Grammar) (s : Search) (i : Nat) : Search :=
  let v := s.version i
  let memory := v.memory.getD {}
  if v.isLost then
    let token := (searchToken g memory v.place).keyword fun word =>
      g.terminals.contains word
    s.recover g i (.ofToken v.place token) (numberOf g token)
  else
    let token := nextToken g (g.expected v.state) memory v.hasAdvanced v.place
    s.take g i (.ofToken v.place token) (numberOf g token) rounds

/-- Orders the versions, better ones first, joins those that meet, and gives up those that are not
worth keeping; `i` is the version to be placed and `j` one before it. -/
def place (standing : Standing) : Nat → Nat → Nat → Search → Search × Nat
  | 0, i, _, s => (s, i + 1)
  | fuel + 1, i, j, s =>
    if i ≤ j then (s, i + 1)
    else
      let joined := if (s.version j).meets (s.version i) then s.join? [j] i else none
      match (s.version j).standing.compare standing, joined with
      | .first, _ => (s.erase i, i)
      | .second, _ => place standing fuel (i - 1) j (s.erase j)
      | _, some joined => (joined, i)
      | .ratherSecond, none =>
        place standing fuel i (j + 1) ((s.set i (s.version j)).set j (s.version i))
      | _, none => place standing fuel i (j + 1) s

/-- Places all versions, and gives the least cost of one that reads on. -/
def order : Nat → Nat → Option Nat → Search → Search × Option Nat
  | 0, _, least, s => (s, least)
  | fuel + 1, i, least, s =>
    if s.size ≤ i then (s, least)
    else if (s.version i).isOver then order fuel i least (s.erase i)
    else
      let standing := (s.version i).standing
      let least := if standing.lost then least else some (least.elim standing.cost (min standing.cost))
      let (s, next) := place standing rounds i 0 s
      order fuel next least s

/-- Lets the first version that has stopped go on if none before it reads on, and gives up the
others; `count` versions are left to look at. -/
def wake (g : Grammar) : Nat → Nat → Bool → Option Nat → Search → Search × Option Nat
  | 0, _, _, least, s => (s, least)
  | count + 1, i, awake, least, s =>
    let v := s.version i
    match v.mode with
    | .stopped token =>
      if !awake && s.accepted < maxVersions then
        let t := match token.label with
          | .terminal terminal => some (g.terminal terminal)
          | _ => none
        wake g count (i + 1) true (some v.cost) (s.restart g i token t)
      else wake g count i awake least (s.erase i)
    | _ => wake g count (i + 1) true least s

/-- Keeps the versions that are worth it, and gives the least cost that one can come to. -/
def condense (g : Grammar) (s : Search) : Search × Option Nat :=
  let marked := { s with versions := s.versions.map Version.clampMark }
  let (ordered, least) := order rounds 0 none marked
  let kept := { ordered with versions := ordered.versions.take maxVersions }
  wake g kept.size 0 false least kept

/-- Lets a version read on until it is ahead of the others. -/
def catchUp (g : Grammar) (i : Nat) : Nat → Nat → Search → Search × Nat
  | 0, furthest, s => (s, furthest)
  | fuel + 1, furthest, s =>
    let v := s.version i
    if s.size ≤ i || !(v.isReading || v.isLost) then (s, furthest)
    else
      let s := s.advance g i
      let byte := (s.version i).place.byte
      if furthest < byte || (0 < i && byte == furthest) then (s, byte)
      else catchUp g i fuel furthest s

/-- Lets every version read on, also those that come up meanwhile. -/
def sweep (g : Grammar) : Nat → Nat → Nat → Search → Search × Nat
  | 0, _, furthest, s => (s, furthest)
  | fuel + 1, i, furthest, s =>
    if s.size ≤ i then (s, furthest)
    else
      let (s, furthest) := catchUp g i rounds furthest s
      sweep g fuel (i + 1) furthest s

/-- Reads until no version can come to a better tree than the best so far. -/
def run (g : Grammar) : Nat → Nat → Search → Option Tree
  | 0, _, s => s.result
  | fuel + 1, furthest, s =>
    if s.versions.isEmpty then s.result
    else
      let (swept, furthest) := sweep g rounds 0 furthest s
      let (s, least) := condense g swept
      match s.result, least with
      | some best, some least => if best.cost < least then some best else run g fuel furthest s
      | some best, none => some best
      | none, _ => run g fuel furthest s

end Search

/-- The tree of a source with the cheapest repair. -/
def Tree.ofText? (g : Grammar) (source : List Char) : Option Tree :=
  Search.run g (100 * source.length + 1000) 0
    { versions := #[{ stackList := [.bottom g.start { rest := source }] }] }

end ApiSurface.Python.Repair
