/-! Syntax trees of Python sources. A tree keeps what the public surface needs: statement lists,
function and class definitions with their names, decorated definitions and clauses, with every other
statement as a leaf. A tree of a faulty text also holds error nodes (text that fits no rule) and
missing nodes (a token that had to be supplied). Every node carries a flag that is set when the node
or some node below it is an error or a missing node, so that a search for the first fault can leave
out the parts without one. -/

namespace ApiSurface.Python

/-- A place in a text: the line, and the byte within the line, both counted from zero. -/
structure Position where
  row : Nat
  column : Nat
deriving DecidableEq, Repr, Inhabited

/-- What a node stands for. -/
inductive Kind where
  /-- The whole text: a list of statements. -/
  | module
  /-- The body of a compound statement or clause: a list of statements. -/
  | block
  /-- A function definition. -/
  | function (name : String) (isAsync : Bool)
  /-- A class definition. -/
  | classDefinition (name : String)
  /-- Decorators together with the definition they stand before. -/
  | decorated
  /-- A statement with bodies: `if`, `for`, `while`, `try`, `with`, `match`. -/
  | compound
  /-- A further part of a compound statement with a body of its own: `elif`, `else`, `case`, … -/
  | clause
  /-- Any statement without a body. -/
  | simple
  /-- Text that fits no rule of the grammar. -/
  | error
  /-- A token that the text lacks. -/
  | missing
deriving DecidableEq, Repr, Inhabited

namespace Kind

/-- Error and missing nodes are the faults of a tree. -/
def isFault : Kind → Bool
  | error | missing => true
  | _ => false

end Kind

/-- A node of a syntax tree. -/
inductive Node where
  | mk (kind : Kind) (start : Position) (faulty : Bool) (children : List Node)
deriving Repr, Inhabited

namespace Node

def kind : Node → Kind
  | mk k _ _ _ => k

/-- Where the text of the node begins. -/
def start : Node → Position
  | mk _ p _ _ => p

/-- The flag that some fault lies in the node. -/
def faulty : Node → Bool
  | mk _ _ f _ => f

def children : Node → List Node
  | mk _ _ _ cs => cs

/-- A node whose flag is set exactly if it is a fault itself or has a faulty child. -/
def ofChildren (kind : Kind) (start : Position) (children : List Node) : Node :=
  mk kind start (kind.isFault || children.any faulty) children

/-- A node without children. -/
def leaf (kind : Kind) (start : Position) : Node := ofChildren kind start []

/-- The body of a definition: its first block. -/
def body? (n : Node) : Option Node :=
  n.children.find? fun c => c.kind == .block

/-- The definition under decorators: the first function or class among the children. -/
def definition? (n : Node) : Option Node :=
  n.children.find? fun c => match c.kind with
    | .function .. | .classDefinition _ => true
    | _ => false

mutual

/-- The number of nodes of a tree. -/
def size : Node → Nat
  | mk _ _ _ cs => sizes cs + 1

/-- The number of nodes of a list of trees. -/
def sizes : List Node → Nat
  | [] => 0
  | n :: ns => n.size + sizes ns

end

theorem size_eq (n : Node) : n.size = sizes n.children + 1 := by
  cases n
  rw [size, children]

theorem sizes_append (ms ns : List Node) : sizes (ms ++ ns) = sizes ms + sizes ns := by
  induction ms with
  | nil => rw [List.nil_append, sizes, Nat.zero_add]
  | cons m ms ih => rw [List.cons_append, sizes, sizes, ih, Nat.add_assoc]

mutual

/-- The first fault in document order: a node is visited before its children, and all that lies below
a node whose flag is not set is passed over. -/
def firstFault? : Node → Option Position
  | mk k p f cs => if k.isFault then some p else if f then firstFaultIn? cs else none

/-- The first fault of a list of trees. -/
def firstFaultIn? : List Node → Option Position
  | [] => none
  | n :: ns => match n.firstFault? with
    | some p => some p
    | none => firstFaultIn? ns

end

end Node

end ApiSurface.Python
