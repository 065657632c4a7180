import ApiSurface.Symbols
import ApiSurface.Python.Source

/-!
The public surface of a Python source: the functions of its statement list, and the classes anywhere
in it with the functions of their bodies. Nodes are visited breadth first; of two classes with one
name the one visited later counts, so the deepest, and among those the last.
-/

namespace ApiSurface.Python

/-- Why a source has no surface. -/
inductive SyntaxError where
  /-- A fault, with lines and bytes counted from one. -/
  | fault (line column : Nat)
  /-- There is no syntax tree at all. -/
  | noTree
deriving DecidableEq, Repr

def SyntaxError.message : SyntaxError → String
  | fault line column =>
    "invalid syntax at line " ++ line.repr ++ ", column " ++ column.repr
  | noTree => "parser produced no syntax tree"

namespace Node

/-- The definition that a statement makes: what stands under its decorators, or the statement. -/
def undecorated (n : Node) : Node :=
  if n.kind == .decorated then n.definition?.getD n else n

/-- A name if it belongs to the public surface. -/
def publicName? (name : String) : Option String :=
  if !name.isEmpty && isPublic name then some name else none

/-- The public name of a function that is not asynchronous. -/
def function? (n : Node) : Option String :=
  match n.kind with
  | .function name false => publicName? name
  | _ => none

/-- The public functions that a list of statements defines. -/
def functionsOf (statements : List Node) : NameSet :=
  .ofList (statements.filterMap fun n => n.undecorated.function?)

/-- The public methods of a class: the functions of its body. -/
def methods (n : Node) : NameSet :=
  match n.body? with
  | some body => functionsOf body.children
  | none => ∅

/-- The public name of a class, with its methods. -/
def class? (n : Node) : Option (String × NameSet) :=
  match n.kind with
  | .classDefinition name => (publicName? name).map (·, n.methods)
  | _ => none

/-- Sets the methods of the class that a node defines, if it is a class with a public name. -/
def addClass (classes : NameMap NameSet) (n : Node) : NameMap NameSet :=
  match n.class? with
  | some (name, methods) => classes.insert name methods
  | none => classes

/-- Visits the nodes of a queue: one is taken from the front, and its children are put at the end. -/
def visit (classes : NameMap NameSet) : List Node → NameMap NameSet
  | [] => classes
  | n :: queue => visit (addClass classes n) (queue ++ n.children)
termination_by queue => sizes queue
decreasing_by
  rw [sizes_append, sizes, size_eq]
  omega

/-- The public surface of a syntax tree. -/
def symbols (n : Node) : Symbols where
  classes := visit ∅ [n]
  functions := functionsOf n.children

/-- The public surface of a tree without faults, or else the place of its first fault. -/
def surface (n : Node) : Except SyntaxError Symbols :=
  match n.firstFault? with
  | some p => .error (.fault (p.row + 1) (p.column + 1))
  | none => .ok n.symbols

end Node

/-- The public surface of a source. -/
def surface (text : String) : Except SyntaxError Symbols :=
  (Node.ofText text).surface

end ApiSurface.Python
