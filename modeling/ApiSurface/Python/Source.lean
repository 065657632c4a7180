import ApiSurface.Python.Statement
import ApiSurface.Python.Repair.Outline

/-! The syntax tree of a source. A source that the grammar fits is read as it stands; any other is
read with the cheapest repair, whose faults are in the tree. -/

namespace ApiSurface.Python

/-- The statements of a text, if the whole text is a list of statements. -/
def statementsOf (text : String) : Except Fault (List Node) :=
  let cs := text.toList
  (Reader.statements (10 * (cs.length + 10)) { rest := cs }).map (·.1)

/-- The syntax tree of a text. -/
def Node.ofText (text : String) : Node :=
  match statementsOf text with
  | .ok children => Node.ofChildren .module ⟨0, 0⟩ children
  | .error fault =>
    match Repair.Tree.ofText? .python text.toList with
    | some tree => Repair.Node.ofRepair tree
    | none => Node.ofChildren .module ⟨0, 0⟩ [Node.leaf .error fault.position]

end ApiSurface.Python
