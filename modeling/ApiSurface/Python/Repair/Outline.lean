import ApiSurface.Python.Node
import ApiSurface.Python.Repair.Search

/-! The syntax tree of a repaired source. It has the statements with their bodies and the faults;
whatever else the repair read shows only through the faults in it. A line end that was supplied shows
nowhere unless it stands for a body, so a source may lack line ends and be without a fault. -/

namespace ApiSurface.Python.Repair

namespace Tree

/-- The statements of a kind, the definitions apart. -/
def statementKind? : Construct → Option Kind
  | .module => some .module
  | .block => some .block
  | .decoratedDefinition => some .decorated
  | .ifStatement | .forStatement | .whileStatement | .tryStatement | .withStatement
  | .matchStatement => some .compound
  | .elifClause | .elseClause | .caseClause | .exceptClause | .exceptGroupClause
  | .finallyClause => some .clause
  | .importStatement | .futureImport | .fromImport | .printStatement | .assertStatement
  | .expressionStatement | .returnStatement | .deleteStatement | .raiseStatement | .passStatement
  | .breakStatement | .continueStatement | .globalStatement | .nonlocalStatement | .execStatement
  | .typeAlias => some .simple
  | _ => none

/-- The name that a definition defines: its first part that is a name. -/
def nameOf (parts : List Tree) : String :=
  match parts.find? fun t => t.label == .terminal .name with
  | some t => String.ofList (wordOf t.summary.start.rest)
  | none => ""

/-- The kind of node that a construct of some parts is, if it is one. -/
def kindOf? (c : Construct) (parts : List Tree) : Option Kind :=
  match c with
  | .functionDefinition =>
    let isAsync : Bool := parts.any fun t => t.label == .terminal (.text "async")
    some (.function (nameOf parts) isAsync)
  | .classDefinition => some (.classDefinition (nameOf parts))
  | c => statementKind? c

/-- A construct ends with a body, which may be the rest of its line. -/
def hasBody (c : Construct) : Bool :=
  c == .functionDefinition || c == .classDefinition ||
    match statementKind? c with
    | some .compound | some .clause => true
    | _ => false

mutual

/-- The nodes that a tree stands for. -/
def outline : Tree → List Node
  | mk s cs => match s.label with
    | .error => [.leaf .error s.start.position]
    | .skipped => []
    | .terminal t => if s.supplied && t.isShown then [.leaf .missing s.start.position] else []
    | .construct c =>
      let parts := if hasBody c then outlineBodies cs else outlineAll cs
      match kindOf? c cs with
      | some kind => [.ofChildren kind s.start.position parts]
      | none => parts

/-- The nodes that some trees stand for. -/
def outlineAll : List Tree → List Node
  | [] => []
  | t :: ts => t.outline ++ outlineAll ts

/-- The nodes that the parts of a construct with bodies stand for. Statements on its line are a body,
and so is the end of its line. -/
def outlineBodies : List Tree → List Node
  | [] => []
  | mk s cs :: ts =>
    let own := match s.label with
      | .construct .simpleStatements | .construct .matchBody =>
        [.ofChildren .block s.start.position (outlineAll cs)]
      | .terminal .newline => [.leaf (if s.supplied then .missing else .block) s.start.position]
      | _ => (mk s cs).outline
    own ++ outlineBodies ts

end

end Tree

/-- The syntax tree of a source that was read with repairs. -/
def Node.ofRepair (t : Tree) : Node :=
  match t.outline with
  | [n] => n
  | ns => .ofChildren .module ⟨0, 0⟩ ns

end ApiSurface.Python.Repair
