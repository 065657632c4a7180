import ApiSurface.Diff.Basic
import ApiSurface.ModulePath

/-! The lines of a diff: whole modules first, then the changes of each module, classes before
functions. -/

namespace ApiSurface

/-- The names that stand for the change of a class. -/
def ClassChange.names (name : String) : ClassChange → List String
  | whole => [name]
  | methods ms => ms.toList.map fun m => name ++ "." ++ m

/-- The names that stand for the changes of a module: those of its classes, then its functions. -/
def SymbolChanges.names (c : SymbolChanges) : List String :=
  c.classes.toList.flatMap (fun e => e.2.names e.1) ++ c.functions.toList

namespace Diff

/-- One line: a label and a dotted name. -/
def line (d : Direction) (name : String) : String :=
  d.label ++ " " ++ name

/-- The modules that are missing as a whole, by their dotted names. -/
def wholeModules (d : Diff) : List String :=
  d.modules.toList.filterMap fun e => match e.2 with
    | .whole => some (ModulePath.dotted e.1)
    | .symbols _ => none

/-- The other changes, by their dotted names. -/
def symbols (d : Diff) : List String :=
  d.modules.toList.flatMap fun e => match e.2 with
    | .whole => []
    | .symbols changes => changes.names.map fun name => ModulePath.dotted e.1 ++ "." ++ name

/-- The lines of a diff. -/
def lines (d : Diff) : List String :=
  (d.wholeModules ++ d.symbols).map (line d.direction)

end Diff

end ApiSurface
