import ApiSurface.Text.Offset

/-! Dotted names of modules. -/

namespace ApiSurface

namespace ModulePath

/-- A path with slashes of one kind, and none at its start. -/
def uniform (path : String) : List Char :=
  (path.toList.map fun c => if c = '\\' then '/' else c).dropWhile (· = '/')

/-- The offset of the last component: that after the last slash. -/
def lastStart (text : List Char) : Nat :=
  match Text.lastOffset? (· = '/') text with
  | some offset => offset + 1
  | none => 0

/-- The length of a component without its ending: up to its last point, unless that comes first. -/
def stemLength (component : List Char) : Nat :=
  match (Text.lastOffset? (· = '.') component).filter (0 < ·) with
  | some offset => offset
  | none => Text.byteLength component

/-- The dotted name of a module path, if the offsets at which the path is cut are places in it. -/
def dotted? (path : String) : Option String := do
  let text := uniform path
  let last ← Text.from? (lastStart text) text
  let name ← Text.upTo? (lastStart text + stemLength last) text
  return String.ofList (name.map fun c => if c = '/' then '.' else c)

/-- The dotted name of a module path. Every path has one. -/
def dotted (path : String) : String := (dotted? path).getD ""

end ModulePath

end ApiSurface
