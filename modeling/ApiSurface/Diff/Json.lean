import ApiSurface.Diff.Basic
import ApiSurface.Snapshot.Json

/-! Diffs as JSON. What is missing as a whole is an empty object; all else has the form of a
snapshot. -/

namespace ApiSurface

def ClassChange.toJson : ClassChange → Json
  | whole => .object []
  | methods names => Symbols.classJson names

def ModuleChange.toJson : ModuleChange → Json
  | whole => .object []
  | symbols changes =>
    .object [("classes", changes.classes.toJson ClassChange.toJson),
      ("functions", changes.functions.toJson)]

def Diff.toJson (d : Diff) : Json :=
  d.modules.toJson ModuleChange.toJson

end ApiSurface
