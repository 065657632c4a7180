import ApiSurface.Symbols

/-! Snapshots: the public names of all modules of a source tree. -/

namespace ApiSurface

/-- The public names of the modules of a source tree, by module path. -/
structure Snapshot where
  modules : NameMap Symbols := ∅
deriving DecidableEq, Inhabited

namespace Snapshot

/-- The public names of a module. -/
def get? (s : Snapshot) (path : String) : Option Symbols :=
  s.modules.get? path

/-- The snapshot with the public names of one module set. -/
def insert (s : Snapshot) (path : String) (symbols : Symbols) : Snapshot :=
  ⟨s.modules.insert path symbols⟩

/-- The module paths, in increasing order. -/
def paths (s : Snapshot) : List String :=
  s.modules.keys

/-- The set of the module paths. -/
def pathSet (s : Snapshot) : NameSet :=
  s.modules.keySet

/-- The modules whose path begins with a text. -/
def under (s : Snapshot) (start : String) : Snapshot :=
  ⟨s.modules.filter fun path _ => start.toList.isPrefixOf path.toList⟩

end Snapshot

end ApiSurface
