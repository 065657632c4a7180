import ApiSurface.NameMap

/-! The public names of one module: its functions, and its classes with their methods. -/

namespace ApiSurface

/-- A name is public if it does not begin with an underscore; the initializer is public too. -/
def isPublic (name : String) : Bool :=
  name.toList.head? != some '_' || name == "__init__"

/-- The public names of a module. -/
structure Symbols where
  /-- The methods of each class. -/
  classes : NameMap NameSet := ∅
  functions : NameSet := ∅
deriving DecidableEq, Inhabited

end ApiSurface
