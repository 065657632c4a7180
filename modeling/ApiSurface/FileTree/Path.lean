/-! Paths as texts. -/

namespace ApiSurface.Path

/-- The parts of a text between slashes. -/
def components (path : String) : List String :=
  (path.toList.splitOn '/').map String.ofList

/-- The name at the end of a path, if it ends in one: parts that are empty or a single point do not
count, and two points are no name. -/
def fileName? (path : String) : Option String :=
  match ((components path).filter fun c => c != "" && c != ".").getLast? with
  | some ".." => none
  | name => name

/-- A path with a name below it. -/
def child (path name : String) : String :=
  match path.toList.getLast? with
  | none | some '/' => path ++ name
  | some _ => path ++ "/" ++ name

/-- A path with names below it. -/
def join (path : String) (names : List String) : String :=
  names.foldl child path

end ApiSurface.Path
