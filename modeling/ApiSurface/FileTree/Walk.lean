import ApiSurface.FileTree.Basic

/-! Walking a directory: all files and links below it, in order. Links are not followed. -/

namespace ApiSurface.Entry

mutual

/-- The files and links in an entry with the given names above it, by their names; a directory for
whose names the test holds is left out. -/
def walk (skip : List String → Bool) (path : List String) : Entry → List (List String)
  | directory es => if skip path then [] else walkAll skip path es
  | file _ => [path]
  | link _ => [path]

/-- The files and links in some entries of a directory. -/
def walkAll (skip : List String → Bool) (above : List String) :
    List (String × Entry) → List (List String)
  | [] => []
  | (name, e) :: es => walk skip (above ++ [name]) e ++ walkAll skip above es

end

end ApiSurface.Entry
