import ApiSurface.Config
import ApiSurface.FileTree.Access
import ApiSurface.FileTree.Walk

/-!
The source files below a root. Directories are left out by the configured texts, files are chosen by
their names, and each is given the key that its module has in a snapshot.
-/

namespace ApiSurface

/-- A text contains another. -/
def containsText (part : List Char) : List Char → Bool
  | [] => part.isEmpty
  | c :: cs => part.isPrefixOf (c :: cs) || containsText part cs

/-- Names with slashes between them. -/
def slashed (names : List String) : String :=
  "/".intercalate names

/-- A source file: the path that leads to it, and the key of its module. -/
structure SourceFile where
  path : String
  key : String
deriving DecidableEq, Repr

namespace Config

/-- The directory is left out: its path below the root contains one of the configured texts. -/
def leavesOut (c : Config) (names : List String) : Bool :=
  c.exclude.any fun part => containsText part.toList (slashed names).toList

/-- The file is a source: its name has the configured ending and does not begin with an
underscore. -/
def accepts (c : Config) (name : String) : Bool :=
  ('.' :: c.extension.toList).isSuffixOf name.toList && name.toList.head? != some '_'

/-- The key of the module at some names below a root. -/
def key (c : Config) (root : String) (names : List String) : String :=
  slashed ((if c.keepRootName then (Path.fileName? root).toList else []) ++ names)

/-- A file at some names below a root. -/
def sourceFile (c : Config) (root : String) (names : List String) : SourceFile :=
  ⟨Path.join root names, c.key root names⟩

/-- The source files in a directory that the root leads to. -/
def sourcesIn (c : Config) (root : String) (entries : List (String × Entry)) : List SourceFile :=
  ((Entry.walkAll c.leavesOut [] entries).filter fun names => (names.getLast?.map c.accepts).getD false).map
    (c.sourceFile root)

/-- The root itself, if it is a source. -/
def sourceAt (c : Config) (root : String) : List SourceFile :=
  if c.accepts ((Path.fileName? root).getD root) then [c.sourceFile root []] else []

/-- The source files at or below a root. A root that is a link counts as a file itself, and its
directory is walked too. -/
def scan (c : Config) (t : FileTree) (root : String) : List SourceFile :=
  match t.entry false root with
  | .ok (.directory es) => c.sourcesIn root es
  | .ok (.file _) => c.sourceAt root
  | .ok (.link _) => match t.entry true root with
    | .ok (.directory es) => c.sourceAt root ++ c.sourcesIn root es
    | .ok _ => c.sourceAt root
    | .error _ => []
  | .error _ => []

end Config

end ApiSurface
