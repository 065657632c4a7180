import ApiSurface.FileTree.Basic
import ApiSurface.FileTree.Path

/-!
Reading and writing files by path. A path is followed part by part; a symbolic link on the way is
replaced by its target, at most forty times.
-/

namespace ApiSurface

/-- Why a file could not be read or written. -/
inductive IoError where
  | notFound
  | isDirectory
  | notDirectory
  | tooManyLinks
  /-- The file is not a text in UTF-8. -/
  | notText
  /-- The root of a crawl is no directory. -/
  | noRoot
  /-- Anything else, by its text. -/
  | other (text : String)
deriving DecidableEq, Repr

def IoError.message : IoError → String
  | notFound => "No such file or directory (os error 2)"
  | isDirectory => "Is a directory (os error 21)"
  | notDirectory => "Not a directory (os error 20)"
  | tooManyLinks => "Too many levels of symbolic links (os error 40)"
  | notText => "stream did not contain valid UTF-8"
  | noRoot => "not a directory"
  | other text => text

namespace FileTree

/-- Where a path leads. -/
inductive Target where
  /-- To an entry, at the end of a path of names without links. -/
  | present (path : List String) (entry : Entry)
  /-- To a free name in a directory; `slash` tells that slashes follow it. -/
  | absent (path : List String) (slash : Bool)

/-- Follows the parts of a path from a directory. At a link it goes on as told, and so it does at a
link at the end unless that is asked for itself. -/
def step (t : FileTree) (followLast : Bool)
    (onLink : List String → List String → Except IoError Target) :
    List String → List String → Except IoError Target
  | here, [] => match t.find? here with
    | some entry => .ok (.present here entry)
    | none => .error .notFound
  | here, part :: parts =>
    if part = "" || part = "." then step t followLast onLink here parts
    else if part = ".." then step t followLast onLink here.dropLast parts
    else
      let path := here ++ [part]
      match t.find? path with
      | none =>
        if parts.isEmpty then .ok (.absent path false)
        else if parts.all (· = "") then .ok (.absent path true)
        else .error .notFound
      | some (.directory _) => step t followLast onLink path parts
      | some (.file content) =>
        if parts.isEmpty then .ok (.present path (.file content)) else .error .notDirectory
      | some (.link target) =>
        if parts.isEmpty && !followLast then .ok (.present path (.link target))
        else
          let start := if target.toList.head? = some '/' then [] else here
          onLink start (Path.components target ++ parts)

theorem step_nil {t : FileTree} {followLast : Bool}
    {onLink : List String → List String → Except IoError Target} {here : List String} {entry : Entry}
    (h : t.find? here = some entry) :
    step t followLast onLink here [] = .ok (.present here entry) := by
  rw [step, h]

/-- Follows the parts of a path through a number of links. -/
def follow (t : FileTree) (followLast : Bool) :
    Nat → List String → List String → Except IoError Target
  | 0 => step t followLast fun _ _ => .error .tooManyLinks
  | n + 1 => step t followLast (follow t followLast n)

/-- Where a path leads. -/
def target (t : FileTree) (followLast : Bool) (path : String) : Except IoError Target :=
  if path.isEmpty then .error .notFound else t.follow followLast 40 [] (Path.components path)

/-- The entry that a path leads to. -/
def entry (t : FileTree) (followLast : Bool) (path : String) : Except IoError Entry := do
  match ← t.target followLast path with
  | .present _ e => return e
  | .absent .. => throw .notFound

/-- The path leads to a directory. -/
def isDirectory (t : FileTree) (path : String) : Bool :=
  match t.entry true path with
  | .ok e => e.isDirectory
  | .error _ => false

/-- The text of a file. -/
def read (t : FileTree) (path : String) : Except IoError String := do
  match ← t.entry true path with
  | .file content => match String.fromUTF8? content with
    | some text => return text
    | none => throw .notText
  | _ => throw .isDirectory

/-- Writes a file, which is made if it is not there. -/
def write (t : FileTree) (path : String) (content : ByteArray) : Except IoError FileTree := do
  match ← t.target true path with
  | .present place (.file _) => return t.put place (.file content) (.file content)
  | .present .. => throw .isDirectory
  | .absent place slash =>
    if slash then throw .isDirectory
    return t.put place (.file content) (.file content)

/-- The directory without entries. -/
def emptyDirectory : Entry := .directory []

theorem sound_emptyDirectory : emptyDirectory.Sound :=
  .directory [] .nil (by simp) (by simp)

/-- Makes a directory, unless there is one. -/
def makeDirectory (t : FileTree) (path : String) : Except IoError FileTree := do
  match ← t.target true path with
  | .present _ (.directory _) => return t
  | .present .. => throw .notDirectory
  | .absent place _ => return t.put place emptyDirectory sound_emptyDirectory

/-- Makes the directories of a path, from the outermost on. -/
def makeDirectories (t : FileTree) (names : List String) : Except IoError FileTree :=
  (List.range names.length).foldlM
    (fun t n => t.makeDirectory ("/".intercalate (names.take (n + 1)))) t

/-- Makes a symbolic link. -/
def makeLink (t : FileTree) (path target : String) : Except IoError FileTree := do
  match ← t.target false path with
  | .present .. => throw (.other "File exists (os error 17)")
  | .absent place _ => return t.put place (.link target) (.link target)

end FileTree

end ApiSurface
