import ApiSurface.Crawl.Scan
import ApiSurface.Error
import ApiSurface.Report
import ApiSurface.Snapshot.Json

/-!
Snapshots of source trees. A tree is crawled file by file in the order of the walk, and the first
file that cannot be read or is not in order ends the crawl.
-/

namespace ApiSurface

/-- The language of files with an ending. -/
def language (extension : String) : Except Error String :=
  if ["py", "pyi", "pyw"].contains extension then .ok "python"
  else .error (.language ("no parser for ." ++ extension ++ " files"))

/-- The public names in a source file. -/
def SourceFile.symbols (t : FileTree) (f : SourceFile) : Except Error Symbols :=
  match t.read f.path with
  | .error cause => .error (.io f.path cause)
  | .ok text => match Python.surface text with
    | .error cause => .error (.source f.path cause)
    | .ok symbols => .ok symbols

namespace Snapshot

/-- The snapshot with the public names of one more source file. -/
def addFile (t : FileTree) (s : Snapshot) (f : SourceFile) : Except Error Snapshot := do
  return s.insert f.key (← f.symbols t)

/-- The snapshot of the sources below a root, which has to be a directory. -/
def crawl (c : Config) (t : FileTree) (root : String) : Except Error Snapshot :=
  if t.isDirectory root then (c.scan t root).foldlM (addFile t) {}
  else .error (.io root .noRoot)

/-- The snapshot that a file holds. -/
def load (t : FileTree) (path : String) : Except Error Snapshot :=
  match t.read path with
  | .error cause => .error (.io path cause)
  | .ok text => match ofJson text with
    | .error cause => .error (.snapshot path cause)
    | .ok s => .ok s

end Snapshot

/-- Writes a text to a file. -/
def FileTree.save (t : FileTree) (path text : String) : Except Error FileTree :=
  match t.write path text.toUTF8 with
  | .ok t => .ok t
  | .error cause => .error (.io path cause)

/-- The configuration that a file holds. -/
def Config.load (t : FileTree) (path : String) : Except Error Config :=
  match t.read path with
  | .error cause => .error (.io path cause)
  | .ok text => match Config.ofToml text with
    | .error cause => .error (.configFile path text cause)
    | .ok c => .ok c

/-- The comparison of two source trees; the former is crawled first. -/
def Report.ofTrees (c : Config) (t : FileTree) (former latter : String) : Except Error Report := do
  let before ← Snapshot.crawl c t former
  let after ← Snapshot.crawl c t latter
  return .between before after

end ApiSurface
