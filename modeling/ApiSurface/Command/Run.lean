import ApiSurface.Command.Arguments
import ApiSurface.Crawl.Build
import ApiSurface.Text.Blank

/-!
Running a command on a tree of files. The stages come in a fixed order: the configuration, the
language of the sources, the operands from left to right, the output. The first stage that fails ends
the run; nothing is printed or written before all others are done.
-/

namespace ApiSurface.Command

/-- What a run leaves behind. -/
structure Outcome where
  /-- The exit status. -/
  status : Nat
  /-- What is printed. -/
  output : String
  /-- What is said on failure. -/
  failure : Option String := none
  /-- The files afterwards. -/
  tree : FileTree

/-- A failure: the text of it and of what caused it, from the nearest cause on. -/
structure Failure where
  message : String
  causes : List String
deriving DecidableEq

/-- The failure of an error. -/
def Failure.ofError (e : Error) : Failure := ⟨e.message, e.causes⟩

/-- A text with all its lines but the first indented. -/
def hang (indent : Nat) (text : String) : String :=
  String.ofList (text.toList.flatMap fun c =>
    if c = '\n' then '\n' :: List.replicate indent ' ' else [c])

/-- A cause with its number, right-aligned. -/
def numbered (e : String × Nat) : String :=
  let number := e.2.repr
  String.ofList (List.replicate (5 - number.length) ' ') ++ number ++ ": " ++ hang 7 e.1

/-- The text of a failure. Several causes are numbered. -/
def Failure.text (f : Failure) : String :=
  let causes := match f.causes with
    | [] => ""
    | [cause] => "\n\nCaused by:\n    " ++ hang 4 cause
    | causes => "\n\nCaused by:\n" ++ "\n".intercalate (causes.zipIdx.map numbered)
  "Error: " ++ f.message ++ causes ++ "\n"

/-- The outcome of a part of a run: a value, or the failure that ends the run. -/
abbrev Stage (α : Type) : Type := Except Failure α

/-- A stage that fails with an error as it is. -/
def stage {α : Type} (result : Except Error α) : Stage α :=
  result.mapError Failure.ofError

namespace CrawlOptions

/-- The texts to leave out that the option gives: trimmed, without empty ones. -/
def fragments (pieces : List String) : List String :=
  (pieces.map Text.trim).filter fun piece => piece != ""

/-- The configuration with what the options say. -/
def override (o : CrawlOptions) (c : Config) : Config :=
  { c with
    exclude := match o.exclude with
      | some pieces => fragments pieces
      | none => c.exclude
    keepRootName := o.keepRootName || c.keepRootName }

/-- The configuration of a run: that of the file, if one is given, with what the options say. -/
def load (o : CrawlOptions) (t : FileTree) : Except Error Config := do
  let c ← match o.config with
    | some path => Config.load t path
    | none => pure {}
  return o.override c

end CrawlOptions

/-- The snapshot of an operand: a directory is crawled, a file is read. -/
def operand (c : Config) (t : FileTree) (path : String) : Stage Snapshot :=
  if t.isDirectory path then
    match Snapshot.crawl c t path with
    | .ok s => .ok s
    | .error e => .error ⟨"Failed to crawl " ++ path, e.message :: e.causes⟩
  else stage (Snapshot.load t path)

/-- The text of lines, each with its line end. -/
def printed (lines : List String) : String :=
  String.join (lines.map (· ++ "\n"))

/-- What a comparison prints, and whether something was removed. -/
def compared (former latter : Snapshot) (only : Option Direction) (format : Format) :
    String × Bool :=
  match only with
  | some d =>
    let diff := Diff.between former latter d
    let text := match format with
      | .text => printed diff.lines
      | .json => diff.toJson.render Json.pretty ++ "\n"
    (text, d = .removed && !diff.isEmpty)
  | none =>
    let report := Report.between former latter
    let text := match format with
      | .text => printed report.lines
      | .json => report.toJson.render Json.pretty ++ "\n"
    (text, report.hasRemovals)

/-- The outcome of a request, if it does not fail. -/
def perform (t : FileTree) : Request → Stage Outcome
  | .snapshot input output crawl => do
    let c ← stage (crawl.load t)
    let _ ← stage (language c.extension)
    let s ← stage (Snapshot.crawl c t input)
    match output with
    | some path => return { status := 0, output := "", tree := ← stage (t.save path s.toJson) }
    | none => return { status := 0, output := s.toJson ++ "\n", tree := t }
  | .diff former latter only format failOnRemoved crawl => do
    let c ← stage (crawl.load t)
    let _ ← stage (language c.extension)
    let before ← operand c t former
    let after ← operand c t latter
    let (text, removed) := compared before after only format
    return { status := if failOnRemoved && removed then 1 else 0, output := text, tree := t }

/-- The name of the program and its version. -/
def version : String := "api-crawler 0.1.0\n"

/-- Runs a command line on a tree of files. -/
def run (t : FileTree) (args : List String) : Outcome :=
  match parse args with
  | .error .help => { status := 0, output := "", tree := t }
  | .error .version => { status := 0, output := version, tree := t }
  | .error .usage => { status := 2, output := "", tree := t }
  | .ok request => match perform t request with
    | .ok outcome => outcome
    | .error failure => { status := 1, output := "", failure := some failure.text, tree := t }

end ApiSurface.Command
