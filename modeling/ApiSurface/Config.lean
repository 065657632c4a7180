import ApiSurface.Text.Offset
import ApiSurface.Toml.Document

/-!
The configuration of a crawl, and its reading from a TOML text. Of the document only three keys count;
each that is present must hold a value of its kind, and the first in the document that does not is
reported, with the line that it stands on.
-/

namespace ApiSurface

/-- What a crawl leaves out, which files it reads, and how it names modules. -/
structure Config where
  /-- Directories are left out whose path below the root contains one of these texts. -/
  exclude : List String := ["tests", "static", "sampledata", "mplexplorer"]
  /-- The ending of source files, without its point. -/
  extension : String := "py"
  /-- Module paths begin with the name of the root. -/
  keepRootName : Bool := false
deriving DecidableEq, Repr

namespace Config

/-- Why a text is no configuration. -/
inductive Fault where
  /-- The text is not TOML. -/
  | malformed
  /-- A key holds a value of the wrong kind. -/
  | mismatched (mismatch : Mismatch) (span : Toml.Span)
deriving DecidableEq, Repr

/-- The line of a text in which a part of it begins, with its number counted from one, and the
characters of it before the part. -/
def lineAt (cs : List Char) (start : Nat) : Nat × List Char × List Char :=
  let before := cs.take (cs.length - start)
  let number := before.count '\n' + 1
  let lead := (before.reverse.takeWhile (· ≠ '\n')).reverse
  let after := (cs.drop (cs.length - start)).takeWhile (· ≠ '\n')
  (number, lead ++ after, lead)

/-- A part of a text shown in its line, with carets below it. The part ends with the line. -/
def excerpt (text : String) (span : Toml.Span) : String :=
  let cs := text.toList
  let (number, line, lead) := lineAt cs span.start
  let part := (cs.drop (cs.length - span.start)).take (span.start - span.stop)
  let carets := max 1 (min (Text.byteLength part) (Text.byteLength line - lead.length))
  let margin := String.ofList (List.replicate (number.repr.length + 1) ' ') ++ "|"
  "TOML parse error at line " ++ number.repr ++ ", column " ++ (lead.length + 1).repr ++ "\n" ++
    margin ++ "\n" ++
    number.repr ++ " | " ++ String.ofList line ++ "\n" ++
    margin ++ String.ofList (List.replicate (lead.length + 1) ' ' ++ List.replicate carets '^') ++
    "\n"

/-- The text of an error of reading the given text. -/
def Fault.message (text : String) : Fault → String
  | malformed => "TOML parse error\n"
  | mismatched mismatch span => excerpt text span ++ mismatch.message ++ "\n"

/-- The strings of an array. -/
def stringsOf (items : List (Toml.Value × Toml.Span)) : Except Fault (List String) :=
  items.mapM fun (v, span) => match v with
    | .string text => .ok text
    | v => .error (.mismatched ⟨v.found, .string⟩ span)

/-- The configuration with what one entry of the document says. -/
def setEntry (c : Config) (e : Toml.Key × Toml.Item) : Except Fault Config :=
  let refuse (expected : Expected) : Except Fault Config :=
    .error (.mismatched ⟨e.2.found, expected⟩ (e.2.span?.getD e.1.span))
  match e.1.name, e.2 with
  | "exclude", .value (.array items) _ => do return { c with exclude := ← stringsOf items }
  | "exclude", .tables earlier last =>
    .error (.mismatched ⟨.map, .string⟩ (earlier.head?.getD last).1)
  | "exclude", _ => refuse .sequence
  | "extension", .value (.string text) _ => .ok { c with extension := text }
  | "extension", _ => refuse .string
  | "keep_root_name", .value (.boolean value) _ => .ok { c with keepRootName := value }
  | "keep_root_name", _ => refuse .boolean
  | _, _ => .ok c

/-- A configuration from its TOML text; what the text does not say is as by default. -/
def ofToml (text : String) : Except Fault Config :=
  match Toml.document text with
  | none => .error .malformed
  | some entries => entries.foldlM setEntry {}

end Config

end ApiSurface
