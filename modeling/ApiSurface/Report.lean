import ApiSurface.Diff.Lines
import ApiSurface.Diff.Json

/-! Reports: both directions of a comparison. -/

namespace ApiSurface

/-- What was removed and what was added from one snapshot to another. -/
structure Report where
  removed : Diff
  added : Diff

namespace Report

/-- The comparison of two snapshots. -/
def between (former latter : Snapshot) : Report where
  removed := .between former latter .removed
  added := .between former latter .added

/-- The removals, then the additions. -/
def lines (r : Report) : List String :=
  r.removed.lines ++ r.added.lines

/-- Something was removed. -/
def hasRemovals (r : Report) : Bool :=
  !r.removed.lines.isEmpty

/-- Nothing was removed and nothing added. -/
def isEmpty (r : Report) : Bool :=
  r.removed.lines.isEmpty && r.added.lines.isEmpty

def toJson (r : Report) : Json :=
  .object [("added", r.added.toJson), ("removed", r.removed.toJson)]

/-- The text of a report file: the lines, each with a line end, or nothing if they hold nothing. -/
def fileText (lines : List String) : String :=
  let text := "\n".intercalate lines
  if text.isEmpty then text else text ++ "\n"

end Report

end ApiSurface
