import ApiSurface.Snapshot.Basic

/-!
What one snapshot has and another lacks. A module or class that is missing altogether counts as a
whole, and what it holds is not listed. The methods of a class are compared only if both sides list
some.
-/

namespace ApiSurface

/-- Which way two snapshots are compared. -/
inductive Direction where
  /-- What only the former has. -/
  | removed
  /-- What only the latter has. -/
  | added
deriving DecidableEq, Repr

namespace Direction

def label : Direction → String
  | removed => "DELETED"
  | added => "ADDED"

/-- The side that changes are taken from. -/
def source {α : Type} (d : Direction) (former latter : α) : α :=
  match d with
  | removed => former
  | added => latter

/-- The side that it is compared with. -/
def target {α : Type} (d : Direction) (former latter : α) : α :=
  match d with
  | removed => latter
  | added => former

/-- The names that only one side has. -/
def apply (d : Direction) (former latter : NameSet) : NameSet :=
  (d.source former latter).diff (d.target former latter)

end Direction

/-- How a class differs. -/
inductive ClassChange where
  /-- The other side lacks the class. -/
  | whole
  /-- The other side lacks these methods. -/
  | methods (names : NameSet)
deriving DecidableEq

/-- What the other side lacks of a module that both sides have. -/
structure SymbolChanges where
  classes : NameMap ClassChange := ∅
  functions : NameSet := ∅
deriving DecidableEq

/-- How a module differs. -/
inductive ModuleChange where
  /-- The other side lacks the module. -/
  | whole
  /-- The other side lacks some of its names. -/
  | symbols (changes : SymbolChanges)
deriving DecidableEq

/-- The changes from one snapshot to another, in one direction. -/
structure Diff where
  direction : Direction
  modules : NameMap ModuleChange := ∅
deriving DecidableEq

namespace Diff

/-- How a module differs, if it does. -/
def get? (d : Diff) (path : String) : Option ModuleChange :=
  d.modules.get? path

/-- There are no changes. -/
def isEmpty (d : Diff) : Bool :=
  d.modules.isEmpty

/-- The diff with the change of one module set. -/
def set (d : Diff) (path : String) (change : ModuleChange) : Diff :=
  { d with modules := d.modules.insert path change }

/-- Updates the names that a module lacks. A module without a change is given one first, and a module
that is missing as a whole stays so. -/
def updateSymbols (d : Diff) (path : String) (f : SymbolChanges → SymbolChanges) : Diff :=
  match d.get? path with
  | none => d.set path (.symbols (f {}))
  | some (.symbols changes) => d.set path (.symbols (f changes))
  | some .whole => d

/-- Sets the functions and the whole classes that one side of a module lacks, if there are any. -/
def addSymbols (d : Diff) (path : String) (before after : Symbols) : Diff :=
  let functions := d.direction.apply before.functions after.functions
  let classes := d.direction.apply before.classes.keySet after.classes.keySet
  if functions.isEmpty && classes.isEmpty then d
  else d.updateSymbols path fun _ => { classes := .constant classes .whole, functions }

/-- Adds the methods that one side of a class lacks, if both sides list some. -/
def addClassMethods (path : String) (before : Symbols) (d : Diff) (after : String × NameSet) : Diff :=
  match before.classes.get? after.1 with
  | none => d
  | some methods =>
    let missing := d.direction.apply methods after.2
    if methods.isEmpty || after.2.isEmpty || missing.isEmpty then d
    else d.updateSymbols path fun changes =>
      { changes with classes := changes.classes.insert after.1 (.methods missing) }

/-- Adds the methods that one side of a module lacks, class by class of the latter. -/
def addMethods (d : Diff) (path : String) (before after : Symbols) : Diff :=
  after.classes.toList.foldl (addClassMethods path before) d

/-- Adds the changes of a module that both snapshots have. -/
def addModule (former latter : Snapshot) (d : Diff) (path : String) : Diff :=
  match former.get? path, latter.get? path with
  | some before, some after => (d.addSymbols path before after).addMethods path before after
  | _, _ => d

/-- Adds the modules that only one side has, by their paths. -/
def addWhole (d : Diff) (paths : NameSet) : Diff :=
  paths.toList.foldl (fun d path => d.set path .whole) d

/-- What one of two snapshots has and the other lacks: first the modules that are missing as a whole,
then the changes of each module that both have. -/
def between (former latter : Snapshot) (d : Direction) : Diff :=
  (former.pathSet.inter latter.pathSet).toList.foldl (addModule former latter)
    (addWhole { direction := d } (d.apply former.pathSet latter.pathSet))

end Diff

end ApiSurface
