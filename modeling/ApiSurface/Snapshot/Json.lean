import ApiSurface.Snapshot.Basic
import ApiSurface.Json.Value
import ApiSurface.Json.Read

/-!
The JSON text of snapshots. It is written in one way, and read in many: fields in any order, absent
when empty and with others between them, names in any order and repeated, and a record also as the
array of its fields.
-/

namespace ApiSurface

/-- A set of names as an array. -/
def NameSet.toJson (s : NameSet) : Json :=
  .array (s.toList.map .string)

/-- A map as an object. -/
def NameMap.toJson {α : Type} (value : α → Json) (m : NameMap α) : Json :=
  .object (m.toList.map fun e => (e.1, value e.2))

namespace Symbols

/-- The methods of a class as a record. -/
def classJson (methods : NameSet) : Json :=
  .object [("methods", methods.toJson)]

def toJson (s : Symbols) : Json :=
  .object [("classes", s.classes.toJson classJson), ("functions", s.functions.toJson)]

open Json in
/-- A field of a class record. -/
def classField (methods : Option NameSet) (name : String) : Scan (Option NameSet) := do
  if name = "methods" then
    if methods.isSome then refuseDuplicate name
    colon
    return some (← names)
  else
    colon
    skip
    return methods

open Json in
/-- A class: a record of its methods. -/
def readClass : Scan NameSet := do
  match ← peekValue with
  | '[' =>
    advance
    let methods ← if ← nextItem true then names else pure ∅
    recordEnd
    return methods
  | '\x7b' =>
    advance
    let methods ← fields classField ((← get).length + 1) true none
    return methods.getD ∅
  | _ => refuse .classSymbols

/-- The fields of a module record that were read so far. -/
structure Fields where
  classes : Option (NameMap NameSet) := none
  functions : Option NameSet := none

open Json in
/-- A field of a module record. -/
def field (s : Fields) (name : String) : Scan Fields := do
  if name = "classes" then
    if s.classes.isSome then refuseDuplicate name
    colon
    return { s with classes := some (← map readClass) }
  else if name = "functions" then
    if s.functions.isSome then refuseDuplicate name
    colon
    return { s with functions := some (← names) }
  else
    colon
    skip
    return s

open Json in
/-- The public names of a module: a record of classes and functions. -/
def read : Scan Symbols := do
  match ← peekValue with
  | '[' =>
    advance
    if ← nextItem true then
      let classes ← map readClass
      let functions ← if ← nextItem false then names else pure ∅
      recordEnd
      return { classes, functions }
    else
      recordEnd
      return {}
  | '\x7b' =>
    advance
    let s ← fields field ((← get).length + 1) true {}
    return { classes := s.classes.getD ∅, functions := s.functions.getD ∅ }
  | _ => refuse .symbols

/-- The public names of a module from their JSON text. -/
def ofJson (text : String) : Except Json.Error Symbols :=
  Json.readText read text

end Symbols

namespace Snapshot

/-- The JSON text of a snapshot. -/
def toJson (s : Snapshot) : String :=
  (s.modules.toJson Symbols.toJson).render Json.pretty

/-- A snapshot from its JSON text. -/
def ofJson (text : String) : Except Json.Error Snapshot :=
  Json.readText (return ⟨← Json.map Symbols.read⟩) text

end Snapshot

end ApiSurface
