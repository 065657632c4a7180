import ApiSurface.Text.Quoted

/-! What is said when a value is read that is not of the kind that was asked for. -/

namespace ApiSurface

/-- What a value turned out to be. -/
inductive Found where
  | null
  | boolean (value : Bool)
  | integer (value : Int)
  /-- A number that is no integer, by its text. -/
  | floating (text : String)
  | string (value : String)
  | sequence
  | map
deriving DecidableEq, Repr

namespace Found

def text : Found → String
  | null => "null"
  | boolean value => "boolean `" ++ (if value then "true" else "false") ++ "`"
  | integer value => "integer `" ++ value.repr ++ "`"
  | floating text => "floating point `" ++ text ++ "`"
  | string value => "string " ++ Text.quoted value
  | sequence => "sequence"
  | map => "map"

end Found

/-- What was asked for. -/
inductive Expected where
  | map
  | symbols
  | classSymbols
  | sequence
  | string
  | boolean
deriving DecidableEq, Repr

namespace Expected

def text : Expected → String
  | map => "a map"
  | symbols => "struct SymbolTable"
  | classSymbols => "struct ClassSymbols"
  | sequence => "a sequence"
  | string => "a string"
  | boolean => "a boolean"

end Expected

/-- A value of a kind other than the one asked for. -/
structure Mismatch where
  found : Found
  expected : Expected
deriving DecidableEq, Repr

def Mismatch.message (m : Mismatch) : String :=
  "invalid type: " ++ m.found.text ++ ", expected " ++ m.expected.text

end ApiSurface
