import ApiSurface.Config
import ApiSurface.FileTree.Access
import ApiSurface.Json.Fault
import ApiSurface.Python.Surface

/-! What can go wrong in a crawl or a comparison, and how it is said. -/

namespace ApiSurface

/-- Why a crawl or a comparison failed. -/
inductive Error where
  /-- A file could not be read or written. -/
  | io (path : String) (cause : IoError)
  /-- A source is not in order. -/
  | source (path : String) (cause : Python.SyntaxError)
  /-- There is nothing that reads such sources. -/
  | language (text : String)
  /-- The configuration is not in order. -/
  | config (text : String)
  /-- The text of a configuration file is not in order. -/
  | configFile (path text : String) (cause : Config.Fault)
  /-- A file holds no snapshot. -/
  | snapshot (path : String) (cause : Json.Error)
  /-- Something could not be written as JSON. -/
  | serialization (cause : Json.Error)
deriving DecidableEq, Repr

namespace Error

def message : Error → String
  | io path cause => "failed to read " ++ path ++ ": " ++ cause.message
  | source path cause => "failed to parse " ++ path ++ ": " ++ cause.message
  | language text => "parser initialization failed: " ++ text
  | config text => "configuration error: " ++ text
  | configFile path text cause => "configuration error: " ++ path ++ ": " ++ cause.message text
  | snapshot path cause => "invalid snapshot " ++ path ++ ": " ++ cause.message
  | serialization cause => "serialization error: " ++ cause.message

/-- The texts of the causes, from the nearest on. -/
def causes : Error → List String
  | io _ cause => [cause.message]
  | source _ cause => [cause.message]
  | language _ => []
  | config _ => []
  | configFile .. => []
  | snapshot _ cause => [cause.message]
  | serialization cause => [cause.message]

end Error

end ApiSurface
