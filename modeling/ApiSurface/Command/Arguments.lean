import ApiSurface.Diff.Basic

/-!
Command lines. Arguments are read from left to right: options in their long and short forms, with
values after an equals sign, in the same argument or in the next one, and operands. After two hyphens
everything is an operand. An option is given once, except the texts to leave out, which add up.
-/

namespace ApiSurface.Command

/-- How a comparison is printed. -/
inductive Format where
  | text
  | json
deriving DecidableEq, Repr

/-- What the options say about crawling. -/
structure CrawlOptions where
  config : Option String := none
  /-- The texts to leave out instead of the configured ones. -/
  exclude : Option (List String) := none
  keepRootName : Bool := false
deriving DecidableEq, Repr

/-- What is to be done. -/
inductive Request where
  /-- Crawl a directory and write its snapshot, to a file or to standard output. -/
  | snapshot (input : String) (output : Option String) (crawl : CrawlOptions)
  /-- Compare two directories or saved snapshots. -/
  | diff (former latter : String) (only : Option Direction) (format : Format)
      (failOnRemoved : Bool) (crawl : CrawlOptions)
deriving DecidableEq, Repr

/-- Why a command line asks for nothing to be done. -/
inductive Refusal where
  | help
  | version
  | usage
deriving DecidableEq, Repr

/-- The options. -/
inductive Setting where
  | output
  | config
  | exclude
  | keepRootName
  | only
  | format
  | failOnRemoved
  | verbose
deriving DecidableEq, Repr

namespace Setting

/-- The long form. -/
def long : Setting → String
  | output => "output"
  | config => "config"
  | exclude => "exclude"
  | keepRootName => "keep-root-name"
  | only => "only"
  | format => "format"
  | failOnRemoved => "fail-on-removed"
  | verbose => "verbose"

/-- The short form. -/
def short? : Setting → Option Char
  | output => some 'o'
  | config => some 'c'
  | exclude => some 'e'
  | format => some 'f'
  | verbose => some 'v'
  | _ => none

/-- The option has a value. -/
def takesValue : Setting → Bool
  | output | config | exclude | only | format => true
  | _ => false

/-- The values that the option can have. -/
def admits (value : String) : Setting → Bool
  | output | config => value != ""
  | only => value == "removed" || value == "added"
  | format => value == "text" || value == "json"
  | _ => true

end Setting

/-- The arguments that were read so far. -/
structure Given where
  settings : List (Setting × String) := []
  operands : List String := []

namespace Given

/-- The option was given. -/
def has (g : Given) (s : Setting) : Bool :=
  g.settings.any fun e => e.1 = s

/-- The value of an option. -/
def value? (g : Given) (s : Setting) : Option String :=
  (g.settings.find? fun e => e.1 = s).map Prod.snd

/-- All values of an option. -/
def values (g : Given) (s : Setting) : List String :=
  (g.settings.filter fun e => e.1 = s).map Prod.snd

def addSetting (g : Given) (s : Setting) (value : String) : Except Refusal Given :=
  if (s != .exclude && g.has s) || !s.admits value then .error .usage
  else .ok { g with settings := g.settings ++ [(s, value)] }

/-- One more operand, of which there are at most so many; none is empty. -/
def addOperand (limit : Nat) (g : Given) (operand : String) : Except Refusal Given :=
  if operand == "" || limit ≤ g.operands.length then .error .usage
  else .ok { g with operands := g.operands ++ [operand] }

end Given

/-- The long form of an option without its hyphens, split at its first equals sign. -/
def splitLong (cs : List Char) : String × Option String :=
  match cs.dropWhile (· ≠ '=') with
  | _ :: value => (String.ofList (cs.takeWhile (· ≠ '=')), some (String.ofList value))
  | [] => (String.ofList cs, none)

/-- Short options in one argument. An option with a value takes the rest of the argument, or else the
next argument: then it is given back. -/
def cluster (allowed : List Setting) : List Char → Given → Except Refusal (Given × Option Setting)
  | [], g => .ok (g, none)
  | c :: cs, g =>
    if c = 'h' then .error .help
    else match allowed.find? fun s => s.short? = some c with
      | none => .error .usage
      | some s =>
        if s.takesValue then
          match cs with
          | [] => .ok (g, some s)
          | '=' :: value => do return (← g.addSetting s (String.ofList value), none)
          | value => do return (← g.addSetting s (String.ofList value), none)
        else do
          cluster allowed cs (← g.addSetting s "")

/-- The argument is no value of an option: it has a hyphen and more. -/
def isOption (arg : String) : Bool :=
  match arg.toList with
  | '-' :: _ :: _ => true
  | _ => false

/-- The arguments after the name of a command. -/
def collect (allowed : List Setting) (limit : Nat) : List String → Given → Except Refusal Given
  | [], g => .ok g
  | arg :: args, g =>
    let valued (s : Setting) (g : Given) : Except Refusal Given :=
      match args with
      | value :: rest =>
        if isOption value then .error .usage
        else do collect allowed limit rest (← g.addSetting s value)
      | [] => .error .usage
    match arg.toList with
    | ['-', '-'] => args.foldlM (Given.addOperand limit) g
    | '-' :: '-' :: cs =>
      match splitLong cs with
      | ("help", none) => .error .help
      | (name, value?) =>
        match allowed.find? fun s => s.long = name, value? with
        | none, _ => .error .usage
        | some s, some value =>
          if s.takesValue then do collect allowed limit args (← g.addSetting s value)
          else .error .usage
        | some s, none =>
          if s.takesValue then valued s g
          else do collect allowed limit args (← g.addSetting s "")
    | '-' :: c :: cs => do
      match ← cluster allowed (c :: cs) g with
      | (g, some s) => valued s g
      | (g, none) => collect allowed limit args g
    | _ => do collect allowed limit args (← g.addOperand limit arg)

/-- The options of crawling that were given. -/
def Given.crawl (g : Given) : CrawlOptions where
  config := g.value? .config
  exclude :=
    if g.has .exclude then
      some ((g.values .exclude).flatMap fun v => (v.toList.splitOn ',').map String.ofList)
    else none
  keepRootName := g.has .keepRootName

/-- The direction that an option names. -/
def directionOf (value : String) : Direction :=
  if value == "added" then .added else .removed

/-- The arguments of a snapshot. -/
def snapshotRequest (args : List String) : Except Refusal Request := do
  let g ← collect [.output, .config, .exclude, .keepRootName, .verbose] 1 args {}
  match g.operands with
  | [input] => return .snapshot input (g.value? .output) g.crawl
  | _ => throw .usage

/-- The arguments of a comparison. -/
def diffRequest (args : List String) : Except Refusal Request := do
  let g ← collect [.only, .format, .failOnRemoved, .config, .exclude, .keepRootName, .verbose] 2
    args {}
  match g.operands with
  | [former, latter] =>
    let format := if g.value? .format = some "json" then Format.json else .text
    return .diff former latter ((g.value? .only).map directionOf) format (g.has .failOnRemoved)
      g.crawl
  | _ => throw .usage

/-- A request for help, on some command. -/
def helpRequest : List String → Except Refusal Request
  | [] => .error .help
  | topic :: _ => .error (if ["snapshot", "diff", "help"].contains topic then .help else .usage)

/-- Short options before the name of a command. -/
def topCluster : List Char → Bool → Except Refusal Bool
  | [], verbose => .ok verbose
  | 'h' :: _, _ => .error .help
  | 'V' :: _, _ => .error .version
  | 'v' :: cs, verbose => if verbose then .error .usage else topCluster cs true
  | _ :: _, _ => .error .usage

/-- A whole command line; the flag tells that verbosity was asked for already. -/
def parseFrom : List String → Bool → Except Refusal Request
  | [], _ => .error .usage
  | arg :: args, verbose =>
    match arg.toList with
    | '-' :: '-' :: cs =>
      match String.ofList cs with
      | "help" => .error .help
      | "version" => .error .version
      | "verbose" => if verbose then .error .usage else parseFrom args true
      | _ => .error .usage
    | '-' :: c :: cs => do parseFrom args (← topCluster (c :: cs) verbose)
    | _ => match arg with
      | "snapshot" => snapshotRequest args
      | "diff" => diffRequest args
      | "help" => helpRequest args
      | _ => .error .usage

/-- A whole command line. -/
def parse (args : List String) : Except Refusal Request :=
  parseFrom args false

end ApiSurface.Command
