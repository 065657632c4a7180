import ApiSurface.Python.CasePattern

/-! Statements. Simple statements end with their line; a compound statement has bodies, each of
which is the rest of the line or an indented block. Reading gives the nodes of the syntax tree. -/

namespace ApiSurface.Python

/-- A statement on a line: the end of the line may follow. -/
def Context.line : Context := { newline := true }

/-- The end of the line may stand next. -/
def newlineNext : Wanted := { newline := true }

/-- An operand or the end of the line may stand next. -/
def operandOrNewline : Wanted := { newline := true, string := true }

namespace Reader

/-- Looks at the line structure before the next token; unless there is none, the reading position
stays. -/
def upcoming (w : Wanted) : Reader Break := fun r =>
  match r.next w with
  | (.none, moved) => .ok (.none, moved)
  | (found, _) => .ok (found, r)

/-- The statement ends here. -/
def statementEnds : Reader Bool := do
  if ← settle newlineNext then return true
  standing ";"

/-- Words that go on after a name, so that a statement that starts with a soft keyword before them is
an expression. -/
def operatorWords : List String := ["and", "or", "in", "is", "if", "as"]

/-- An expression can begin here, after a soft keyword. -/
def atExpression : Reader Bool := do
  let cs ← rest
  let w := String.ofList (wordOf cs)
  if (stringStart? cs).isSome || numberLength cs != 0 then return true
  if !w.isEmpty then return !operatorWords.contains w
  if (firstStanding? ("**" :: augmentedOperators) cs).isSome then return false
  return (firstStanding? ["(", "[", "\x7b", "+", "-", "~", "*", "..."] cs).isSome

mutual

/-- An expression statement: a `yield`, a list of expressions, or an assignment. -/
def assignment : Nat → Reader Unit
  | 0 => fail
  | n + 1 => do
    if ← atWord "yield" then
      yieldExpression n .line
    else
      let patterns ← expressionList n .line
      if (← settle newlineNext) || !patterns then return
      if let some sign := firstStanding? augmentedOperators (← rest) then
        take sign.length
        rightSide n
      else if ← accept ":" then
        let _ ← settle operandNext
        typeExpression n .line true
        if ← settle newlineNext then return
        if ← accept "=" then rightSide n
      else if ← accept "=" then
        rightSide n

/-- What an assignment assigns: an expression statement again. -/
def rightSide : Nat → Reader Unit
  | 0 => fail
  | n + 1 => do
    let _ ← settle operandNext
    assignment n

end

/-- Expressions with commas between them, each with one after it but the last. -/
def expressions : Nat → Reader Unit
  | 0 => fail
  | n + 1 => do
    let _ ← expression n .line
    if ← settle newlineNext then return
    if ← accept "," then
      let _ ← settle operandNext
      expressions n

/-- Names with commas between them. -/
def names : Nat → Reader Unit
  | 0 => fail
  | n + 1 => do
    let _ ← takeWord
    if ← settle newlineNext then return
    if ← accept "," then
      let _ ← settle {}
      names n

/-- Imported names, each perhaps with the name it gets here. -/
def importedNames : Nat → Context → Reader Unit
  | 0, _ => fail
  | n + 1, c => do
    dottedName n c.after
    if ← settle c.after then return
    if ← acceptWord "as" then
      let _ ← settle {}
      let _ ← takeWord
    if ← settle c.after then return
    if ← accept "," then
      let lineEnds ← settle c.after
      if ← listEnds lineEnds then return
      importedNames n c

/-- Points before a module name. -/
def points : Nat → Reader Bool
  | 0 => fail
  | n + 1 => do
    if ← accept "." then
      let _ ← settle {}
      let _ ← points n
      return true
    else
      return false

/-- What a `from` statement imports, from its `import` on. -/
def importPart (n : Nat) (star : Bool) : Reader Unit := do
  expectWord "import"
  let _ ← settle {}
  if ← accept "(" then
    let _ ← settle {}
    importedNames n .bracketed
    let _ ← settle closeNext
    expect ")"
  else if ← pure star <&&> accept "*" then
    return
  else
    importedNames n .line

/-- The rest of a `from` statement. -/
def fromImport (n : Nat) : Reader Unit := do
  let _ ← settle {}
  if ← acceptWord "__future__" then
    let _ ← settle {}
    importPart n false
  else
    let relative ← points n
    unless relative && (← atWord "import") do dottedName n {}
    let _ ← settle {}
    importPart n true

/-- The rest of a `raise` statement. -/
def raised (n : Nat) : Reader Unit := do
  let lineEnds ← settle operandOrNewline
  if ← listEnds lineEnds then return
  unless ← atWord "from" do let _ ← expressionList n .line
  if ← settle newlineNext then return
  if ← acceptWord "from" then
    let _ ← settle operandNext
    let _ ← expression n .line

/-- A `print` statement or an expression that begins with the name `print`. -/
def printed (n : Nat) : Reader Unit := do
  let start ← get
  take 5
  if ← settle operandOrNewline then return
  if ← acceptUnless ">>=" ">>" then
    let _ ← settle operandNext
    let _ ← expressionList n .line
  else if ← atExpression then
    let arguments ← get
    either
      (do
        set start
        assignment n
        unless ← statementEnds do fail)
      (do
        set arguments
        let _ ← expressionList n .line)
  else
    set start
    assignment n

/-- An `exec` statement or an expression that begins with the name `exec`. -/
def executed (n : Nat) : Reader Unit := do
  let start ← get
  take 4
  if ← settle operandOrNewline then return
  let w ← word
  let isText := (stringStart? (← rest)).isSome
  if isText || !(w.isEmpty || w == "not" || operatorWords.contains w) then
    if isText then string n else let _ ← takeWord
    if ← settle newlineNext then return
    if ← acceptWord "in" then
      let _ ← settle operandNext
      expressions n
  else
    set start
    assignment n

/-- A `type` statement or an expression that begins with the name `type`. -/
def typeAlias (n : Nat) : Reader Unit := do
  let start ← get
  take 4
  if ← settle operandOrNewline then return
  let before ← get
  if ← atExpression then
    either
      (do
        set start
        assignment n
        unless ← statementEnds do fail)
      (do
        set before
        typeExpression n {} true
        expect "="
        let _ ← settle operandNext
        typeExpression n .line true)
  else
    set start
    assignment n

/-- A statement without a body. -/
def simple (n : Nat) : Reader Unit := do
  match ← word with
  | "import" =>
    take 6
    let _ ← settle {}
    importedNames n .line
  | "from" =>
    take 4
    fromImport n
  | "print" => printed n
  | "exec" => executed n
  | "type" => typeAlias n
  | "assert" =>
    take 6
    let _ ← settle operandNext
    expressions n
  | "return" =>
    take 6
    let lineEnds ← settle operandOrNewline
    unless ← listEnds lineEnds do let _ ← expressionList n .line
  | "del" =>
    take 3
    let _ ← settle operandNext
    let _ ← expressionList n .line
  | "raise" =>
    take 5
    raised n
  | "pass" => take 4
  | "break" => take 5
  | "continue" => take 8
  | "global" =>
    take 6
    let _ ← settle {}
    names n
  | "nonlocal" =>
    take 8
    let _ ← settle {}
    names n
  | _ => assignment n

/-- Simple statements with semicolons between them, up to the end of the line. -/
def simpleLine : Nat → Reader (List Node)
  | 0 => fail
  | n + 1 => do
    let start ← here
    simple n
    let node := Node.leaf .simple start
    if ← settle newlineNext then return [node]
    if ← accept ";" then
      if ← settle operandOrNewline then return [node]
      return node :: (← simpleLine n)
    else
      fail

mutual

/-- A statement; `inBlock` tells whether it stands in a block, which may end after it. -/
def statement : Nat → Bool → Reader (List Node)
  | 0, _ => fail
  | n + 1, inBlock => do
    let start ← here
    let compound (parts : List Node) : List Node := [Node.ofChildren .compound start parts]
    match ← word with
    | "if" =>
      take 2
      return compound (← conditional n inBlock)
    | "while" =>
      take 5
      let _ ← settle operandNext
      let _ ← expression n {}
      let body ← suite n
      return compound (body :: (← alternative n inBlock))
    | "for" =>
      take 3
      return compound (← iteration n inBlock)
    | "try" =>
      take 3
      let _ ← settle {}
      let body ← suite n
      return compound (body :: (← handlers n inBlock))
    | "with" =>
      take 4
      return compound [← resources n]
    | "def" =>
      take 3
      return [← function n start false]
    | "class" =>
      take 5
      return [← classDefinition n start]
    | "async" =>
      let before ← get
      take 5
      let lineEnds ← settle newlineNext
      let w ← word
      if !lineEnds && w == "def" then
        take 3
        return [← function n start true]
      else if !lineEnds && w == "for" then
        take 3
        return compound (← iteration n inBlock)
      else if !lineEnds && w == "with" then
        take 4
        return compound [← resources n]
      else
        set before
        simpleLine n
    | "match" =>
      let before ← get
      take 5
      if !(← settle operandOrNewline) && (← atExpression) then
        return compound [← selection n]
      else
        set before
        simpleLine n
    | _ =>
      if ← standing "@" then
        return [Node.ofChildren .decorated start [← decorated n]]
      else
        simpleLine n

/-- The body of a compound statement, from its colon on: the rest of the line, an indented block, or
nothing. -/
def suite : Nat → Reader Node
  | 0 => fail
  | n + 1 => do
    expect ":"
    let start ← here
    match ← next { newline := true, indent := true, string := true } with
    | .newline => return Node.leaf .block start
    | .indent => return Node.ofChildren .block start (← block n)
    | .none => return Node.ofChildren .block start (← simpleLine n)
    | .dedent => fail

/-- The statements of an indented block, up to its end. -/
def block : Nat → Reader (List Node)
  | 0 => fail
  | n + 1 => do
    match ← next { dedent := true, string := true } with
    | .dedent => return []
    | _ =>
      let first ← statement n true
      return first ++ (← block n)

/-- A clause with nothing between its word and its colon. -/
def clause : Nat → Position → Reader Node
  | 0, _ => fail
  | n + 1, start => do
    let _ ← settle {}
    return Node.ofChildren .clause start [← suite n]

/-- An `else` clause, if there is one. -/
def alternative : Nat → Bool → Reader (List Node)
  | 0, _ => fail
  | n + 1, inBlock => do
    if (← upcoming { dedent := inBlock, string := true }) != .none then return []
    let start ← here
    if ← acceptWord "else" then
      return [← clause n start]
    else
      return []

/-- The parts of an `if` or `elif` after its word. -/
def conditional : Nat → Bool → Reader (List Node)
  | 0, _ => fail
  | n + 1, inBlock => do
    let _ ← settle operandNext
    let _ ← expression n {}
    let body ← suite n
    if (← upcoming { dedent := inBlock, string := true }) != .none then return [body]
    let start ← here
    if ← acceptWord "elif" then
      match ← conditional n inBlock with
      | inner :: others => return body :: Node.ofChildren .clause start [inner] :: others
      | [] => return [body]
    else
      return body :: (← alternative n inBlock)

/-- The parts of a `for` after its word. -/
def iteration : Nat → Bool → Reader (List Node)
  | 0, _ => fail
  | n + 1, inBlock => do
    let _ ← settle operandNext
    targets n
    expectWord "in"
    let _ ← settle operandNext
    let _ ← expressionList n {}
    let body ← suite n
    return body :: (← alternative n inBlock)

/-- The body of a `with` after its word. -/
def resources : Nat → Reader Node
  | 0 => fail
  | n + 1 => do
    let _ ← settle operandNext
    let _ ← expressionList n {}
    suite n

/-- The clauses of a `try` after its body: handlers of exceptions or of exception groups, then
perhaps `else` and `finally`, or `finally` alone. -/
def handlers : Nat → Bool → Reader (List Node)
  | 0, _ => fail
  | n + 1, inBlock => do
    if (← upcoming { dedent := inBlock, handler := true, string := true }) != .none then fail
    if ← standing "except*" then
      groupHandlers n inBlock
    else if ← atWord "except" then
      plainHandlers n inBlock
    else if ← atWord "finally" then
      finish n inBlock
    else
      fail

/-- Handlers of exceptions, and what follows them. -/
def plainHandlers : Nat → Bool → Reader (List Node)
  | 0, _ => fail
  | n + 1, inBlock => do
    let start ← here
    expectWord "except"
    let _ ← settle operandNext
    unless ← standing ":" do
      let _ ← expression n {}
      if ← accept "," then
        let _ ← settle operandNext
        let _ ← expression n {}
    let handler := Node.ofChildren .clause start [← suite n]
    if (← upcoming { dedent := inBlock, handler := true, string := true }) != .none then
      return [handler]
    if ← atWord "except" then
      return handler :: (← plainHandlers n inBlock)
    else
      let otherwise ← alternative n inBlock
      return handler :: otherwise ++ (← finish n inBlock)

/-- Handlers of exception groups, and what follows them. -/
def groupHandlers : Nat → Bool → Reader (List Node)
  | 0, _ => fail
  | n + 1, inBlock => do
    let start ← here
    expect "except*"
    let _ ← settle operandNext
    let _ ← expression n {}
    let handler := Node.ofChildren .clause start [← suite n]
    if (← upcoming { dedent := inBlock, handler := true, string := true }) != .none then
      return [handler]
    if ← standing "except*" then
      return handler :: (← groupHandlers n inBlock)
    else
      let otherwise ← alternative n inBlock
      return handler :: otherwise ++ (← finish n inBlock)

/-- A `finally` clause, if there is one. -/
def finish : Nat → Bool → Reader (List Node)
  | 0, _ => fail
  | n + 1, inBlock => do
    if (← upcoming { dedent := inBlock, string := true }) != .none then return []
    let start ← here
    if ← acceptWord "finally" then
      return [← clause n start]
    else
      return []

/-- A function after its `def`. -/
def function : Nat → Position → Bool → Reader Node
  | 0, _, _ => fail
  | n + 1, start, isAsync => do
    let _ ← settle {}
    let name ← takeWord
    let _ ← settle {}
    if ← standing "[" then
      typeParameters n
      let _ ← settle {}
    expect "("
    let _ ← settle closeNext
    unless ← standing ")" do parameters n true
    expect ")"
    let _ ← settle {}
    if ← accept "->" then
      let _ ← settle operandNext
      typeExpression n {} false
    return Node.ofChildren (.function name isAsync) start [← suite n]

/-- A class after its `class`. -/
def classDefinition : Nat → Position → Reader Node
  | 0, _ => fail
  | n + 1, start => do
    let _ ← settle {}
    let name ← takeWord
    let _ ← settle {}
    if ← standing "[" then
      typeParameters n
      let _ ← settle {}
    if ← accept "(" then
      arguments n false
      let _ ← settle {}
    return Node.ofChildren (.classDefinition name) start [← suite n]

/-- Decorators and the definition after them. -/
def decorated : Nat → Reader Node
  | 0 => fail
  | n + 1 => do
    let start ← here
    if ← accept "@" then
      let _ ← settle operandNext
      let _ ← expression n .line
      unless ← settle newlineNext do fail
      let _ ← settle {}
      decorated n
    else if ← acceptWord "class" then
      classDefinition n start
    else
      let isAsync ← acceptWord "async"
      let _ ← settle {}
      expectWord "def"
      function n start isAsync

/-- A `match` after its word: its body holds the cases. -/
def selection : Nat → Reader Node
  | 0 => fail
  | n + 1 => do
    let _ ← expressionList n {}
    expect ":"
    let start ← here
    match ← next { newline := true, indent := true } with
    | .indent => return Node.ofChildren .block start (← caseClauses n)
    | _ => return Node.leaf .block start

/-- The cases of a `match`, up to the end of its block. -/
def caseClauses : Nat → Reader (List Node)
  | 0 => fail
  | n + 1 => do
    match ← next { dedent := true } with
    | .dedent => return []
    | _ =>
      let start ← here
      expectWord "case"
      let _ ← settle operandNext
      patterns n
      if ← acceptWord "if" then
        let _ ← settle operandNext
        let _ ← expression n {}
      let one := Node.ofChildren .clause start [← suite n]
      return one :: (← caseClauses n)

/-- The patterns of a case. -/
def patterns : Nat → Reader Unit
  | 0 => fail
  | n + 1 => do
    casePattern n {}
    let _ ← settle {}
    if ← accept "," then
      let _ ← settle operandNext
      unless (← standing ":") || (← atWord "if") do patterns n

end

/-- The statements of a text, up to its end. -/
def statements : Nat → Reader (List Node)
  | 0 => fail
  | n + 1 => do
    let _ ← next { string := true }
    if (← rest).isEmpty then return []
    let first ← statement n false
    return first ++ (← statements n)

end Reader

end ApiSurface.Python
