import ApiSurface.Python.Expression

/-! The patterns of `case` clauses. -/

namespace ApiSurface.Python

namespace Reader

/-- A name with further names after points. -/
def dottedName : Nat → Wanted → Reader Unit
  | 0, _ => fail
  | n + 1, after => do
    let _ ← takeWord
    if ← settle after then return
    if ← accept "." then
      let _ ← settle {}
      dottedName n after

/-- Passes over a number. -/
def number : Reader Unit := do
  let size := numberLength (← rest)
  if size = 0 then fail
  take size

mutual

/-- A pattern, perhaps after a name and an equals sign, and the names it is bound to. -/
def casePattern : Nat → Context → Reader Unit
  | 0, _ => fail
  | n + 1, c => do
    let isName ← simplePattern n c
    let _ ← settle c.after
    if ← pure isName <&&> accept "=" then
      let _ ← settle operandNext
      let _ ← simplePattern n c
    casePatternTail n c

/-- Goes on after a pattern with the names it is bound to. -/
def casePatternTail : Nat → Context → Reader Unit
  | 0, _ => fail
  | n + 1, c => do
    let _ ← settle c.after
    if ← acceptWord "as" then
      let _ ← settle {}
      let _ ← takeWord
      casePatternTail n c

/-- Patterns with bars between them: tells whether it is a lone name. -/
def simplePattern : Nat → Context → Reader Bool
  | 0, _ => fail
  | n + 1, c => do
    let isName ← closedPattern n c
    let _ ← settle c.after
    if ← accept "|" then
      let _ ← settle operandNext
      let _ ← simplePattern n c
      return false
    else
      return isName

/-- A pattern without bars: tells whether it is a lone name. -/
def closedPattern : Nat → Context → Reader Bool
  | 0, _ => fail
  | n + 1, c => do
    let cs ← rest
    let w ← word
    if (stringStart? cs).isSome then
      strings n c
      return false
    else if ["None", "True", "False"].contains w then
      take w.length
      return false
    else if !w.isEmpty then
      take w.length
      let _ ← settle c.after
      let lone := !(← standing ".")
      if ← accept "." then
        let _ ← settle {}
        dottedName n c.after
      if ← accept "(" then
        casePatterns n ")"
        return false
      else
        return lone
    else if ← accept "(" then
      casePatterns n ")"
      return false
    else if ← accept "[" then
      casePatterns n "]"
      return false
    else if ← accept "\x7b" then
      keyPatterns n
      return false
    else if ← accept "**" <||> accept "*" then
      let _ ← settle {}
      let _ ← takeWord
      return false
    else
      if ← accept "-" then let _ ← settle {}
      number
      let _ ← settle c.after
      if ← accept "+" <||> accept "-" then
        let _ ← settle {}
        number
      return false

/-- Patterns with commas between them, up to the closing bracket. -/
def casePatterns : Nat → String → Reader Unit
  | 0, _ => fail
  | n + 1, close => do
    let _ ← settle operandOrClose
    unless ← accept close do
      casePattern n .bracketed
      let _ ← settle closeNext
      unless ← accept close do
        expect ","
        casePatterns n close

/-- Keys with their patterns, and the rest of a mapping, up to the closing brace. -/
def keyPatterns : Nat → Reader Unit
  | 0 => fail
  | n + 1 => do
    let _ ← settle operandOrClose
    unless ← accept "\x7d" do
      if ← accept "**" <||> accept "*" then
        let _ ← settle {}
        let _ ← takeWord
      else
        let _ ← simplePattern n {}
        expect ":"
        let _ ← settle operandNext
        casePattern n .bracketed
      let _ ← settle closeNext
      unless ← accept "\x7d" do
        expect ","
        keyPatterns n

end

end Reader

end ApiSurface.Python
