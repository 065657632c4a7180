import ApiSurface.Python.Reader

/-! Expressions. They hold no definitions, so they are only recognised; what is kept of one is its
shape: whether it could also stand on the left of an assignment, and whether it is a bare name. Each
reader starts at the first token of what it reads and ends at the token after it, or before the
blanks if the line ends there. The first argument bounds the depth of the recursion. -/

namespace ApiSurface.Python

/-- What an expression could be besides an operand. -/
structure Shape where
  /-- May stand on the left of an assignment. -/
  pattern : Bool := false
  /-- A bare name. -/
  name : Bool := false
  /-- A bare name, an attribute or an item: may stand on the left of an assignment after a star. -/
  target : Bool := false
  /-- Begins with a name, an attribute or an item: still an operand with a star before it. -/
  starrable : Bool := false

/-- Which part of a comprehension an expression stands in: after `in`, or after `if`. In both, an
`if` after an operand begins the next filter. -/
inductive Clause where
  | none
  | source
  | filter
deriving DecidableEq

/-- What may follow an expression: the end of the line, or a closing bracket. -/
structure Context where
  newline : Bool := false
  close : Bool := false
  clause : Clause := .none

namespace Context

/-- What is wanted after the expression. -/
def after (c : Context) : Wanted := { newline := c.newline, close := c.close }

/-- An expression between brackets, which the closing bracket may follow. -/
def bracketed : Context := { close := true }

/-- The context of the body of a `lambda`. -/
def body (c : Context) : Context :=
  { c with clause := if c.clause = .source then .source else .none }

end Context

/-- An operand has to stand next. -/
def operandNext : Wanted := { string := true }

/-- An operand or a closing bracket has to stand next. -/
def operandOrClose : Wanted := { close := true, string := true }

/-- A closing bracket may stand next. -/
def closeNext : Wanted := { close := true }

namespace Shape

/-- A name on its own. -/
def ofName : Shape := ⟨true, true, true, true⟩

/-- An attribute or item of what had shape `s`. -/
def access : Shape := ⟨true, false, true, true⟩

/-- What had shape `s`, with a call or an operator after it. -/
def extended (s : Shape) : Shape := { starrable := s.starrable }

/-- What had shape `s`, with a star before it. -/
def star (s : Shape) : Shape := { pattern := s.target }

end Shape

namespace Reader

/-- Words that go on after an operand and so cannot be an operand after `await`. -/
def continuationWords : List String :=
  ["and", "or", "not", "in", "is", "if", "else", "as", "for", "from"]

/-- A list of expressions ends here: at the end of the line or text, at a closing bracket, or at a
sign that goes on with the statement. -/
def listEnds (lineEnds : Bool) : Reader Bool := do
  let cs ← rest
  match cs with
  | [] => return true
  | c :: _ =>
    return lineEnds || ")]\x7d:;=!".toList.contains c || (firstStanding? augmentedOperators cs).isSome

/-- Another clause of a comprehension stands next. -/
def atComprehension : Reader Bool := do
  let w ← word
  return w == "for" || w == "async"

/-- An operand stands at the reading position that `await` can apply to. -/
def atPrimary : Reader Bool := do
  let cs ← rest
  let w := String.ofList (wordOf cs)
  if (stringStart? cs).isSome || numberLength cs != 0 then return true
  if !w.isEmpty then return !continuationWords.contains w
  if (firstStanding? ("**" :: augmentedOperators) cs).isSome then return false
  return (firstStanding? ["(", "[", "\x7b", "+", "-", "~", "*", "..."] cs).isSome

/-- Passes over a comparison operator and tells whether there was one. -/
def comparison : Reader Bool := do
  let w ← word
  if w == "in" then
    take 2
    return true
  else if w == "is" then
    take 2
    let _ ← settle operandNext
    let _ ← acceptWord "not"
    return true
  else if w == "not" then
    take 3
    let _ ← settle {}
    expectWord "in"
    return true
  else if (firstStanding? augmentedOperators (← rest)).isSome then
    return false
  else match firstStanding? comparisonSigns (← rest) with
    | some sign =>
      take sign.length
      return true
    | none => return false

mutual

/-- One expression. -/
def expression : Nat → Context → Reader Shape
  | 0, _ => fail
  | n + 1, c => do
    let w ← word
    if w == "not" then
      take 3
      let _ ← settle operandNext
      let _ ← expression n c
      return {}
    else if w == "lambda" then
      take 6
      let _ ← settle {}
      unless ← standing ":" do parameters n false
      expect ":"
      let _ ← settle operandNext
      let _ ← expression n c.body
      return {}
    else
      let s ← primary n c
      if ← pure s.name <&&> accept ":=" then
        let _ ← settle operandNext
        let _ ← expression n c
        return {}
      else
        expressionTail n c s

/-- Goes on after an operand with comparisons, `and`, `or`, `if` … `else` and `as`. -/
def expressionTail : Nat → Context → Shape → Reader Shape
  | 0, _, _ => fail
  | n + 1, c, s => do
    if ← settle c.after then return s
    let w ← word
    if w == "and" || w == "or" || w == "as" then
      take w.length
      let _ ← settle operandNext
      let _ ← expression n c
      return s.extended
    else if w == "if" && c.clause = .none then
      take 2
      let _ ← settle operandNext
      let _ ← expression n {}
      expectWord "else"
      let _ ← settle operandNext
      let _ ← expression n c
      return s.extended
    else if ← comparison then
      let _ ← settle operandNext
      let _ ← primary n c
      expressionTail n c s.extended
    else
      return s

/-- Operands of comparisons: arithmetic over operands. -/
def primary : Nat → Context → Reader Shape
  | 0, _ => fail
  | n + 1, c => do
    let s ← unary n c
    primaryTail n c s

/-- Goes on after an operand with arithmetic operators. -/
def primaryTail : Nat → Context → Shape → Reader Shape
  | 0, _, _ => fail
  | n + 1, c, s => do
    if ← settle c.after then return s
    match binaryOperator? (← rest) with
    | some sign =>
      take sign.length
      let _ ← settle operandNext
      let _ ← unary n c
      primaryTail n c s.extended
    | none => return s

/-- An operand with its signs and `await` before it. -/
def unary : Nat → Context → Reader Shape
  | 0, _ => fail
  | n + 1, c => do
    if (firstStanding? ["+", "-", "~"] (← rest)).isSome then
      take 1
      let _ ← settle operandNext
      let _ ← unary n c
      return {}
    else if ← atWord "await" then
      take 5
      if ← settle { c.after with string := true } then return .ofName
      if ← atPrimary then
        let _ ← unary n c
        return {}
      else
        trailer n c .ofName
    else
      operand n c

/-- An atom with its attributes, items and calls. -/
def operand : Nat → Context → Reader Shape
  | 0, _ => fail
  | n + 1, c => do
    let s ← atom n c
    trailer n c s

/-- Goes on after an atom with attributes, items and calls. -/
def trailer : Nat → Context → Shape → Reader Shape
  | 0, _, _ => fail
  | n + 1, c, s => do
    if ← settle c.after then return s
    if ← accept "." then
      let _ ← settle {}
      let _ ← takeWord
      trailer n c .access
    else if ← accept "(" then
      arguments n true
      trailer n c s.extended
    else if ← accept "[" then
      subscripts n
      trailer n c .access
    else
      return s

/-- A name, a literal, a bracketed expression, or an operand with a star before it. -/
def atom : Nat → Context → Reader Shape
  | 0, _ => fail
  | n + 1, c => do
    let cs ← rest
    if (stringStart? cs).isSome then
      strings n c
      return {}
    let w ← word
    if !w.isEmpty then
      take w.length
      return if ["None", "True", "False"].contains w then {} else .ofName
    let size := numberLength cs
    if size != 0 then
      take size
      return {}
    if ← accept "..." then
      return {}
    else if ← accept "(" then
      return { pattern := ← group n ")" }
    else if ← accept "[" then
      return { pattern := ← group n "]" }
    else if ← accept "\x7b" then
      braces n
      return {}
    else if ← acceptUnless "**" "*" then
      let _ ← settle operandNext
      let s ← operand n c
      if s.starrable then return s.star else fail
    else
      fail

/-- One string after the other. -/
def strings : Nat → Context → Reader Unit
  | 0, _ => fail
  | n + 1, c => do
    string n
    if ← settle { c.after with string := true } then return
    if (stringStart? (← rest)).isSome then strings n c

/-- One string. -/
def string : Nat → Reader Unit
  | 0 => fail
  | n + 1 => do
    match stringStart? (← rest) with
    | some (d, size) =>
      take size
      modify ({ · with formatted := d.format })
      stringBody n d
    | none => fail

/-- The rest of a string that was opened with `d`. -/
def stringBody : Nat → Delimiter → Reader Unit
  | 0, _ => fail
  | n + 1, d => do
    let cs ← rest
    if d.format && (firstStanding? ["\x7b\x7b", "\x7d\x7d"] cs).isSome then
      take 2
      stringBody n d
    else match pieceOf d cs false 0 with
      | .text size =>
        take size
        stringBody n d
      | .close size =>
        take size
        modify ({ · with formatted := false })
      | .stuck | .over =>
        if ← standing "\\" then
          take (escapeLength cs)
          stringBody n d
        else
          let (blanks, skipped) := blankLength cs
          take (blanks + skipped)
          if skipped != 0 then stringBody n d
          else
            expect "\x7b"
            interpolation n
            stringBody n d

/-- The rest of an interpolated expression: what is shown, then an equals sign, a conversion and a
format, each optional. -/
def interpolation : Nat → Reader Unit
  | 0 => fail
  | n + 1 => do
    let _ ← settle operandNext
    if ← atWord "yield" then yieldExpression n .bracketed
    else let _ ← expressionList n .bracketed
    let _ ← settle closeNext
    if ← accept "=" then let _ ← settle closeNext
    match ← rest with
    | '!' :: c :: _ => if c.isLower then
        take 2
        let _ ← settle closeNext
    | _ => pure ()
    if ← accept ":" then format n
    expect "\x7d"

/-- A format: text and interpolated expressions up to the closing brace. -/
def format : Nat → Reader Unit
  | 0 => fail
  | n + 1 => do
    let size := ((← rest).takeWhile fun c => c != '\x7b' && c != '\x7d' && c != '\x00').length
    take size
    if ← accept "\x7b" then
      interpolation n
      format n
    else
      return

/-- Expressions with commas between them and perhaps one after them; tells whether all of them may
stand on the left of an assignment. -/
def expressionList : Nat → Context → Reader Bool
  | 0, _ => fail
  | n + 1, c => do
    let s ← expression n c
    expressionListTail n c s.pattern

/-- Goes on with a list of expressions. -/
def expressionListTail : Nat → Context → Bool → Reader Bool
  | 0, _, _ => fail
  | n + 1, c, patterns => do
    if ← settle c.after then return patterns
    if ← accept "," then
      let lineEnds ← settle { c.after with string := true }
      if ← listEnds lineEnds then return patterns
      let s ← expression n c
      expressionListTail n c (patterns && s.pattern)
    else
      return patterns

/-- A `yield` with what it yields. -/
def yieldExpression : Nat → Context → Reader Unit
  | 0, _ => fail
  | n + 1, c => do
    expectWord "yield"
    let lineEnds ← settle { c.after with string := true }
    if (← listEnds lineEnds) || (← standing ",") then return
    if ← acceptWord "from" then
      let _ ← settle operandNext
      let _ ← expression n c
    else
      let _ ← expressionList n c

/-- An element of a display: tells its shape and whether it is an expression. -/
def element : Nat → Reader (Shape × Bool)
  | 0 => fail
  | n + 1 => do
    if ← atWord "yield" then
      yieldExpression n .bracketed
      return ({}, false)
    else if ← acceptUnless "**" "*" then
      let _ ← settle operandNext
      let s ← expression n .bracketed
      return (s.star, s.starrable)
    else
      return (← expression n .bracketed, true)

/-- What stands between two brackets: nothing, elements, or a comprehension; tells whether it may
stand on the left of an assignment. -/
def group : Nat → String → Reader Bool
  | 0, _ => fail
  | n + 1, close => do
    let _ ← settle operandOrClose
    if ← accept close then return true
    let (s, isExpression) ← element n
    let _ ← settle closeNext
    if isExpression && (← atComprehension) then
      comprehension n
      expect close
      return false
    else
      groupTail n close s.pattern

/-- Goes on with the elements of a display. -/
def groupTail : Nat → String → Bool → Reader Bool
  | 0, _, _ => fail
  | n + 1, close, patterns => do
    let _ ← settle closeNext
    if ← accept close then return patterns
    expect ","
    let _ ← settle operandOrClose
    if ← accept close then return patterns
    let (s, _) ← element n
    groupTail n close (patterns && s.pattern)

/-- What stands between braces: a dictionary, a set or a comprehension of either. -/
def braces : Nat → Reader Unit
  | 0 => fail
  | n + 1 => do
    let _ ← settle operandOrClose
    if ← accept "\x7d" then return
    if ← accept "," then
      let _ ← settle closeNext
      expect "\x7d"
    else if ← standing "**" then
      pair n
      pairsTail n
    else
      let (s, isExpression) ← element n
      let _ ← settle closeNext
      if ← pure isExpression <&&> accept ":" then
        let _ ← settle operandNext
        let _ ← expression n .bracketed
        let _ ← settle closeNext
        if ← atComprehension then
          comprehension n
          expect "\x7d"
        else
          pairsTail n
      else if isExpression && (← atComprehension) then
        comprehension n
        expect "\x7d"
      else
        let _ ← groupTail n "\x7d" s.pattern

/-- An entry of a dictionary. -/
def pair : Nat → Reader Unit
  | 0 => fail
  | n + 1 => do
    if ← accept "**" then
      let _ ← settle operandNext
      let _ ← expression n .bracketed
    else
      let _ ← expression n {}
      expect ":"
      let _ ← settle operandNext
      let _ ← expression n .bracketed

/-- Goes on with the entries of a dictionary. -/
def pairsTail : Nat → Reader Unit
  | 0 => fail
  | n + 1 => do
    let _ ← settle closeNext
    if ← accept "\x7d" then return
    expect ","
    let _ ← settle operandOrClose
    if ← accept "\x7d" then return
    pair n
    pairsTail n

/-- The clauses of a comprehension, the first of which is a `for`. -/
def comprehension : Nat → Reader Unit
  | 0 => fail
  | n + 1 => do
    if ← acceptWord "async" then let _ ← settle {}
    expectWord "for"
    let _ ← settle operandNext
    targets n
    expectWord "in"
    let _ ← settle operandNext
    sources n
    comprehensionTail n

/-- Goes on with the clauses of a comprehension. -/
def comprehensionTail : Nat → Reader Unit
  | 0 => fail
  | n + 1 => do
    let _ ← settle closeNext
    if ← atComprehension then
      comprehension n
    else if ← acceptWord "if" then
      let _ ← settle operandNext
      let _ ← expression n { close := true, clause := .filter }
      comprehensionTail n
    else
      return

/-- What a `for` of a comprehension runs over. -/
def sources : Nat → Reader Unit
  | 0 => fail
  | n + 1 => do
    let _ ← expression n { close := true, clause := .source }
    let _ ← settle closeNext
    if ← accept "," then
      let _ ← settle operandOrClose
      if (← listEnds false) || (← atComprehension) || (← atWord "if") then return
      sources n
    else
      return

/-- The left sides of a `for`, up to its `in`. -/
def targets : Nat → Reader Unit
  | 0 => fail
  | n + 1 => do
    let s ← operand n {}
    unless s.pattern do fail
    let _ ← settle {}
    if ← accept "," then
      let _ ← settle operandNext
      unless ← atWord "in" do targets n
    else
      return

/-- The arguments of a call after the opening bracket. A lone comprehension is allowed where
`generator` is set. -/
def arguments : Nat → Bool → Reader Unit
  | 0, _ => fail
  | n + 1, generator => do
    let _ ← settle operandOrClose
    if ← accept ")" then return
    if ← accept "," then
      let _ ← settle closeNext
      expect ")"
    else
      let isExpression ← argument n
      let _ ← settle closeNext
      if generator && isExpression && (← atComprehension) then
        comprehension n
        expect ")"
      else
        argumentsTail n

/-- Goes on with the arguments of a call. -/
def argumentsTail : Nat → Reader Unit
  | 0 => fail
  | n + 1 => do
    let _ ← settle closeNext
    if ← accept ")" then return
    expect ","
    let _ ← settle operandOrClose
    if ← accept ")" then return
    let _ ← argument n
    argumentsTail n

/-- One argument: tells whether it is an expression. -/
def argument : Nat → Reader Bool
  | 0 => fail
  | n + 1 => do
    if ← accept "**" then
      let _ ← settle operandNext
      let _ ← expression n .bracketed
      return false
    else if ← accept "*" then
      let _ ← settle operandNext
      return (← expression n .bracketed).starrable
    else
      let s ← expression n .bracketed
      if ← pure s.name <&&> acceptUnless "==" "=" then
        let _ ← settle operandNext
        let _ ← expression n .bracketed
        return false
      else
        return true

/-- What stands in an item access after the opening bracket: expressions and slices. -/
def subscripts : Nat → Reader Unit
  | 0 => fail
  | n + 1 => do
    let _ ← settle operandNext
    subscript n
    subscriptsTail n

/-- Goes on with expressions and slices. -/
def subscriptsTail : Nat → Reader Unit
  | 0 => fail
  | n + 1 => do
    let _ ← settle closeNext
    if ← accept "]" then return
    expect ","
    let _ ← settle operandOrClose
    if ← accept "]" then return
    subscript n
    subscriptsTail n

/-- An expression or a slice. -/
def subscript : Nat → Reader Unit
  | 0 => fail
  | n + 1 => do
    unless ← standing ":" do
      let _ ← expression n .bracketed
      let _ ← settle closeNext
    if ← accept ":" then
      bound n
      if ← accept ":" then bound n

/-- The end or the step of a slice, which may be left out. -/
def bound : Nat → Reader Unit
  | 0 => fail
  | n + 1 => do
    let _ ← settle operandOrClose
    unless (firstStanding? [":", ",", "]"] (← rest)).isSome do
      let _ ← expression n .bracketed
      let _ ← settle closeNext

/-- Parameters with commas between them: those of a definition, in brackets and with types, or those
of a `lambda`, up to its colon. -/
def parameters : Nat → Bool → Reader Unit
  | 0, _ => fail
  | n + 1, typed => do
    parameter n typed
    let _ ← settle { close := typed }
    if ← accept "," then
      let _ ← settle { close := typed }
      unless ← standing (if typed then ")" else ":") do parameters n typed
    else
      return

/-- One parameter. -/
def parameter : Nat → Bool → Reader Unit
  | 0, _ => fail
  | n + 1, typed => do
    if ← accept "**" then
      let _ ← settle operandNext
      unless (← operand n { close := typed }).target do fail
      annotation n typed
    else if ← accept "*" then
      let _ ← settle { close := typed, string := true }
      unless (firstStanding? [",", ")", ":"] (← rest)).isSome do
        unless (← operand n { close := typed }).target do fail
        annotation n typed
    else if ← accept "/" then
      return
    else if ← standing "(" then
      unless (← atom n { close := typed }).pattern do fail
      let _ ← settle { close := typed }
      default n typed
    else
      let _ ← takeWord
      let _ ← settle { close := typed }
      annotation n typed
      default n typed

/-- The type of a parameter, where one is allowed and given. -/
def annotation : Nat → Bool → Reader Unit
  | 0, _ => fail
  | n + 1, typed => do
    if ← pure typed <&&> accept ":" then
      let _ ← settle operandNext
      typeExpression n .bracketed true
      let _ ← settle closeNext

/-- The default value of a parameter, where one is given. -/
def default : Nat → Bool → Reader Unit
  | 0, _ => fail
  | n + 1, typed => do
    if ← acceptUnless "==" "=" then
      let _ ← settle operandNext
      let _ ← expression n { close := typed }

/-- A type: an expression, or a name with type parameters, which no call or further item access can
follow. A constraint after a colon is read where `constrained` is set. -/
def typeExpression : Nat → Context → Bool → Reader Unit
  | 0, _, _ => fail
  | n + 1, c, constrained => do
    if ← accept "**" then
      let _ ← settle {}
      let _ ← takeWord
      typeTail n c constrained true
    else
      let w ← word
      let start ← get
      let generic ←
        if w.isEmpty || operandKeywords.contains w || softKeywords.contains w
            || (stringStart? (← rest)).isSome then pure false
        else do
          take w.length
          if ← settle c.after then pure false else standing "["
      if generic then
        typeParameters n
      else
        set start
        let _ ← expression n c
      typeTail n c constrained generic

/-- Goes on after a type with alternatives, members and a constraint. -/
def typeTail : Nat → Context → Bool → Bool → Reader Unit
  | 0, _, _, _ => fail
  | n + 1, c, constrained, generic => do
    if ← settle c.after then return
    if ← pure generic <&&> acceptUnless "|=" "|" then
      let _ ← settle operandNext
      typeExpression n c constrained
    else if ← pure generic <&&> accept "." then
      let _ ← settle {}
      let _ ← takeWord
      typeTail n c constrained generic
    else if ← pure constrained <&&> accept ":" then
      let _ ← settle operandNext
      typeExpression n c constrained
    else
      return

/-- Types in square brackets. -/
def typeParameters : Nat → Reader Unit
  | 0 => fail
  | n + 1 => do
    expect "["
    let _ ← settle operandNext
    typeList n

/-- Types with commas between them, up to the closing bracket. -/
def typeList : Nat → Reader Unit
  | 0 => fail
  | n + 1 => do
    typeExpression n .bracketed true
    let _ ← settle closeNext
    if ← accept "," then
      let _ ← settle operandNext
      typeList n
    else
      expect "]"

end

end Reader

end ApiSurface.Python
