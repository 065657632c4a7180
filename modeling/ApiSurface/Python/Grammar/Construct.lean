import ApiSurface.Python.Grammar.Rule

/-! The grammar of Python sources. Each construct has one rule. A repetition is a construct of its
own, whose rule is the rule of one of its parts. The older spellings of the language (`print` and
`exec` as statements, `<>`, backquotes) and the newer ones (`match`, type parameters) are read side
by side; what a source means is not looked at, only its shape. -/

namespace ApiSurface.Python

/-- What the grammar has a rule for. -/
inductive Construct where
  | source | module | statement | simpleStatements
  | importStatement | importDots | relativeImport | futureImport | fromImport | importList
  | renamedImport | wildcard | printStatement | chevron | assertStatement | expressionStatement
  | namedExpression | namedTarget | returnStatement | deleteStatement | raiseStatement
  | passStatement | breakStatement | continueStatement
  | ifStatement | elifClause | elseClause | matchStatement | matchBody | caseClause
  | forStatement | whileStatement | tryStatement | exceptClause | exceptGroupClause
  | finallyClause | withStatement | withClause | withItem
  | functionDefinition | parameters | lambdaParameters | listSplat | dictionarySplat
  | globalStatement | nonlocalStatement | execStatement | typeAlias
  | classDefinition | typeParameters | parenthesizedSplat | arguments
  | decoratedDefinition | decorator | block | expressionList | dottedName
  | casePattern | simplePattern | asCase | unionPattern | listCase | tupleCase | dictionaryCase
  | keyValueCase | keywordCase | splatCase | classCase | complexCase
  | parameterList | patterns | parameter | pattern | tuplePattern | listPattern
  | defaultParameter | typedDefaultParameter | splatPattern | dictionarySplatPattern
  | asExpression | sourceExpression | expression | primary
  | notOperation | booleanOperation | binaryOperation | unaryOperation | comparison
  | lambdaExpression | sourceLambda | assignment | augmentedAssignment | patternList | rightSide
  | yieldExpression | member | subscript | slice | call
  | typedParameter | typeExpression | splatType | genericType | unionType | constrainedType
  | memberType | keywordArgument
  | listDisplay | setDisplay | tupleDisplay | dictionaryDisplay | pair
  | listComprehension | dictionaryComprehension | setComprehension | generator
  | comprehensionClauses | parenthesized | elements | forClause | ifClause | conditional
  | joinedStrings | string | stringContent | replacement | replaced | formatSpecifier
  | awaitExpression | positionalMark | keywordMark
  /- repetitions -/
  | statements | moreStatements | dots | moreImports | morePrinted | moreExpressions
  | elifClauses | moreSubjects | caseClauses | moreCases | exceptClauses | exceptGroupClauses
  | moreItems | moreNames | moreTypes | moreArguments | decorators | moreDottedNames
  | moreUnionParts | moreKeyValues | moreParameters | morePatterns | moreOperands
  | moreSubscripts | morePairs | moreClauses | moreElements | moreSources | moreStrings
  | stringParts | contentParts | formatParts
deriving DecidableEq, Repr, Inhabited

namespace Construct

/-- How a construct shows in a syntax tree: as a node, only through its parts, or, for a repetition,
through the parts of all its parts. -/
inductive Role where
  | shown
  | hidden
  | repetition
deriving DecidableEq, Repr

def role : Construct → Role
  | statement | simpleStatements | importList | namedTarget | matchBody | simplePattern | asCase
  | listCase | tupleCase | keyValueCase | parameterList | patterns | parameter | pattern
  | sourceExpression | expression | primary | rightSide | comprehensionClauses | elements
  | replaced => .hidden
  | statements | moreStatements | dots | moreImports | morePrinted | moreExpressions
  | elifClauses | moreSubjects | caseClauses | moreCases | exceptClauses | exceptGroupClauses
  | moreItems | moreNames | moreTypes | moreArguments | decorators | moreDottedNames
  | moreUnionParts | moreKeyValues | moreParameters | morePatterns | moreOperands
  | moreSubscripts | morePairs | moreClauses | moreElements | moreSources | moreStrings
  | stringParts | contentParts | formatParts => .repetition
  | _ => .shown

open Rule Terminal

/-- Keywords that may also be names. -/
def softName : Rule Construct :=
  choice [ranked (-3) none (choice ["print", "exec", "async", "await", "match"]), "type"]

/-- Statements that fit on a line. -/
def simpleStatement : Rule Construct :=
  choice [futureImport, importStatement, fromImport, printStatement, assertStatement,
    expressionStatement, returnStatement, deleteStatement, raiseStatement, passStatement,
    breakStatement, continueStatement, globalStatement, nonlocalStatement, execStatement, typeAlias]

/-- Statements with bodies. -/
def compoundStatement : Rule Construct :=
  choice [ifStatement, forStatement, whileStatement, tryStatement, withStatement,
    functionDefinition, classDefinition, decoratedDefinition, matchStatement]

/-- The body of a statement: the rest of its line, an indented block, or nothing. -/
def suite : Rule Construct :=
  choice [simpleStatements, seq [indent, block], newline]

/-- One expression or several. -/
def expressions : Rule Construct := choice [expression, expressionList]

/-- What is assigned to. -/
def leftSide : Rule Construct := choice [pattern, patternList]

def imported : Rule Construct := choice [dottedName, renamedImport]

def argument : Rule Construct :=
  choice [expression, listSplat, dictionarySplat, parenthesizedSplat, keywordArgument]

def number : Rule Construct := choice [integer, float]

def keyValue : Rule Construct := choice [keyValueCase, splatCase]

/-- What may stand between the parentheses of a case pattern of several parts. -/
def casePatterns : Rule Construct := optional (seq [casePattern, optional moreCases, optional ","])

def splatted : Rule Construct := choice [name, softName, subscript, member]

def subscripted : Rule Construct := choice [expression, slice]

def entry : Rule Construct := choice [pair, dictionarySplat]

def element : Rule Construct := choice [expression, yieldExpression, listSplat, parenthesizedSplat]

/-- A binary operation with operators of one rank. -/
def operation (rank : Int) (side : Side) (operators : List String) : Rule Construct :=
  choice (operators.map fun (o : String) => ranked rank (some side) (seq [primary, o, primary]))

/-- The rule of a construct; for a repetition that of one part. -/
def rule : Construct → Rule Construct
  | source => module
  | module => optional statements
  | statements => statement
  | statement => choice [simpleStatements, compoundStatement]
  | simpleStatements => seq [simpleStatement, optional moreStatements, optional ";", newline]
  | moreStatements => seq [";", simpleStatement]
  | importStatement => seq ["import", importList]
  | importDots => dots
  | dots => "."
  | relativeImport => seq [importDots, optional dottedName]
  | futureImport =>
    seq ["from", "__future__", "import", choice [importList, seq ["(", importList, ")"]]]
  | fromImport =>
    seq ["from", choice [relativeImport, dottedName], "import",
      choice [wildcard, importList, seq ["(", importList, ")"]]]
  | importList => seq [imported, optional moreImports, optional ","]
  | moreImports => seq [",", imported]
  | renamedImport => seq [dottedName, "as", name]
  | wildcard => "*"
  | printStatement =>
    choice [ranked 1 none (seq ["print", chevron, optional morePrinted, optional ","]),
      ranked (-3) none (seq ["print", expression, optional morePrinted, optional ","])]
  | morePrinted => seq [",", expression]
  | chevron => seq [">>", expression]
  | assertStatement => seq ["assert", expression, optional moreExpressions]
  | moreExpressions => seq [",", expression]
  | expressionStatement =>
    choice [expression, seq [expression, optional moreExpressions, optional ","], assignment,
      augmentedAssignment, yieldExpression]
  | namedExpression => seq [namedTarget, ":=", expression]
  | namedTarget => choice [name, softName]
  | returnStatement => seq ["return", optional expressions]
  | deleteStatement => seq ["del", expressions]
  | raiseStatement => seq ["raise", optional expressions, optional (seq ["from", expression])]
  | passStatement => ranked 0 (some .left) "pass"
  | breakStatement => ranked 0 (some .left) "break"
  | continueStatement => ranked 0 (some .left) "continue"
  | ifStatement => seq ["if", expression, ":", suite, optional elifClauses, optional elseClause]
  | elifClauses => elifClause
  | elifClause => seq ["elif", expression, ":", suite]
  | elseClause => seq ["else", ":", suite]
  | matchStatement =>
    seq ["match", expression, optional moreSubjects, optional ",", ":", matchBody]
  | moreSubjects => seq [",", expression]
  | matchBody => choice [seq [indent, optional caseClauses, dedent], newline]
  | caseClauses => caseClause
  | caseClause =>
    seq ["case", casePattern, optional moreCases, optional ",", optional ifClause, ":", suite]
  | moreCases => seq [",", casePattern]
  | forStatement =>
    seq [optional "async", "for", leftSide, "in", expressions, ":", suite, optional elseClause]
  | whileStatement => seq ["while", expression, ":", suite, optional elseClause]
  | tryStatement =>
    seq ["try", ":", suite,
      choice [seq [exceptClauses, optional elseClause, optional finallyClause],
        seq [exceptGroupClauses, optional elseClause, optional finallyClause], finallyClause]]
  | exceptClauses => exceptClause
  | exceptGroupClauses => exceptGroupClause
  | exceptClause =>
    seq ["except",
      optional (seq [expression, optional (seq [choice ["as", ","], expression])]), ":", suite]
  | exceptGroupClause => seq ["except*", expression, optional (seq ["as", expression]), ":", suite]
  | finallyClause => seq ["finally", ":", suite]
  | withStatement => seq [optional "async", "with", withClause, ":", suite]
  | withClause =>
    choice [seq [withItem, optional moreItems, optional ","],
      seq ["(", withItem, optional moreItems, optional ",", ")"]]
  | moreItems => seq [",", withItem]
  | withItem => expression
  | functionDefinition =>
    seq [optional "async", "def", name, optional typeParameters, parameters,
      optional (seq ["->", typeExpression]), ":", suite]
  | parameters => seq ["(", optional parameterList, ")"]
  | lambdaParameters => parameterList
  | listSplat => seq ["*", expression]
  | dictionarySplat => seq ["**", expression]
  | globalStatement => seq ["global", name, optional moreNames]
  | nonlocalStatement => seq ["nonlocal", name, optional moreNames]
  | moreNames => seq [",", name]
  | execStatement =>
    seq ["exec", choice [string, name], optional (seq ["in", expression, optional moreExpressions])]
  | typeAlias => seq ["type", typeExpression, "=", typeExpression]
  | classDefinition => seq ["class", name, optional typeParameters, optional arguments, ":", suite]
  | typeParameters => seq ["[", typeExpression, optional moreTypes, "]"]
  | moreTypes => seq [",", typeExpression]
  | parenthesizedSplat =>
    ranked 1 none (seq ["(", choice [parenthesizedSplat, listSplat], ")"])
  | arguments =>
    seq ["(", optional (seq [argument, optional moreArguments]), optional ",", ")"]
  | moreArguments => seq [",", argument]
  | decoratedDefinition => seq [decorators, choice [classDefinition, functionDefinition]]
  | decorators => decorator
  | decorator => seq ["@", expression, newline]
  | block => seq [optional statements, dedent]
  | expressionList =>
    ranked 0 (some .right) (seq [expression, choice [",", seq [moreExpressions, optional ","]]])
  | dottedName => ranked 1 none (seq [name, optional moreDottedNames])
  | moreDottedNames => seq [".", name]
  | casePattern => ranked 1 none (choice [asCase, keywordCase, simplePattern])
  | simplePattern =>
    ranked 1 none (choice [classCase, splatCase, unionPattern, listCase, tupleCase, dictionaryCase,
      string, joinedStrings, "True", "False", "None", seq [optional "-", number], complexCase,
      dottedName, "_"])
  | asCase => seq [casePattern, "as", name]
  | unionPattern => ranked 0 (some .right) (seq [simplePattern, moreUnionParts])
  | moreUnionParts => ranked 0 (some .left) (seq ["|", simplePattern])
  | listCase => seq ["[", casePatterns, "]"]
  | tupleCase => seq ["(", casePatterns, ")"]
  | dictionaryCase =>
    seq ["\x7b", optional (seq [keyValue, optional moreKeyValues, optional ","]), "\x7d"]
  | moreKeyValues => seq [",", keyValue]
  | keyValueCase => seq [simplePattern, ":", casePattern]
  | keywordCase => seq [name, "=", simplePattern]
  | splatCase => ranked 1 none (seq [choice ["*", "**"], choice [name, "_"]])
  | classCase => seq [dottedName, "(", casePatterns, ")"]
  | complexCase => ranked 1 none (seq [optional "-", number, choice ["+", "-"], number])
  | parameterList => seq [parameter, optional moreParameters, optional ","]
  | moreParameters => seq [",", parameter]
  | patterns => seq [pattern, optional morePatterns, optional ","]
  | morePatterns => seq [",", pattern]
  | parameter =>
    choice [name, typedParameter, defaultParameter, typedDefaultParameter, splatPattern,
      tuplePattern, keywordMark, positionalMark, dictionarySplatPattern]
  | pattern => choice [name, softName, subscript, member, splatPattern, tuplePattern, listPattern]
  | tuplePattern => seq ["(", optional patterns, ")"]
  | listPattern => seq ["[", optional patterns, "]"]
  | defaultParameter => seq [choice [name, tuplePattern], "=", expression]
  | typedDefaultParameter => ranked (-1) none (seq [name, ":", typeExpression, "=", expression])
  | splatPattern => seq ["*", splatted]
  | dictionarySplatPattern => seq ["**", splatted]
  | asExpression => ranked 0 (some .left) (seq [expression, "as", expression])
  | sourceExpression => choice [expression, sourceLambda]
  | expression =>
    choice [comparison, notOperation, booleanOperation, lambdaExpression, primary, conditional,
      namedExpression, asExpression]
  | primary =>
    choice [awaitExpression, binaryOperation, name, softName, string, joinedStrings, integer,
      float, "True", "False", "None", unaryOperation, member, subscript, call, listDisplay,
      listComprehension, dictionaryDisplay, dictionaryComprehension, setDisplay, setComprehension,
      tupleDisplay, parenthesized, generator, "...", splatPattern]
  | notOperation => ranked 12 none (seq ["not", expression])
  | booleanOperation =>
    choice [ranked 11 (some .left) (seq [expression, "and", expression]),
      ranked 10 (some .left) (seq [expression, "or", expression])]
  | binaryOperation =>
    choice [operation 18 .left ["+", "-"], operation 19 .left ["*", "@", "/", "%", "//"],
      operation 21 .right ["**"], operation 14 .left ["|"], operation 15 .left ["&"],
      operation 16 .left ["^"], operation 17 .left ["<<", ">>"]]
  | unaryOperation => ranked 20 none (seq [choice ["+", "-", "~"], primary])
  | comparison => ranked 13 (some .left) (seq [primary, moreOperands])
  | moreOperands =>
    seq [choice ["<", "<=", "==", "!=", ">=", ">", "<>", "in", seq ["not", "in"], "is",
      seq ["is", "not"]], primary]
  | lambdaExpression => ranked (-2) none (seq ["lambda", optional lambdaParameters, ":", expression])
  | sourceLambda => seq ["lambda", optional lambdaParameters, ":", sourceExpression]
  | assignment =>
    seq [leftSide, choice [seq ["=", rightSide], seq [":", typeExpression],
      seq [":", typeExpression, "=", rightSide]]]
  | augmentedAssignment =>
    seq [leftSide, choice ["+=", "-=", "*=", "/=", "@=", "//=", "%=", "**=", ">>=", "<<=", "&=",
      "^=", "|="], rightSide]
  | patternList => seq [pattern, choice [",", seq [morePatterns, optional ","]]]
  | rightSide =>
    choice [expression, expressionList, assignment, augmentedAssignment, patternList,
      yieldExpression]
  | yieldExpression =>
    ranked 0 (some .right) (seq ["yield", choice [seq ["from", expression], optional expressions]])
  | member => ranked 22 none (seq [primary, ".", name])
  | subscript =>
    ranked 22 none (seq [primary, "[", subscripted, optional moreSubscripts, optional ",", "]"])
  | moreSubscripts => seq [",", subscripted]
  | slice =>
    seq [optional expression, ":", optional expression, optional (seq [":", optional expression])]
  | call => ranked 22 none (seq [primary, choice [generator, arguments]])
  | typedParameter =>
    ranked (-1) none
      (seq [choice [name, splatPattern, dictionarySplatPattern], ":", typeExpression])
  | typeExpression =>
    choice [expression, splatType, genericType, unionType, constrainedType, memberType]
  | splatType => ranked 1 none (seq [choice ["*", "**"], name])
  | genericType => ranked 1 none (seq [name, typeParameters])
  | unionType => ranked 0 (some .left) (seq [typeExpression, "|", typeExpression])
  | constrainedType => ranked 0 (some .right) (seq [typeExpression, ":", typeExpression])
  | memberType => seq [typeExpression, ".", name]
  | keywordArgument => seq [choice [name, softName], "=", expression]
  | listDisplay => seq ["[", optional elements, "]"]
  | setDisplay => seq ["\x7b", elements, "\x7d"]
  | tupleDisplay => seq ["(", optional elements, ")"]
  | dictionaryDisplay =>
    seq ["\x7b", optional (seq [entry, optional morePairs]), optional ",", "\x7d"]
  | morePairs => seq [",", entry]
  | pair => seq [expression, ":", expression]
  | listComprehension => seq ["[", expression, comprehensionClauses, "]"]
  | dictionaryComprehension => seq ["\x7b", pair, comprehensionClauses, "\x7d"]
  | setComprehension => seq ["\x7b", expression, comprehensionClauses, "\x7d"]
  | generator => seq ["(", expression, comprehensionClauses, ")"]
  | comprehensionClauses => seq [forClause, optional moreClauses]
  | moreClauses => choice [forClause, ifClause]
  | parenthesized => ranked 1 none (seq ["(", choice [expression, yieldExpression], ")"])
  | elements => seq [element, optional moreElements, optional ","]
  | moreElements => seq [",", element]
  | forClause =>
    ranked 0 (some .left) (seq [optional "async", "for", leftSide, "in", sourceExpression,
      optional moreSources, optional ","])
  | moreSources => seq [",", sourceExpression]
  | ifClause => seq ["if", expression]
  | conditional => ranked (-1) (some .right) (seq [expression, "if", expression, "else", expression])
  | joinedStrings => seq [string, moreStrings]
  | moreStrings => string
  | string => seq [quote, optional stringParts, unquote]
  | stringParts => choice [replacement, stringContent]
  | stringContent => ranked 0 (some .right) contentParts
  | contentParts => choice [braces, escape, backslash, content]
  | replacement =>
    seq ["\x7b", replaced, optional "=", optional conversion, optional formatSpecifier, "\x7d"]
  | replaced => choice [expression, expressionList, patternList, yieldExpression]
  | formatSpecifier => seq [":", optional formatParts]
  | formatParts => choice [format, replacement]
  | awaitExpression => ranked 20 none (seq ["await", primary])
  | positionalMark => "/"
  | keywordMark => "*"

end Construct

end ApiSurface.Python
