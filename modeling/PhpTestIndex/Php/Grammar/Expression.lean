import PhpTestIndex.Php.Rule

/-!
# Expressions of PHP

Names, types, literals, calls and operations.  An operation is kept flat: its node goes around
everything read so far, so that precedence, about which no rule of this library asks, is not
resolved.  A closing tag ends an expression.
-/

namespace PhpTestIndex.Php.Grammar

open Rule

/-- The words that cannot be the name of a constant or a function. -/
def reserved : List String :=
  ["abstract", "and", "array", "as", "break", "callable", "case", "catch", "class", "clone",
   "const", "continue", "declare", "default", "do", "echo", "else", "elseif", "enddeclare",
   "endfor", "endforeach", "endif", "endswitch", "endwhile", "extends", "final", "finally", "fn",
   "for", "foreach", "function", "global", "goto", "if", "implements", "include", "include_once",
   "instanceof", "insteadof", "interface", "list", "match", "namespace", "new", "or", "print",
   "private", "protected", "public", "require", "require_once", "return", "static", "switch",
   "throw", "trait", "try", "unset", "use", "var", "while", "xor", "yield"]

/-- A name, possibly with namespaces before it. -/
def nameExcept (words : List String) : Rule :=
  let part := all [sign "\\", anyName]
  oneOf [
    node .relativeName (all [word "namespace", some1 part]),
    node .qualifiedName (some1 part),
    node .qualifiedName (all [wordExcept words, some1 part]),
    wordExcept words]

/-- The name of a class, an attribute or an import. -/
def className : Rule :=
  nameExcept []

/-- A variable: a name, a variable or an expression in braces after a dollar. -/
def variableName : Rule :=
  node .variableName <| all [
    some1 (sign "$"),
    oneOf [anyName, all [sign "\x7b", .part .expression, sign "\x7d"]]]

/-- A type, an optional type, one of several types, or a type that is all of them. -/
def typeName : Rule :=
  let also := all [
    sign "&", absent (oneOf [sign "$", sign "...", sign "&"]), node .typeName className]
  let every := all [sign "(", node .typeName className, many also, sign ")"]
  let choice := node .typeName (oneOf [every, className])
  node .typeName <| oneOf [
    all [sign "?", className],
    all [choice, some1 (all [sign "|", choice])],
    every,
    all [className, many also]]

/-- The argument of a call. -/
def argument : Rule :=
  node .argument <| oneOf [
    all [anyName, sign ":", optional (sign "&"), .part .expression],
    node .expression (all [sign "...", .part .expression]),
    all [optional (node .clause (sign "&")), .part .expression]]

/-- The arguments of a call, or the dots that make a closure of the called function. -/
def arguments : Rule :=
  node .arguments <| oneOf [
    all [sign "(", node .clause (sign "..."), sign ")"],
    all [sign "(", optional (listed argument), sign ")"]]

/-- The arguments, in their role. -/
def callArguments : Rule :=
  role .arguments arguments

/-- The arguments of a call, or none where no parenthesis follows. -/
def optionalCall : Rule :=
  either callArguments (absent (sign "("))

/-- An attribute with its arguments. -/
def attributeItem : Rule :=
  node .attributeItem (all [className, optionalCall])

/-- The groups of attributes before a declaration. -/
def attributes : Rule :=
  optional <| node .attributeList <| some1 <| node .attributeGroup <|
    all [sign "#[", listed attributeItem, sign "]"]

/-- The word that says who sees a member. -/
def visibility : Rule :=
  let level (text : String) : Rule :=
    node .visibilityModifier
      (all [word text, optional (all [sign "(", word "set", sign ")"])])
  oneOf [level "public", level "protected", level "private"]

/-- The words before the name of a declaration. -/
def modifier : Rule :=
  oneOf [
    visibility,
    keyword "static" .staticModifier, keyword "abstract" .abstractModifier,
    keyword "final" .finalModifier, keyword "readonly" .readonlyModifier,
    keyword "var" .varModifier]

/-- What a property does when it is read or written. -/
def propertyHooks : Rule :=
  let parameter := all [optional typeName, optional (sign "&"), variableName]
  node .clause <| all [
    sign "\x7b",
    many <| node .clause <| all [
      attributes, optional (word "final"), optional (sign "&"), anyName,
      optional (all [sign "(", listed parameter, sign ")"]),
      oneOf [
        sign ";", .part .block,
        all [sign "=>", .part .expression, sign ";"]]],
    sign "\x7d"]

/-- A parameter of a function. -/
def parameter : Rule :=
  node .clause <| all [
    attributes, many modifier, optional typeName, optional (sign "&"), optional (sign "..."),
    variableName, optional (all [sign "=", .part .expression]), optional propertyHooks]

/-- The parameters of a function. -/
def parameters : Rule :=
  node .clause (all [sign "(", optional (listed parameter), sign ")"])

/-- The type that a function returns. -/
def returnType : Rule :=
  optional (all [sign ":", typeName])

/-- The variables that a closure takes along. -/
def capturedVariables : Rule :=
  optional <| node .clause <| all [
    word "use", sign "(", listed (all [optional (sign "&"), variableName]), sign ")"]

/-- A function without a name. -/
def anonymousFunction : Rule :=
  node .anonymousFunction <| all [
    attributes, optional (keyword "static" .staticModifier), word "function", optional (sign "&"),
    parameters, capturedVariables, returnType, role .body (.part .block)]

/-- A function whose body is an expression. -/
def arrowFunction : Rule :=
  node .arrowFunction <| all [
    attributes, optional (keyword "static" .staticModifier), word "fn", optional (sign "&"),
    parameters, returnType, sign "=>", role .body (.part .tightExpression)]

/-- An element of an array: a value, a key and a value, or the values of another array. -/
def arrayElement : Rule :=
  node .arrayElement <| oneOf [
    node .expression (all [sign "...", .part .expression]),
    all [node .clause (sign "&"), .part .expression],
    all [
      .part .expression,
      optional (all [sign "=>", optional (node .clause (sign "&")), .part .expression])]]

/-- An array. -/
def arrayLiteral : Rule :=
  node .arrayLiteral <| oneOf [
    all [sign "[", optional (listed arrayElement), sign "]"],
    all [word "array", sign "(", optional (listed arrayElement), sign ")"]]

/-- A pattern stands here, if one of the signs comes after its closing bracket. -/
def patternBefore (signs : List String) : Rule :=
  ahead (all [optional (word "list"), group, oneOf (signs.map sign)])

/-- The variables that an array is taken apart into, which may be patterns again; some elements may
be skipped. -/
def pattern : Rule :=
  let isInner := patternBefore [",", ")", "]"]
  let value := oneOf [
    all [isInner, .part .pattern],
    all [absent isInner, optional (node .clause (sign "&")), .part .expression]]
  let element := node .arrayElement <| oneOf [
    node .expression (all [sign "...", .part .expression]),
    all [value, optional (all [sign "=>", value])]]
  let elements := separated "," (optional element)
  node .expression <| oneOf [
    all [word "list", sign "(", elements, sign ")"],
    all [sign "[", elements, sign "]"]]

/-- A string with interpolation. -/
def quotedParts : Rule :=
  let expression := oneOf [
    all [sign "\x7b", .part .expression, sign "\x7d"],
    all [sign "$\x7b", .part .expression, sign "\x7d"]]
  all [
    many (oneOf [leaf .stringPart .clause, expression]),
    leaf .closingQuote .token]

/-- A string with interpolation that is opened by the quote `key`. -/
def quoted (key : String) (kind : Kind) : Rule :=
  node kind (all [exact .openingQuote key .token, quotedParts])

/-- A literal. -/
def literal : Rule :=
  oneOf [
    leaf .plainString .plainString, leaf .number .expression, leaf .verbatim .expression,
    quoted "\"" .interpolatedString, quoted "<<<" .expression, quoted "`" .expression]

/-- The name of a property or a method: a name, a variable or an expression in braces. -/
def memberName : Rule :=
  oneOf [
    anyName, variableName, node .clause (all [sign "\x7b", .part .expression, sign "\x7d"])]

/-- What comes after an object or a class to reach a member. -/
def memberSteps (arrows : List String) : Rule :=
  oneOf [
    oneOf (arrows.map fun arrow =>
      around .expression none (all [joined, sign arrow, memberName])),
    around .expression none (all [joined, sign "[", optional (.part .expression), sign "]"])]

/-- The class of a new object: a name, a variable with its members, or an expression. -/
def newClass : Rule :=
  oneOf [
    nameExcept ["class"],
    all [sign "(", .part .expression, sign ")"],
    grow variableName (memberSteps ["->", "?->", "::"])]

/-- What a declaration extends. -/
def extended : Rule :=
  optional (node .baseClause (all [word "extends", separated "," className]))

/-- What a declaration implements. -/
def implemented : Rule :=
  optional (node .clause (all [word "implements", separated "," className]))

/-- The parts of a class declaration between its name and its body. -/
def classHeading : Rule :=
  all [extended, implemented]

/-- A new object, of a named class or of a class that is declared in place. -/
def newObject : Rule :=
  node .expression <| all [
    word "new",
    oneOf [
      all [
        attributes, many modifier, word "class", optionalCall, classHeading,
        role .body (.part .declarations)],
      all [newClass, optionalCall]]]

/-- A value chosen by comparison. -/
def matchExpression : Rule :=
  let conditions := oneOf [
    all [word "default", optional (sign ",")],
    listed (.part .expression)]
  node .expression <| all [
    word "match", sign "(", .part .expression, sign ")", sign "\x7b",
    listed (node .clause (all [conditions, sign "=>", .part .expression])),
    sign "\x7d"]

/-- The words that convert a value when they stand in parentheses. -/
def conversions : List String :=
  ["array", "binary", "bool", "boolean", "double", "int", "integer", "float", "object", "real",
   "string", "unset"]

/-- The operators that set a variable. -/
def assignment : Rule :=
  oneOf (["=", "+=", "-=", "*=", "/=", ".=", "%=", "**=", "<<=", ">>=", "&=", "|=", "^=",
    "??="].map sign)

/-- An operand that cannot be set. -/
def fixed : Rule :=
  oneOf [
    literal, arrayLiteral, anonymousFunction, arrowFunction, newObject, matchExpression,
    node .expression (all [sign "(", .part .expression, sign ")"]),
    nameExcept reserved,
    all [keyword "static" .name, ahead (sign "::")]]

/-- An operand without the operators before it and what comes after it. -/
def primary : Rule :=
  let isPattern := patternBefore ["="]
  oneOf [
    variableName,
    all [isPattern, .part .pattern],
    all [absent isPattern, fixed, absent (oneOf [assignment, sign "++", sign "--"])]]

/-- A call, an index, a member or a step: what comes after an operand. -/
def steps : Rule :=
  let noCall := absent (sign "(")
  oneOf [
    around .functionCall (some .callee) (all [joined, callArguments]),
    around .memberCall (some .target)
      (all [joined, sign "->", role .name memberName, callArguments]),
    around .expression none (all [joined, sign "->", memberName, noCall]),
    around .expression none (all [joined, sign "?->", memberName, optionalCall]),
    around .classConstant none (all [joined, sign "::", anyName, noCall, absent assignment]),
    around .expression none (all [joined, sign "::", anyName, callArguments]),
    around .expression none (all [joined, sign "::", absent anyName, memberName, optionalCall]),
    around .expression none (all [joined, sign "[", optional (.part .expression), sign "]"]),
    around .expression none (all [joined, oneOf [sign "++", sign "--"]])]

/-- The operators before an operand. -/
def leadingOperator : Rule :=
  oneOf [
    oneOf (["!", "-", "+", "~", "@", "++", "--"].map sign), word "clone",
    all [sign "(", oneOf (conversions.map word), sign ")"]]

/-- The words that make an expression of the expression after them. -/
def leadingWord : Rule :=
  oneOf (["print", "throw", "include", "include_once", "require", "require_once"].map word)

/-- A value that a generator hands out. -/
def yielded : Rule :=
  node .expression <| all [
    word "yield",
    oneOf [
      all [word "from", .part .tightExpression],
      all [
        .part .tightExpression,
        optional (all [sign "=>", .part .tightExpression])],
      nothing]]

/-- An operand with its operators and what comes after it. -/
def operand : Rule :=
  oneOf [
    node .expression (all [leadingOperator, .part .operand]),
    node .expression (all [leadingWord, .part .tightExpression]),
    yielded,
    grow primary steps]

/-- The operators between two operands that set nothing. -/
def operator : Rule :=
  oneOf (["??", "||", "&&", "|", "^", "&", "==", "!=", "<>", "===", "!==", "<=>", "<", ">", "<=",
    ">=", "<<", ">>", "+", "-", ".", "*", "/", "%", "**"].map sign)

/-- An expression without `and`, `or` and `xor`. -/
def tightExpression : Rule :=
  grow (.part .operand) <| oneOf [
    around .expression none (all [joined, operator, .part .operand]),
    around .expression none (all [joined, sign "=", optional (sign "&"), .part .operand]),
    around .expression none (all [joined, assignment, .part .operand]),
    around .expression none (all [joined, word "instanceof", newClass]),
    around .expression none (all [
      joined, sign "?", optional (.part .tightExpression), sign ":", .part .tightExpression])]

/-- An expression. -/
def expression : Rule :=
  grow (.part .tightExpression) <|
    around .expression none (all [
      joined, oneOf [word "and", word "or", word "xor"], .part .tightExpression])

end PhpTestIndex.Php.Grammar
