import PhpTestIndex.Php.Grammar.Expression

/-!
# Statements and declarations of PHP

Statements end with a semicolon or before a closing tag.  `grammar` lists what each part of the
language is.

Two signs may be missing at the end of a file: the brace that closes the body of a class and the
semicolon after a statement.  The tree then holds a node that names the sign.
-/

namespace PhpTestIndex.Php.Grammar

open Rule

/-- The end of a statement. -/
def terminator : Rule :=
  oneOf [sign ";", closed, missing ";"]

/-- A list of statements. -/
def statements : Rule :=
  many (.part .statement)

/-- Statements in braces. -/
def block : Rule :=
  node .compoundStatement (all [sign "\x7b", statements, sign "\x7d"])

/-- An expression in parentheses. -/
def condition : Rule :=
  node .expression (all [sign "(", .part .expression, sign ")"])

/-- The statement that another statement governs. -/
def governed : Rule :=
  oneOf [.part .statement, closed]

/-- The statements between a colon and a closing word. -/
def colonBlock : Rule :=
  node .clause (all [sign ":", statements])

/-- One statement, or several between a colon and a closing word. -/
def governedUntil (closing : String) : Rule :=
  oneOf [all [colonBlock, word closing, terminator], governed]

/-- A namespace, with a body or up to the next one. -/
def namespaceDefinition : Rule :=
  let name := role .name (node .namespaceName (separated "\\" anyName))
  node .namespaceDefinition <| all [
    word "namespace", absent (sign "\\"),
    oneOf [
      all [optional name, role .body (.part .block)],
      all [name, terminator]]]

/-- The kind of thing that is imported. -/
def importedKind : Rule :=
  let kind (text : String) : Rule :=
    all [word text, ahead (oneOf [anyName, sign "\\"])]
  optional (oneOf [kind "function", kind "const"])

/-- One import, possibly under another name. -/
def useClause : Rule :=
  let localName := optional (all [word "as", role .localName anyName])
  node .useClause (all [importedKind, className, localName])

/-- Imports. -/
def useDeclaration : Rule :=
  let common := node .namespaceName (all [optional (sign "\\"), separated "\\" anyName])
  let several := node .useGroup (all [sign "\x7b", listed useClause, sign "\x7d"])
  node .useDeclaration <| all [
    word "use", importedKind,
    oneOf [all [common, sign "\\", several], separated "," useClause],
    terminator]

/-- A class. -/
def classDeclaration : Rule :=
  node .classDeclaration <| all [
    attributes, many modifier, word "class", role .name anyName, classHeading,
    role .body (.part .declarations), optional (sign ";")]

/-- An interface, a trait or an enumeration. -/
def typeDeclaration : Rule :=
  let body := role .body (.part .declarations)
  node .statement <| all [
    attributes,
    oneOf [
      all [word "interface", role .name anyName, extended, body],
      all [word "trait", role .name anyName, body],
      all [
        word "enum", absent (oneOf [word "extends", word "implements"]), role .name anyName,
        optional (all [sign ":", typeName]), implemented, role .body (.part .cases)]]]

/-- A function. -/
def functionDeclaration : Rule :=
  node .statement <| all [
    attributes, word "function", optional (sign "&"), role .name anyName, parameters, returnType,
    role .body (.part .block)]

/-- Constants with their values. -/
def constantDeclaration : Rule :=
  let constant := node .clause (all [anyName, sign "=", .part .expression])
  all [word "const", optional (all [typeName, ahead anyName]), separated "," constant, terminator]

/-- A use of traits. -/
def traitUse : Rule :=
  let member := oneOf [
    node .expression (all [className, sign "::", anyName]),
    anyName]
  node .clause <| all [
    word "use", separated "," className,
    oneOf [
      terminator,
      all [
        sign "\x7b",
        many (all [
          member,
          oneOf [
            all [word "insteadof", separated "," className],
            all [word "as", oneOf [all [visibility, optional anyName], anyName]]],
          sign ";"]),
        sign "\x7d"]]]

/-- A method. -/
def methodDeclaration : Rule :=
  node .methodDeclaration <| all [
    attributes, many modifier, word "function", optional (sign "&"), role .name anyName,
    parameters, returnType, oneOf [role .body (.part .block), terminator]]

/-- Properties with their values. -/
def propertyDeclaration : Rule :=
  let property := node .clause <| all [
    variableName, optional (all [sign "=", .part .expression])]
  node .clause <| all [
    attributes, some1 modifier, optional typeName, separated "," property,
    oneOf [propertyHooks, terminator]]

/-- A case of an enumeration. -/
def enumerationCase : Rule :=
  node .clause <| all [
    attributes, word "case", anyName, optional (all [sign "=", .part .expression]), terminator]

/-- Members in braces. -/
def members (member : Rule) : Rule :=
  node .declarationList <| all [
    sign "\x7b", many member, oneOf [sign "\x7d", missing "\x7d"]]

/-- The constants of a class. -/
def classConstants : Rule :=
  node .clause (all [attributes, many modifier, constantDeclaration])

/-- The members of a class, in braces. -/
def declarations : Rule :=
  members (oneOf [traitUse, methodDeclaration, propertyDeclaration, classConstants])

/-- The members of an enumeration, in braces. -/
def cases : Rule :=
  members (oneOf [traitUse, methodDeclaration, classConstants, enumerationCase])

/-- A branch on a condition. -/
def ifStatement : Rule :=
  let elseifs (body : Rule) : Rule := many (node .clause (all [word "elseif", condition, body]))
  node .statement <| all [
    word "if", condition,
    oneOf [
      all [
        colonBlock, elseifs colonBlock, optional (node .clause (all [word "else", colonBlock])),
        word "endif", terminator],
      all [
        governed, elseifs governed, optional (node .clause (all [word "else", governed]))]]]

/-- A choice among cases. -/
def switchStatement : Rule :=
  let label := oneOf [all [word "case", .part .expression], word "default"]
  let cases := all [
    optional (sign ";"),
    many (node .clause (all [label, oneOf [sign ":", terminator], statements]))]
  node .statement <| all [
    word "switch", condition,
    node .clause <| oneOf [
      all [sign "\x7b", cases, sign "\x7d"],
      all [sign ":", cases, word "endswitch", terminator]]]

/-- A loop. -/
def loop : Rule :=
  let expressions := optional (separated "," (.part .expression))
  let isPattern := patternBefore [")", "=>"]
  let value := oneOf [
    all [sign "&", .part .expression],
    all [isPattern, .part .pattern],
    all [absent isPattern, .part .expression]]
  node .statement <| oneOf [
    all [word "while", condition, governedUntil "endwhile"],
    all [word "do", governed, word "while", condition, terminator],
    all [
      word "for", sign "(", expressions, sign ";", expressions, sign ";", expressions, sign ")",
      governedUntil "endfor"],
    all [
      word "foreach", sign "(", .part .expression, word "as", value,
      optional (all [sign "=>", value]), sign ")", governedUntil "endforeach"]]

/-- A block whose failures are handled. -/
def tryStatement : Rule :=
  let handler := node .clause <| all [
    word "catch", sign "(", typeName, optional variableName, sign ")", .part .block]
  let finish := node .clause (all [word "finally", .part .block])
  node .statement <| all [
    word "try", .part .block, oneOf [all [some1 handler, optional finish], finish]]

/-- Settings for a file or a block. -/
def declareStatement : Rule :=
  let setting := all [anyName, sign "=", .part .expression]
  node .statement <| all [
    word "declare", sign "(", separated "," setting, sign ")",
    oneOf [sign ";", governedUntil "enddeclare"]]

/-- A statement that begins with its own word and ends with a semicolon. -/
def wordStatement : Rule :=
  let value := all [variableName, optional (all [sign "=", .part .expression])]
  node .statement <| oneOf [
    all [word "return", optional (.part .expression), terminator],
    all [oneOf [word "break", word "continue"], optional (.part .expression), terminator],
    all [word "echo", separated "," (.part .expression), terminator],
    all [word "global", separated "," variableName, terminator],
    all [word "static", separated "," value, terminator],
    all [word "goto", anyName, terminator],
    all [word "unset", sign "(", listed (.part .expression), sign ")", terminator],
    all [attributes, constantDeclaration],
    all [wordExcept reserved, sign ":"],
    sign ";"]

/-- An expression that stands as a statement. -/
def expressionStatement : Rule :=
  node .expressionStatement (all [.part .expression, terminator])

/-- A statement or a declaration. -/
def statement : Rule :=
  oneOf [
    .part .block, namespaceDefinition, useDeclaration, ifStatement, switchStatement, loop,
    tryStatement, declareStatement, wordStatement, classDeclaration, functionDeclaration,
    typeDeclaration, expressionStatement]

end PhpTestIndex.Php.Grammar

namespace PhpTestIndex.Php

/-- What each part of the language is. -/
def grammar : Grammar
  | .statement => Grammar.statement
  | .block => Grammar.block
  | .expression => Grammar.expression
  | .tightExpression => Grammar.tightExpression
  | .operand => Grammar.operand
  | .typeName => Grammar.typeName
  | .declarations => Grammar.declarations
  | .cases => Grammar.cases
  | .pattern => Grammar.pattern

end PhpTestIndex.Php
