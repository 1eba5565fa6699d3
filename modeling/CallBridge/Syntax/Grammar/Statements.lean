import CallBridge.Syntax.Grammar.Expressions

/-! # Statements and declarations

The rules for what stands at the top of a module or in a block.
-/
namespace CallBridge.Syntax.Grammar

/-- Statements in braces. A comment behind it on its line is a part of it, if a line break or the
end of the block around follows. -/
def block : Rule :=
  .node .statementBlock (.within true (.seq ["\x7b", .many (.construct (.ref .statement)),
    bodyEnd, .softEnd]))

private def functionRest : Rule :=
  .seq [.field .name binding, .ref .callSignature, .field .body (.ref .block), .softEnd]

private def functionDeclarations : List Rule :=
  let begun : Rule := .seq [.optional (lead "async"), "function"]
  [.node .generatorFunctionDeclaration (.seq [begun, "*", functionRest]),
    .node .functionDeclaration (.seq [begun, functionRest]),
    .node .functionSignature (.seq [begun, .optional "*",
      .field .name binding, .ref .callSignature,
      .choice [.semicolon false true, .semicolon false false]])]

private def classDeclarations : List Rule :=
  let named : Rule := .seq [.never (oneOf ["extends", "implements"]), .field .name typeBinding,
    classRest]
  [.node .classDeclaration (.seq [.many (.field .decorator (.ref .decorator)), "class", named,
      .softEnd]),
    .node .abstractClassDeclaration (.seq [.many (.field .decorator (.ref .decorator)),
      "abstract", "class", named])]

private def variableDeclarator : Rule :=
  .node .variableDeclarator (.seq [
    .field .name bound, .optional "!",
    .optional (.field .type typeClause), .optional initializer])

private def declarators : Rule :=
  .seq [variableDeclarator, .many (.seq [",", variableDeclarator])]

private def qualifiedName : Rule :=
  .chain binding [(.nestedIdentifier, none, .seq [".", .leaf .propertyIdentifier .word])]

private def enumBody : Rule :=
  .node .enumBody (.within false (.seq ["\x7b",
    .optional (commaList (.choice [
      .node .enumAssignment (.seq [.field .name (.ref .propertyName), initializer]),
      .field .name (.ref .propertyName)])),
    bodyEnd]))

def declaration : Rule :=
  .choice <|
    functionDeclarations ++ classDeclarations ++
    [.node .enumDeclaration (.seq [.optional "const", "enum", .field .name binding,
        .field .body enumBody]),
      .node .lexicalDeclaration (.seq [.choice [lead "let", "const"], declarators, terminator]),
      .node .variableDeclaration (.seq ["var", declarators, terminator]),
      .node .interfaceDeclaration (.seq ["interface", .field .name typeBinding,
        typeParametersOpt,
        .optional (.node .extendsTypes (.seq ["extends", commaList (.ref .type)])),
        .field .body (.ref .objectType)]),
      .node .typeAliasDeclaration (.seq [lead "type", .field .name typeBinding, typeParametersOpt,
        "=", .field .value (.ref .type), .semicolon false false]),
      .node .namespaceDeclaration (.seq [.choice [lead "namespace", lead "module"],
        .field .name (.choice [.leaf .string .string, qualifiedName]),
        .optional (.field .body (.ref .block))]),
      .node .importAlias (.seq ["import", binding, "=", qualifiedName, .semicolon false false]),
      .node .ambientDeclaration (.seq [lead "declare", .choice [
        .seq ["global", .ref .block],
        .seq ["module", ".", .leaf .propertyIdentifier .word, ":", .ref .type,
          .semicolon false false],
        .ref .declaration]])]

private def fromClause : Rule :=
  .seq ["from", .field .source (.leaf .string .string)]

private def moduleName : Rule :=
  .choice [binding, .leaf .string .string]

private def listed (kind : Kind) (newName : Rule) : Rule :=
  let stop : Rule := .ahead (oneOf [",", "\x7d"])
  let renamed : Rule := .seq [.field .name moduleName, "as", .field .alias newName, stop]
  let plain : Rule := .seq [.field .name moduleName, stop]
  .node kind (.choice [renamed, .seq [oneOf ["type", "typeof"], renamed],
    .seq [oneOf ["type", "typeof"], plain], plain])

private def importClause : Rule :=
  let several : Rule := .choice [
    .node .namespaceImport (.seq ["*", "as", binding]),
    .node .namedImports (.seq ["\x7b", .optional (commaList (listed .importSpecifier binding)),
      "\x7d"])]
  .node .importClause (.choice [several, .seq [binding, .optional (.seq [",", several])]])

private def importStatement : Rule :=
  let clause : Rule := .choice [
    .seq [importClause, fromClause],
    .node .importRequire (.seq [binding, "=", "require",
      parens (.field .source (.leaf .string .string))]),
    .field .source (.leaf .string .string)]
  .node .importStatement (.seq ["import",
    .choice [.seq [oneOf ["type", "typeof"], clause], clause],
    .optional (.node .importAttribute (.seq [oneOf ["with", "assert"], .ref .object])),
    .semicolon false false])

private def exportClause : Rule :=
  .node .exportClause (.seq ["\x7b", .optional (commaList (listed .exportSpecifier moduleName)),
    "\x7d"])

private def exportStatement : Rule :=
  .node .exportStatement (.seq [.many (.field .decorator (.ref .decorator)), lead "export",
    .choice [
      .seq ["*", fromClause, .semicolon false false],
      .seq [.node .namespaceExport (.seq ["*", "as", moduleName]), fromClause,
        .semicolon false false],
      .seq [.optional "type", exportClause, .optional fromClause, .semicolon false false],
      .seq ["=", .ref .expression, terminator],
      .seq ["as", "namespace", binding, .semicolon false false],
      .seq ["default", .choice [
        .field .declaration (.ref .declaration),
        .seq [.field .value (.ref .expression), terminator]]],
      .field .declaration (.ref .declaration)]])

private def condition : Rule :=
  .node .parenthesized (parens (.ref .sequence))

private def forHeader : Rule :=
  let declared : Rule := .seq [oneOf ["let", "const", "var"], .field .name bound]
  .choice [
    .seq [.choice [declared, .ref .operand], oneOf ["in", "of"], .ref .sequence],
    .seq [.choice [.seq [oneOf ["let", "const", "var"], declarators], .optional (.ref .sequence)],
      ";", .optional (.ref .sequence), ";", .optional (.ref .sequence)]]

private def controlStatements : List Rule :=
  let nested : Rule := .ref .statement
  [.seq ["if", condition, nested, .optional (.seq ["else", nested])],
    .seq ["for", .optional "await", parens forHeader, nested],
    .seq ["while", condition, nested],
    .seq ["do", nested, "while", condition, .choice [terminator, .ahead nested]],
    .seq ["switch", condition, "\x7b",
      .many (.choice [.seq ["case", .ref .sequence, ":", .many nested],
        .seq ["default", ":", .many nested]]),
      bodyEnd],
    .seq ["try", .ref .block,
      .optional (.seq ["catch",
        .optional (parens (.seq [.ref .pattern, .optional (.field .type typeClause)])),
        .ref .block]),
      .optional (.seq ["finally", .ref .block])],
    .seq ["with", condition, nested],
    .seq [oneOf ["break", "continue"], .optional (.seq [.joined false, reference]), terminator],
    .seq [oneOf ["return", "throw"], .optional (.seq [.joined false, .ref .sequence]),
      terminator],
    .seq ["debugger", terminator]]

def statement : Rule :=
  .choice <|
    [exportStatement, importStatement, .ref .declaration] ++
    controlStatements.map (.node .statement) ++
    [.ref .block,
      .node .statement (.seq [reference, ":", .ref .statement]),
      .node .statement ";",
      .node .expressionStatement (.seq [.ref .sequence, terminator])]

def program : Rule :=
  .seq [.optional (.construct (.leaf .hashBang .hashBang)), .many (.construct (.ref .statement))]

end CallBridge.Syntax.Grammar
