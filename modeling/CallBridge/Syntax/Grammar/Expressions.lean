import CallBridge.Syntax.Grammar.Members

/-! # Expressions

The rules for expressions. Operators between operands are not told apart by how strongly they bind:
no part of an analysis depends on it.
-/
namespace CallBridge.Syntax.Grammar

private def body : Rule :=
  .field .body (.choice [.whole (.ref .block), .ref .expression])

private def arrowFunction : Rule :=
  let head : Rule := .choice [.field .parameter reference, .ref .callSignature]
  .node .arrowFunction (.choice [
    .seq [lead "async", head, "=>", body],
    .seq [head, "=>", body]])

private def yieldExpression : Rule :=
  .node .operation (.seq ["yield", .optional (.seq [.joined false, .optional "*",
    .ref .expression])])

private def assignmentSign : Rule :=
  .choice (.token "=" "=>" :: ["+=", "-=", "*=", "/=", "%=", "**=", "<<=", ">>=", ">>>=", "&=",
    "|=", "^=", "&&=", "||=", "??="].map fun text => .token text "")

def expression : Rule :=
  .choice [arrowFunction, yieldExpression,
    .chain (.ref .conditional)
      [(.assignment, none, .seq [.joined true, assignmentSign, .ref .expression])]]

def sequence : Rule :=
  .chain (.ref .expression) [(.sequence, none, .seq [",", .ref .expression])]

private def binarySign : Rule :=
  .choice (["===", "!==", "==", "!=", "in", "instanceof"].map (fun text => .token text "") ++
    ["||", "&&", "??", "**", ">>>", "<=", ">=", "<<", ">>"].map (fun text => .token text "=") ++
    [.token "|" "=|", .token "&" "=&", .token "<" "=", .token ">" "=", .token "^" "=",
      .token "*" "=", .token "/" "=", .token "%" "=", .token "+" "=+", .token "-" "=-"])

private def binary : Rule :=
  .chain (.ref .unary)
    [(.asExpression, none, .seq [.joined true, oneOf ["as", "satisfies"],
        .choice ["const", .ref .type]]),
      (.operation, none, .seq [.joined true, binarySign, .ref .unary])]

/-- An expression that may depend on a condition. Where both readings of a colon are possible,
it divides the two outcomes. -/
def conditional : Rule :=
  let question : Rule := .seq [.joined true, .token "?" "?"]
  .chain binary
    [(.operation, none, .choice [
        .seq [question, .ref .expression, ":", .ref .expression],
        .seq [question, .ref .conditional, ":", .ref .expression]])]

def unary (elements : Bool) : Rule :=
  .choice <|
    [.node .operation (.seq [oneOf ["++", "--", "!", "~", "-", "+", "typeof", "void", "delete",
      "await"], .ref .unary])] ++
    (if elements then []
      else [.node .typeAssertion (.seq [.ref .typeArguments, .ref .unary])]) ++
    [.chain (.ref .operand) [(.operation, none, .seq [.joined true, oneOf ["++", "--"]])]]

private def functionExpression : Rule :=
  let rest : Rule := .seq [.optional (.field .name binding), .ref .callSignature,
    .field .body (.ref .block)]
  .choice [
    .node .generatorFunction (.seq [.optional (lead "async"), "function", "*", rest]),
    .node .functionExpression (.seq [.optional (lead "async"), "function", rest])]

private def classExpression : Rule :=
  .node .classExpression (.seq [.many (.field .decorator (.ref .decorator)), "class",
    .optional (.seq [.never (oneOf ["extends", "implements"]), .field .name typeBinding]),
    classRest])

private def spread : Rule :=
  .node .spread (.seq ["...", .ref .expression])

def arguments : Rule :=
  .node .arguments (parens (looseList (.choice [spread, .ref .expression])))

def template : Rule :=
  .node .templateString (.seq ["`",
    .many (.choice [.raw .templateText,
      .node .templateSubstitution (.seq [.rawToken "$\x7b", .within false (.ref .sequence),
        "\x7d"])]),
    .rawToken "`"])

def object : Rule :=
  .node .object (.within false (.seq ["\x7b",
    looseList (.choice [
      spread,
      methodDefinition,
      .node .pair (.seq [.ref .propertyName, ":", .field .value (.ref .expression)]),
      .seq [reference, .optional (.seq [.token "=" "=>", .ref .expression])]]),
    "\x7d"]))

private def primary (elements : Bool) : Rule :=
  .choice <|
    [.node .parenthesized (parens (.seq [.ref .sequence, .optional typeClause])),
      functionExpression,
      classExpression,
      .ref .object,
      .node .array (.within false (.seq ["[", looseList (.choice [spread, .ref .expression]),
        "]"])),
      .ref .template,
      .leaf .string .string,
      .leaf .number .number,
      .leaf .regex .regex,
      thisWord,
      .node .superWord "super",
      .node .nullWord "null",
      .node .trueWord "true",
      .node .falseWord "false",
      .node .undefinedWord "undefined",
      .node .memberExpression (.seq ["new", ".", "target"]),
      .node .newExpression (.seq ["new", .ref .constructed, typeArgumentsOpt,
        .optional (.field .arguments (.ref .arguments))]),
      .node .memberExpression (.seq ["import", ".", "meta"]),
      .node .importWord (.seq ["import", .ahead "("])] ++
    (if elements then [.ref .element] else []) ++
    [reference]

private def memberTails : List (Kind × Option Field × Rule) :=
  [(.memberExpression, none, .seq [.joined true,
      .choice [.token "?." "0123456789", .token "." "."], property]),
    (.subscriptExpression, none, .seq [.joined true, .optional (.token "?." "0123456789"), "[",
      .within false (.ref .sequence), "]"]),
    (.nonNullExpression, none, .seq [.joined true, .token "!" "="])]

def operand (elements : Bool) : Rule :=
  .whole (.chain (primary elements) (memberTails ++
    [(.callExpression, some .function, .seq [.joined true,
        .optional (.token "?." "0123456789"), typeArgumentsOpt,
        .field .arguments (.ref .arguments)]),
      (.callExpression, some .function, .seq [.joined true, typeArgumentsOpt,
        .field .arguments (.ref .template)]),
      (.instantiation, none, .seq [.joined true, .ref .typeArguments,
        .never (.choice [reference, .leaf .number .number,
          .leaf .string .string, oneOf ["(", "[", "-", "+", "!", "~"]])])]))

def constructed (elements : Bool) : Rule :=
  .whole (.chain (primary elements) memberTails)

private def elementName : Rule :=
  .chain (.leaf .identifier .elementName)
    [(.memberExpression, none, .seq [oneOf [".", ":"], .leaf .identifier .elementName])]

private def elementAttribute : Rule :=
  let braced : Rule := .seq ["\x7b", .within false (.ref .sequence), "\x7d"]
  .choice [
    .seq ["\x7b", spread, "\x7d"],
    .seq [elementName, .optional (.seq ["=", .choice [.leaf .string .string, braced,
      .ref .element]])]]

private def elementContent : Rule :=
  .choice [
    .raw .elementText,
    .ref .element,
    .seq ["\x7b", .within false (.optional (.choice [spread, .ref .sequence])), "\x7d"]]

def element : Rule :=
  .node .jsx (.choice [
    .seq ["<", ">", .many elementContent, "<", "/", ">"],
    .seq ["<", elementName, typeArgumentsOpt, .many elementAttribute, .choice [
      .seq ["/", ">"],
      .seq [">", .many elementContent, "<", "/", elementName, ">"]]]])

end CallBridge.Syntax.Grammar
