import CallBridge.Syntax.Grammar.Types

/-! # Parameters and members

The rules for what is bound and declared in functions and classes.
-/
namespace CallBridge.Syntax.Grammar

def decorator : Rule :=
  .node .decorator (.seq ["@",
    .choice [.node .parenthesized (parens (.ref .expression)),
      .chain reference
        [(.memberExpression, none, .seq [".", property]),
          (.callExpression, some .function,
            .seq [typeArgumentsOpt, .field .arguments (.ref .arguments)])]]])

private def withDefault (rule : Rule) : Rule :=
  .chain rule [(.assignmentPattern, none, .seq [.token "=" "=>", .ref .expression])]

private def boundName : Rule :=
  .choice [.node .undefinedWord "undefined",
    .seq [.never (oneOf ["this", "super", "true", "false", "null", "function", "class", "new",
      "import"]), binding]]

private def objectPattern : Rule :=
  .node .objectPattern (.within false (.seq ["\x7b",
    looseList (.choice [
      .node .pairPattern (.seq [.ref .propertyName, ":", withDefault (.ref .pattern)]),
      .node .restPattern (.seq ["...", .ref .pattern]),
      withDefault boundName]),
    "\x7d"]))

private def arrayPattern : Rule :=
  .node .arrayPattern (.within false (.seq ["[", looseList (withDefault (.ref .pattern)), "]"]))

def pattern : Rule :=
  .choice [.node .restPattern (.seq ["...", .ref .pattern]), objectPattern, arrayPattern,
    boundName]

/-- What a declaration of variables gives: a name, or the parts of an object or an array. -/
def bound : Rule :=
  .choice [binding, objectPattern, arrayPattern]

private def accessibility : Rule :=
  .node .accessibilityModifier (oneOf ["public", "private", "protected"])

private def override : Rule :=
  .node .overrideModifier "override"

private def parameterModifier (rule : Rule) : Rule :=
  .optional (.seq [rule, .ahead (.choice [binding, "\x7b", "["])])

private def parameter : Rule :=
  let head : Rule := .seq [.many (.field .decorator (.ref .decorator)),
    parameterModifier accessibility, parameterModifier override, parameterModifier accessibility,
    parameterModifier "readonly", .field .pattern (.choice [thisWord, .ref .pattern])]
  let tail : Rule := .seq [.optional (.field .type typeClause), .optional initializer]
  .choice [.node .optionalParameter (.seq [head, "?", tail]),
    .node .requiredParameter (.seq [head, tail])]

def parameters : Rule :=
  .node .formalParameters (parens (.optional (commaList parameter)))

def callSignature : Rule :=
  .seq [typeParametersOpt, .field .parameters (.ref .parameters),
    .optional (.field .returnType (.choice [
      .node .assertsClause (.seq [":", assertion]),
      .node .predicateClause (.seq [":", typePredicate]),
      typeClause]))]

def propertyName : Rule :=
  .choice [property, .leaf .string .string, .leaf .number .number,
    .node .computedPropertyName (.seq ["[", .within false (.ref .sequence), "]"])]

private def modifier (rule : Rule) : Rule :=
  .seq [rule, .never (oneOf ["(", "<", "=", ";", ":", "?", "!", ",", "\x7d"]), .joined false]

private def modifiers (texts : List String) : Rule :=
  .many (modifier (.choice (accessibility :: override :: texts.map fun text => .token text "")))

private def methodHead : Rule :=
  .seq [modifiers ["static", "readonly", "async", "get", "set"], .optional "*",
    .field .name (.ref .propertyName), .optional "?", .ref .callSignature]

def methodDefinition : Rule :=
  .node .methodDefinition (.seq [methodHead, .field .body (.ref .block)])

private def signatureEnd : Rule :=
  .choice [",", .semicolon false true, .semicolon false false]

private def fieldDefinition : Rule :=
  .node .fieldDefinition (.seq [.many (.field .decorator (.ref .decorator)),
    modifiers ["declare", "static", "abstract", "readonly", "accessor"],
    .field .name (.ref .propertyName), .optional (oneOf ["?", "!"]),
    .optional (.field .type typeClause), .optional initializer])

private def classMember : Rule :=
  .choice [
    ";",
    .node .staticBlock (.seq ["static", .field .body (.ref .block)]),
    .seq [.many (.field .decorator (.ref .decorator)), methodDefinition, .optional terminator],
    .seq [.node .indexSignature (.seq [modifiers ["static"], indexSignature]), memberEnd],
    .seq [.node .abstractMethodSignature (.seq [.many (modifier accessibility),
      modifier "abstract", modifiers ["async", "get", "set"], .optional "*",
      .field .name (.ref .propertyName), .optional "?", .ref .callSignature]), memberEnd],
    .seq [.node .methodSignature methodHead, signatureEnd],
    .seq [fieldDefinition, memberEnd]]

def classBody : Rule :=
  .node .classBody (.within true (.seq ["\x7b", .many (.construct classMember), bodyEnd]))

def classHeritage : Rule :=
  .node .classHeritage (.choice [
    .seq ["extends", .ref .operand, typeArgumentsOpt,
      .optional (.seq ["implements", commaList (.ref .type)])],
    .seq ["implements", commaList (.ref .type)]])

def classRest : Rule :=
  .seq [typeParametersOpt, .optional (.ref .classHeritage), .field .body (.ref .classBody)]

end CallBridge.Syntax.Grammar
