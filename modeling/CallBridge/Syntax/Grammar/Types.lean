import CallBridge.Syntax.Grammar.Combinators

/-! # Types

The rules for types. A function type reaches as far as its result; of the other forms, a type with
a condition binds weakest, then unions, then intersections, and brackets behind a type strongest.
-/
namespace CallBridge.Syntax.Grammar

private def subject : Rule :=
  .choice [thisWord, reference]

def typePredicate : Rule :=
  .node .typePredicate (.seq [subject, "is", .ref .type])

/-- The assertion that a function returns only if a condition holds. -/
def assertion : Rule :=
  .node .asserts (.seq ["asserts", .choice [typePredicate, subject]])

private def functionType : Rule :=
  .node .functionType (.seq [typeParametersOpt, .field .parameters (.ref .parameters), "=>",
    .field .returnType (.choice [assertion, typePredicate, .ref .type])])

private def constructorType : Rule :=
  .node .constructorType (.seq [.optional "abstract", "new", typeParametersOpt,
    .field .parameters (.ref .parameters), "=>", .field .type (.ref .type)])

private def inferType : Rule :=
  .node .inferType (.seq ["infer", .leaf .typeIdentifier .identifier,
    .optional (.seq ["extends", .ref .typeOperand])])

private def intersection : Rule :=
  .chain
    (.choice [.node .intersectionType (.seq ["&", .ref .typeOperand]), .ref .typeOperand])
    [(.intersectionType, none, .seq [.joined false, .token "&" "&", .ref .typeOperand])]

private def union : Rule :=
  .chain (.choice [.node .unionType (.seq ["|", intersection]), intersection])
    [(.unionType, none, .seq [.joined false, .token "|" "|", intersection])]

def type : Rule :=
  .chain union
    [(.conditionalType, none, .seq [.joined false, "extends", union, "?", .ref .type, ":",
      .ref .type])]

private def typeName : Rule :=
  .chain
    (.choice [.node .nestedTypeIdentifier (.seq [reference, ".", .leaf .typeIdentifier .word,
      .many (.seq [".", .leaf .typeIdentifier .word])]), .leaf .typeIdentifier .identifier])
    [(.genericType, some .name, .field .typeArguments (.ref .typeArguments))]

private def predefinedType : Rule :=
  .node .predefinedType (.choice [.seq ["unique", "symbol"], oneOf ["any", "number", "boolean",
    "string", "symbol", "void", "unknown", "never", "object"]])

private def literalType : Rule :=
  .node .literalType (.choice [.leaf .number .number, .leaf .string .string,
    .node .trueWord "true", .node .falseWord "false", .node .nullWord "null",
    .node .undefinedWord "undefined",
    .node .operation (.seq [oneOf ["-", "+"], .leaf .number .number])])

private def importedModule : Rule :=
  .node .callExpression (.seq [.field .function (.node .importWord "import"),
    .field .arguments (.ref .arguments)])

private def typeQuery : Rule :=
  .node .typeQuery (.seq ["typeof",
    .chain (.choice [importedModule, thisWord, reference])
      [(.memberExpression, none, .seq [.token "." ".", property]),
        (.subscriptExpression, none, .seq [.joined false, "[",
          .choice [.leaf .number .number, .leaf .string .string, .node .predefinedType "number"],
          "]"])],
    typeArgumentsOpt])

private def tupleMember : Rule :=
  let label := .choice [.node .restPattern (.seq ["...", reference]), .leaf .identifier .word]
  .choice [
    .node .optionalParameter (.seq [.field .name label, "?", .field .type typeClause]),
    .node .requiredParameter (.seq [.field .name label, .field .type typeClause]),
    .node .restType (.seq ["...", .ref .type]),
    .node .optionalType (.seq [.ref .type, "?"]),
    .ref .type]

private def templateType : Rule :=
  .node .templateLiteralType (.seq ["`",
    .many (.choice [.raw .templateText,
      .node .templateType (.seq [.rawToken "$\x7b", .within false (.ref .type), "\x7d"])]),
    .rawToken "`"])

private def primaryType : Rule :=
  .choice [
    .node .parenthesizedType (parens (.ref .type)),
    predefinedType,
    .node .thisType "this",
    literalType,
    templateType,
    typeQuery,
    .chain importedModule [(.memberExpression, none, .seq [".", property])],
    .ref .objectType,
    .node .tupleType (.within false (.seq ["[", .optional (commaList tupleMember), "]"])),
    .node .existentialType "*",
    .node .maybeType (.seq ["?", .ref .typeOperand]),
    typeName]

def typeOperand : Rule :=
  .whole (.choice [
    functionType,
    constructorType,
    .node .readonlyType (.seq ["readonly", .ref .typeOperand]),
    .node .indexTypeQuery (.seq ["keyof", .ref .typeOperand]),
    inferType,
    .chain primaryType
      [(.arrayType, none, .seq [.joined false, "[", "]"]),
        (.lookupType, none, .seq [.joined false, "[", .within false (.ref .type), "]"])]])

def typeArguments : Rule :=
  .node .typeArguments (.within false (.seq ["<", commaList (.ref .type), ">"]))

def typeParameters : Rule :=
  .node .typeParameters (.within false (.seq ["<",
    commaList (.node .typeParameter (.seq [.optional "const", .field .name typeBinding,
      .optional (.node .constraint (.seq [oneOf ["extends", ":"], .ref .type])),
      .optional (.node .defaultType (.seq ["=", .ref .type]))])),
    ">"]))

/-- A signature for all properties of a kind, or for one of each of some keys. -/
def indexSignature : Rule :=
  .seq [
    .optional (.seq [.optional (oneOf ["+", "-"]), "readonly"]),
    "[",
    .within false (.choice [
      .seq [binding, ":", .field .type (.ref .type)],
      .node .mappedTypeClause (.seq [.field .name typeBinding, "in", .field .type (.ref .type),
        .optional (.seq ["as", .ref .type])])]),
    "]",
    .optional (.seq [.optional (oneOf ["+", "-"]), "?"]),
    typeClause]

private def word (text : String) : Rule :=
  .seq [.token text "", .never (oneOf ["(", "<", ":", "?", ",", ";", "\x7d"]), .joined false]

private def signatureMember : Rule :=
  .choice [
    .node .callSignature (.ref .callSignature),
    .node .constructSignature (.seq [.optional (word "abstract"), "new", typeParametersOpt,
      .field .parameters (.ref .parameters), .optional (.field .type typeClause)]),
    .node .indexSignature indexSignature,
    .node .methodSignature (.seq [.many (.choice (["readonly", "async", "get", "set"].map word)),
      .optional "*", .field .name (.ref .propertyName), .optional "?", .ref .callSignature]),
    .node .propertySignature (.seq [.optional (word "readonly"),
      .field .name (.ref .propertyName), .optional "?",
      .optional (.field .type typeClause)])]

def objectType : Rule :=
  .node .objectType (.within true (.seq ["\x7b", .optional (oneOf [",", ";"]),
    .many (.seq [signatureMember, .choice [",", .semicolon false false, .ahead "\x7d"]]),
    bodyEnd]))

end CallBridge.Syntax.Grammar
