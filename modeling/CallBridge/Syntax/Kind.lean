/-! # Kinds of syntax nodes

The kinds of nodes in the tree of a TypeScript module, and the roles that a node may have in the
node around it. Statements and operations that say nothing about declarations share a kind.
-/
namespace CallBridge.Syntax

inductive Kind where
  | program
  | hashBang
  | comment
  | error
  -- modules
  | exportStatement
  | exportClause
  | exportSpecifier
  | namespaceExport
  | importStatement
  | importClause
  | importRequire
  | namespaceImport
  | namedImports
  | importSpecifier
  | importAttribute
  | importAlias
  -- statements
  | statementBlock
  | expressionStatement
  | statement
  | lexicalDeclaration
  | variableDeclaration
  | variableDeclarator
  -- functions and classes
  | functionDeclaration
  | generatorFunctionDeclaration
  | functionSignature
  | functionExpression
  | generatorFunction
  | arrowFunction
  | classDeclaration
  | abstractClassDeclaration
  | classExpression
  | classHeritage
  | classBody
  | methodDefinition
  | methodSignature
  | abstractMethodSignature
  | fieldDefinition
  | staticBlock
  | decorator
  | accessibilityModifier
  | overrideModifier
  | formalParameters
  | requiredParameter
  | optionalParameter
  | restPattern
  | objectPattern
  | arrayPattern
  | pairPattern
  | assignmentPattern
  -- other declarations
  | interfaceDeclaration
  | extendsTypes
  | typeAliasDeclaration
  | enumDeclaration
  | enumBody
  | enumAssignment
  | namespaceDeclaration
  | ambientDeclaration
  -- types
  | typeClause
  | assertsClause
  | predicateClause
  | asserts
  | typePredicate
  | typeParameters
  | typeParameter
  | constraint
  | defaultType
  | typeArguments
  | typeIdentifier
  | nestedTypeIdentifier
  | nestedIdentifier
  | genericType
  | predefinedType
  | parenthesizedType
  | objectType
  | propertySignature
  | callSignature
  | constructSignature
  | indexSignature
  | mappedTypeClause
  | arrayType
  | lookupType
  | tupleType
  | optionalType
  | restType
  | maybeType
  | typeQuery
  | indexTypeQuery
  | thisType
  | existentialType
  | literalType
  | templateLiteralType
  | templateType
  | unionType
  | intersectionType
  | functionType
  | constructorType
  | readonlyType
  | inferType
  | conditionalType
  -- names and literals
  | identifier
  | propertyIdentifier
  | privatePropertyIdentifier
  | computedPropertyName
  | number
  | string
  | templateString
  | templateSubstitution
  | regex
  | this
  | superWord
  | trueWord
  | falseWord
  | nullWord
  | undefinedWord
  | importWord
  -- expressions
  | object
  | pair
  | array
  | spread
  | parenthesized
  | sequence
  | callExpression
  | arguments
  | newExpression
  | memberExpression
  | subscriptExpression
  | nonNullExpression
  | instantiation
  | asExpression
  | typeAssertion
  | operation
  | assignment
  | jsx
  deriving DecidableEq, Repr, Inhabited

inductive Field where
  | name
  | alias
  | source
  | declaration
  | value
  | decorator
  | body
  | parameter
  | parameters
  | pattern
  | returnType
  | type
  | typeParameters
  | typeArguments
  | function
  | arguments
  deriving DecidableEq, Repr, Inhabited

end CallBridge.Syntax
