/-! # Grammar symbols

The names under which the rules of the grammar refer to each other.
-/
namespace CallBridge.Syntax

inductive Symbol where
  -- types
  | type
  | typeOperand
  | typeArguments
  | typeParameters
  | objectType
  -- names, parameters, members
  | pattern
  | parameters
  | callSignature
  | propertyName
  | decorator
  | classHeritage
  | classBody
  -- expressions
  | expression
  | conditional
  | unary
  | operand
  | constructed
  | sequence
  | arguments
  | template
  | object
  | element
  -- statements
  | statement
  | block
  | declaration
  deriving DecidableEq, Repr, Inhabited

end CallBridge.Syntax
