import CallBridge.Syntax.Grammar.Statements

/-! # The grammar

The rule for every symbol, in both dialects of the language: with elements of markup among the
expressions, or with type assertions in angle brackets.
-/
namespace CallBridge.Syntax

inductive Dialect where
  | plain
  | markup
  deriving DecidableEq, Repr, Inhabited

def Dialect.elements (d : Dialect) : Bool :=
  d == .markup

def Dialect.rule (d : Dialect) : Symbol → Rule
  | .type => Grammar.type
  | .typeOperand => Grammar.typeOperand
  | .typeArguments => Grammar.typeArguments
  | .typeParameters => Grammar.typeParameters
  | .objectType => Grammar.objectType
  | .pattern => Grammar.pattern
  | .parameters => Grammar.parameters
  | .callSignature => Grammar.callSignature
  | .propertyName => Grammar.propertyName
  | .decorator => Grammar.decorator
  | .classHeritage => Grammar.classHeritage
  | .classBody => Grammar.classBody
  | .expression => Grammar.expression
  | .conditional => Grammar.conditional
  | .unary => Grammar.unary d.elements
  | .operand => Grammar.operand d.elements
  | .constructed => Grammar.constructed d.elements
  | .sequence => Grammar.sequence
  | .arguments => Grammar.arguments
  | .template => Grammar.template
  | .object => Grammar.object
  | .element => Grammar.element
  | .statement => Grammar.statement
  | .block => Grammar.block
  | .declaration => Grammar.declaration

/-- The tree of a source. Where no statement can be read any more, an error stands for the rest;
it is on the row that is to blame for the furthest token that did not fit. -/
def Dialect.parse (d : Dialect) (s : Source) : Tree :=
  let c : Context := { source := s, grammar := d.rule }
  match readRule (400 * (s.size + 2)) c Grammar.program ⟨0, 0⟩ with
  | .read ts p r =>
    let (cs, q) := comments s p
    let rest : List Tree :=
      if q.pos = s.size then [] else [.node .error none ⟨q.pos, s.size, r.row, r.row⟩ []]
    .node .program none ⟨0, s.size, 0, s.lineFeeds 0 s.size⟩ (ts ++ cs ++ rest)
  | .failed r =>
    .node .program none ⟨0, s.size, 0, 0⟩ [.node .error none ⟨0, s.size, r.row, r.row⟩ []]

end CallBridge.Syntax
