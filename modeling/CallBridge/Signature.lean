import CallBridge.Method
import CallBridge.SourceFile

/-! # Signatures

What the syntax tree of a function says about its parameters, its result, and the types that they
mention. A result is classified by the name of its outer type alone; no alias is followed.
-/
namespace CallBridge

open Syntax (Tree)

def unknownType : String := "any"

def asyncValueType : String := "Promise"

def asyncStreamTypes : List String := ["AsyncGenerator", "AsyncIterable", "AsyncIterableIterator"]

namespace ReturnShape

def ofType (f : SourceFile) (t : Tree) : ReturnShape :=
  let wrapped : Option ReturnShape := do
    if !t.is .genericType then none
    let outer := f.text (← t.child? .name)
    let arguments := ((t.child? .typeArguments).map Tree.nodes).getD []
    let first := ((arguments.find? fun a => !a.is .comment).map f.text).getD unknownType
    if outer == asyncValueType then return .asyncValue first
    else if asyncStreamTypes.contains outer then return .asyncStream first
    else none
  wrapped.getD (.value (f.text t))

def unannotated (async generator : Bool) : ReturnShape :=
  if async && generator then .asyncStream unknownType else .asyncValue unknownType

/-- How a declared return type contradicts the function that declares it. -/
inductive Conflict where
  | notStream
  /-- An asynchronous function that is no generator declares a stream. -/
  | streamOfFunction
  | plainValue (type : String)
  | synchronousGenerator
  deriving DecidableEq, Repr, Inhabited

def Conflict.message : Conflict → String
  | notStream => "async generator must declare AsyncGenerator<T>"
  | streamOfFunction =>
    "async declaration resolves to a Promise; streams must be declared with `async function*`"
  | plainValue type =>
    "async declaration returns `" ++ type ++ "`, expected Promise<T> or AsyncGenerator<T>"
  | synchronousGenerator => "synchronous generators cannot be exposed"

/-- The conflict of a declared shape with the function that declares it. -/
def conflict? (s : ReturnShape) (async generator : Bool) : Option Conflict :=
  match async, generator, s with
  | true, true, .asyncStream _ => none
  | true, true, _ => some .notStream
  | true, false, .asyncStream _ => some .streamOfFunction
  | true, false, .value type => some (.plainValue type)
  | false, true, _ => some .synchronousGenerator
  | _, _, _ => none

end ReturnShape

namespace Signature

def isAsync (function : Tree) : Bool :=
  function.hasToken "async"

def isGenerator (function : Tree) : Bool :=
  function.hasToken "*"

def typeOf? (t : Tree) (role : Syntax.Field) : Option Tree :=
  (t.child? role).bind Tree.firstNode?

def returnType? (function : Tree) : Option Tree :=
  typeOf? function .returnType

def typeParameters (f : SourceFile) (declaration : Tree) : List String :=
  let nodes := ((declaration.child? .typeParameters).map Tree.nodes).getD []
  (nodes.filter (·.is .typeParameter)).filterMap fun p => (p.child? .name).map f.text

/-- The parameters of a function; the only one of an arrow function may be a bare name. -/
def parameterNodes (function : Tree) : List Tree :=
  match function.child? .parameter with
  | some p => [p]
  | none =>
    (((function.child? .parameters).map Tree.nodes).getD []).filter fun p =>
      p.is .requiredParameter || p.is .optionalParameter

def nameOf (f : SourceFile) (pattern : Tree) (index : Nat) : String :=
  let numbered := "arg" ++ toString index
  if pattern.is .identifier then f.text pattern
  else if pattern.is .restPattern then
    match pattern.firstNode? with
    | some inner => if inner.is .identifier then f.text inner else numbered
    | none => numbered
  else numbered

/-- The parameter at an index; none for the object that a method is called on. -/
def parameter? (f : SourceFile) (index : Nat) (p : Tree) : Option Parameter :=
  if p.is .identifier then some ⟨f.text p, unknownType, false, false⟩
  else
    match p.child? .pattern with
    | none => none
    | some pattern =>
      if pattern.is .this then none
      else some {
        name := nameOf f pattern index
        type := ((typeOf? p .type).map f.text).getD unknownType
        optional := p.is .optionalParameter || (p.child? .value).isSome
        rest := pattern.is .restPattern }

def parameters (f : SourceFile) (function : Tree) : List Parameter :=
  (parameterNodes function).foldl
    (fun done p => done ++ (parameter? f done.length p).toList) []

def needsArguments (function : Tree) : Bool :=
  (parameterNodes function).any fun p =>
    p.is .requiredParameter && (p.child? .value).isNone &&
      !(p.child? .pattern).any (·.is .restPattern)

mutual

/-- The type names in a tree. Names with a qualifier are left out as a whole. -/
def typeNames : Tree → List Tree
  | .node .nestedTypeIdentifier _ _ _ => []
  | .node .typeIdentifier r s cs => [.node .typeIdentifier r s cs]
  | .node _ _ _ cs => typeNamesAll cs
  | _ => []

def typeNamesAll : List Tree → List Tree
  | [] => []
  | t :: ts => typeNames t ++ typeNamesAll ts

end

/-- The types that the parameters declare, and the return type. -/
def types (function : Tree) : List Tree :=
  (parameterNodes function).filterMap (typeOf? · .type) ++ (returnType? function).toList

def distinct (names : List String) : List String :=
  names.foldl (fun seen n => if seen.contains n then seen else seen ++ [n]) []

/-- The type names that a function mentions, each where it stands first. -/
def mentioned (f : SourceFile) (function : Tree) : List String :=
  distinct ((typeNamesAll (types function)).map f.text)

end Signature

end CallBridge
