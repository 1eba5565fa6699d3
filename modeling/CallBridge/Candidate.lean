import CallBridge.Annotation
import CallBridge.Scope
import CallBridge.Signature

/-! # Candidates

The declarations of a source file that might be exposed: the methods of classes at the top of the
file, functions, and variables that hold functions. With each come the decorators and comments in
front of it, where annotations are looked for.
-/
namespace CallBridge

open Syntax (Tree)

structure ClassInfo where
  name : String
  exported : Export
  isAbstract : Bool
  typeParameters : List String
  needsArguments : Bool
  line : Nat
  deriving Repr, Inhabited

structure Candidate where
  owner? : Option ClassInfo
  node : Tree
  function : Tree
  name? : Option Tree
  declared : Export
  /-- Decorators in front, the ones that belong to the declaration first, then the nearest. -/
  decorators : List Tree
  comments : List Tree
  deriving Inhabited

/-- The candidates that share one class, or one other declaration. -/
structure CandidateGroup where
  owner? : Option ClassInfo
  candidates : List Candidate
  deriving Inhabited

namespace Candidate

/-- A comment is on the line on which the tree in front of it ends. -/
def trails (comment : Tree) (before : List Tree) : Bool :=
  match before with
  | t :: _ => !t.is .comment && t.span.endRow == comment.span.row
  | [] => false

/-- The comments, and the decorators if `decorated`, that stand directly in front of a
declaration. The trees in front of it are given from the nearest on. -/
def attached (decorated : Bool) : List Tree → List Tree
  | [] => []
  | t :: before =>
    if !t.isNode then attached decorated before
    else if (decorated && t.is .decorator) || (t.is .comment && !trails t before) then
      t :: attached decorated before
    else []

/-- Each tree of a list with the trees in front of it, the nearest first. -/
def withBefore (before : List Tree) : List Tree → List (Tree × List Tree)
  | [] => []
  | t :: ts => (t, before) :: withBefore (t :: before) ts

def isConstructor (f : SourceFile) (member : Tree) : Bool :=
  member.is .methodDefinition && (member.child? .name).any fun n => f.text n == "constructor"

def classInfo? (f : SourceFile) (s : Scope) (declaration : Tree) (declared : Export) :
    Option (ClassInfo × Tree) := do
  let name := f.text (← declaration.child? .name)
  let body ← declaration.child? .body
  let maker? := body.nodes.find? (isConstructor f)
  return ({
    name
    exported := s.exportOf name declared
    isAbstract := declaration.is .abstractClassDeclaration
    typeParameters := Signature.typeParameters f declaration
    needsArguments := maker?.any Signature.needsArguments
    line := declaration.line }, body)

def method (c : ClassInfo) (member : Tree) (before : List Tree) : Candidate :=
  let front := attached true before
  { owner? := some c
    node := member
    function := member
    name? := member.child? .name
    declared := c.exported
    decorators := member.children.filter (·.field? == some .decorator) ++
      front.filter (·.is .decorator)
    comments := front.filter (·.is .comment) }

def methodsOf (f : SourceFile) (c : ClassInfo) (body : Tree) : List Candidate :=
  ((withBefore [] body.children).filter fun (m, _) =>
    m.is .methodDefinition && !isConstructor f m).map fun (m, before) => method c m before

def isFunctionValue (t : Tree) : Bool :=
  t.is .arrowFunction || t.is .functionExpression || t.is .generatorFunction

def bindingsOf (declaration : Tree) (declared : Export) (before : List Tree) :
    List Candidate :=
  (declaration.nodes.filter (·.is .variableDeclarator)).filterMap fun d => do
    let value ← d.child? .value
    if isFunctionValue value then
      return { owner? := none, node := d, function := value, name? := d.child? .name, declared,
               decorators := [], comments := attached false before }
    else none

def group? (f : SourceFile) (s : Scope) (statement : Tree) (before : List Tree) :
    Option CandidateGroup := do
  let (declaration, declared) ←
    if statement.is .exportStatement then
      (statement.child? .declaration).map fun d => (d, Scope.statementExport statement)
    else some (statement, Export.none)
  if declaration.is .functionDeclaration || declaration.is .generatorFunctionDeclaration then
    return ⟨none, [{ owner? := none, node := declaration, function := declaration,
                     name? := declaration.child? .name, declared, decorators := [],
                     comments := attached false before }]⟩
  else if declaration.is .classDeclaration || declaration.is .abstractClassDeclaration then
    let (c, body) ← classInfo? f s declaration declared
    return ⟨some c, methodsOf f c body⟩
  else if declaration.is .lexicalDeclaration || declaration.is .variableDeclaration then
    return ⟨none, bindingsOf declaration declared before⟩
  else none

def ofFile (f : SourceFile) (s : Scope) : List CandidateGroup :=
  (withBefore [] f.tree.children).filterMap fun (t, before) => group? f s t before

def name (f : SourceFile) (c : Candidate) : String :=
  (c.name?.map f.text).getD ""

def qualifier (f : SourceFile) (c : Candidate) : String :=
  match c.owner? with
  | some o => o.name ++ "." ++ c.name f
  | none => c.name f

def line (c : Candidate) : Nat :=
  c.node.line

def isAsync (c : Candidate) : Bool :=
  Signature.isAsync c.function

def isGenerator (c : Candidate) : Bool :=
  Signature.isGenerator c.function

end Candidate

end CallBridge
