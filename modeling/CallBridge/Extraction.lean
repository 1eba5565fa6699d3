import CallBridge.Candidate
import CallBridge.Diagnostic
import CallBridge.Text.Name

/-! # Extraction

Each candidate of a file is judged for itself: it is not annotated, or it is dropped with one
diagnostic that says why, or it is exposed, perhaps with warnings. The methods of a file are those
of its exposed candidates in source order.
-/
namespace CallBridge

open Syntax (Tree)

inductive Obstacle where
  | abstractClass (name : String)
  | staticMethod
  | restricted (modifier : String)
  | accessor
  | privateName
  | unusualName (name : String)
  | synchronousGenerator
  deriving DecidableEq, Repr, Inhabited

def Obstacle.message : Obstacle → String
  | abstractClass name => "abstract class " ++ name ++ " cannot be instantiated"
  | staticMethod => "static methods cannot be exposed"
  | restricted modifier => modifier ++ " methods cannot be exposed"
  | accessor => "accessors cannot be exposed"
  | privateName => "private #methods cannot be exposed"
  | unusualName name => "method name `" ++ name ++ "` is not a plain identifier"
  | synchronousGenerator => "synchronous generators cannot be exposed"

/-- The word in decorators and tags, and the namespace of bare annotations. -/
structure Marking where
  annotation : String := "expose"
  defaultNamespace : String := "api"
  deriving DecidableEq, Repr, Inhabited

inductive Verdict where
  | notAnnotated
  | dropped (reason : Diagnostic)
  | exposed (method : Method) (warnings : List Diagnostic)
  deriving Repr, Inhabited

structure Yield where
  methods : List Method
  diagnostics : List Diagnostic
  deriving Repr, Inhabited

namespace Verdict

def method? : Verdict → Option Method
  | exposed m _ => some m
  | _ => none

def diagnostics : Verdict → List Diagnostic
  | notAnnotated => []
  | dropped d => [d]
  | exposed _ ds => ds

end Verdict

namespace Candidate

private def methodObstacle? (f : SourceFile) (c : Candidate) (o : ClassInfo) : Option Obstacle :=
  let modifier := ((c.node.nodes.find? (·.is .accessibilityModifier)).map f.text).getD "public"
  if o.isAbstract then some (.abstractClass o.name)
  else if c.node.hasToken "static" then some .staticMethod
  else if modifier != "public" then some (.restricted modifier)
  else if c.node.hasToken "get" || c.node.hasToken "set" then some .accessor
  else
    match c.name?.bind Tree.kind? with
    | some .propertyIdentifier => none
    | some .privatePropertyIdentifier => some .privateName
    | _ => some (.unusualName (c.name f))

def obstacle? (f : SourceFile) (c : Candidate) : Option Obstacle :=
  (c.owner?.bind (methodObstacle? f c)).or <|
    if c.isGenerator && !c.isAsync then some .synchronousGenerator else none

def diagnose (f : SourceFile) (c : Candidate) (p : Problem) (message : String) : Diagnostic :=
  .of p f.path.text c.line message (some (c.qualifier f))

/-- The declared shape of the result, or how it contradicts the declaration. -/
def shape (f : SourceFile) (c : Candidate) : Except ReturnShape.Conflict ReturnShape :=
  match Signature.returnType? c.function with
  | none => .ok (.unannotated c.isAsync c.isGenerator)
  | some t =>
    let s := ReturnShape.ofType f t
    match s.conflict? c.isAsync c.isGenerator with
    | some conflict => .error conflict
    | none => .ok s

def typeParameters (f : SourceFile) (c : Candidate) : List String :=
  Signature.typeParameters f c.function ++ (c.owner?.map ClassInfo.typeParameters).getD []

def freeTypes (f : SourceFile) (c : Candidate) : List String :=
  (Signature.mentioned f c.function).filter fun n => !(c.typeParameters f).contains n

def typeRef? (f : SourceFile) (s : Scope) (name : String) : Option TypeRef :=
  match s.resolve name with
  | .declared .default => some ⟨name, .default, .file f.path⟩
  | .declared _ => some ⟨name, .named name, .file f.path⟩
  | .imported i => some ⟨name, i.imported, i.module⟩
  | .global => none

def binding (f : SourceFile) (c : Candidate) : String :=
  (c.owner?.map ClassInfo.name).getD (c.name f)

def exported (f : SourceFile) (s : Scope) (c : Candidate) : Export :=
  match c.owner? with
  | some o => o.exported
  | none => s.exportOf (c.name f) c.declared

def typeWarnings (f : SourceFile) (s : Scope) (c : Candidate) : List Diagnostic :=
  ((c.freeTypes f).filter fun n => s.resolve n == .declared .none).map fun n =>
    c.diagnose f .typeNotExported
      ("type " ++ n ++ " is used in an exposed signature but is not exported")

def exportWarnings (f : SourceFile) (s : Scope) (c : Candidate) : List Diagnostic :=
  if (c.exported f s).isExported then []
  else
    [c.diagnose f .notExported
      (c.binding f ++ " is not exported; the generated backend import will not resolve")]

def toMethod (f : SourceFile) (s : Scope) (c : Candidate) (namespaceName : String)
    (shape : ReturnShape) : Method where
  namespaceName
  name := c.name f
  className := c.owner?.map ClassInfo.name
  parameters := Signature.parameters f c.function
  shape
  file := f.path
  line := c.line
  exported := c.exported f s
  typeRefs := (c.freeTypes f).filterMap (typeRef? f s)

def judge (marking : Marking) (f : SourceFile) (s : Scope) (c : Candidate) : Verdict :=
  match Annotation.read f marking.annotation c.decorators c.comments with
  | .error fault =>
    .dropped (c.diagnose f Problem.malformedAnnotation (fault.message marking.annotation))
  | .ok none => .notAnnotated
  | .ok (some annotation) =>
    match c.obstacle? f with
    | some obstacle => .dropped (c.diagnose f .unsupportedDeclaration obstacle.message)
    | none =>
      let namespaceName := annotation.namespaceOr marking.defaultNamespace
      if !Text.isCamelCase namespaceName then
        .dropped (c.diagnose f .invalidNamespace
          ("namespace '" ++ namespaceName ++ "' must be camelCase (e.g. 'userAPI')"))
      else
        match c.shape f with
        | .error conflict =>
          .dropped (c.diagnose f .unsupportedReturnType conflict.message)
        | .ok shape =>
          .exposed (c.toMethod f s namespaceName shape) (typeWarnings f s c ++ exportWarnings f s c)

end Candidate

namespace CandidateGroup

private def instanceWarnings (f : SourceFile) (o : ClassInfo) : List Diagnostic :=
  [.of .constructorArguments f.path.text o.line
    ("constructor of " ++ o.name ++ " takes required arguments; the generated `new " ++ o.name ++
      "()` will not supply them") (some o.name)]

/-- What a group of candidates yields. A class that owns an exposed method but needs arguments to
be made is warned of behind its methods. -/
def extract (marking : Marking) (f : SourceFile) (s : Scope) (g : CandidateGroup) : Yield :=
  let verdicts := g.candidates.map (Candidate.judge marking f s)
  let methods := verdicts.filterMap Verdict.method?
  let late :=
    match g.owner? with
    | some o => if o.needsArguments && !methods.isEmpty then instanceWarnings f o else []
    | none => []
  ⟨methods, verdicts.flatMap Verdict.diagnostics ++ late⟩

end CandidateGroup

/-- The exposed methods of a file in source order, and the diagnostics on its declarations. -/
def SourceFile.extract (f : SourceFile) (marking : Marking) : Yield :=
  let s := Scope.ofFile f
  let yields := (Candidate.ofFile f s).map (CandidateGroup.extract marking f s)
  ⟨yields.flatMap Yield.methods, yields.flatMap Yield.diagnostics⟩

end CallBridge
