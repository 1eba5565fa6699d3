import CallBridge.SourceFile

/-! # Annotations

A declaration is marked for exposure by a decorator, `@expose`, `@expose()` or `@expose('users')`,
or by a tag at the start of a line of a comment in front of it, `@expose` or `@expose users`. The
word behind the at sign is a setting. A bare annotation names no namespace.
-/
namespace CallBridge

structure Annotation where
  namespaceName : Option String
  deriving DecidableEq, Repr, Inhabited

namespace Annotation

inductive Fault where
  | notLiteral (found : String)
  | tooManyArguments (count : Nat)
  | repeated (count : Nat)
  deriving DecidableEq, Repr, Inhabited

def Fault.message (name : String) : Fault → String
  | notLiteral found =>
    "@" ++ name ++ "(...) expects a string literal namespace, found `" ++ found ++ "`"
  | tooManyArguments count =>
    "@" ++ name ++ "(...) takes at most one argument, found " ++ toString count
  | repeated count =>
    "found " ++ toString count ++ " @" ++ name ++ " annotations, expected one"

/-- The namespace that a declaration with the annotation belongs to. -/
def namespaceOr (a : Annotation) (default : String) : String :=
  a.namespaceName.getD default

/-- What is left of a line of a comment without the marks of the comment. -/
def lineContent (line : List Char) : List Char :=
  let line := Text.trim line
  let inner := (["/**", "/*", "//"].findSome? fun mark => Text.after? mark.toList line).getD line
  let inner := Text.trim ((Text.trimStart inner).dropWhile (· = '*'))
  Text.trim ((Text.before? "*/".toList inner).getD inner)

def tag? (name : String) (content : List Char) : Option Annotation :=
  match Text.after? ('@' :: name.toList) content with
  | some [] => some ⟨none⟩
  | some (c :: rest) =>
    if Text.isBlank c then some ⟨(Text.firstWord? (c :: rest)).map String.ofList⟩ else none
  | none => none

def tags (name comment : String) : List Annotation :=
  (Text.lines comment.toList).filterMap fun line => tag? name (lineContent line)

open Syntax (Tree)

private def withoutQuotes (s : String) : String :=
  String.ofList (s.toList.drop 1).dropLast

/-- The contents of a string, or of a template without substitutions. -/
def literal? (f : SourceFile) (t : Tree) : Option String :=
  if t.is .string then some (withoutQuotes (f.text t))
  else if t.is .templateString && !t.children.any (·.is .templateSubstitution) then
    some (withoutQuotes (f.text t))
  else none

private def isWord (f : SourceFile) (name : String) (t : Tree) : Bool :=
  t.is .identifier && f.text t == name

/-- The annotation in a decorator; nothing if it is another decorator. -/
def ofDecorator? (f : SourceFile) (name : String) (decorator : Tree) :
    Option (Except Fault Annotation) := do
  let inner ← decorator.firstNode?
  if isWord f name inner then
    return .ok ⟨none⟩
  else if inner.is .callExpression && (inner.child? .function).any (isWord f name) then
    let arguments := ((inner.child? .arguments).map Tree.nodes).getD []
    match arguments.filter fun a => !a.is .comment with
    | [] => return .ok ⟨none⟩
    | [argument] =>
      match literal? f argument with
      | some text => return .ok ⟨some text⟩
      | none => return .error (.notLiteral (f.text argument))
    | many => return .error (.tooManyArguments many.length)
  else none

/-- The one annotation among decorators and comments, if there is any. -/
def read (f : SourceFile) (name : String) (decorators comments : List Tree) :
    Except Fault (Option Annotation) := do
  let marked ← (decorators.filterMap (ofDecorator? f name)).mapM id
  match marked ++ comments.flatMap fun c => tags name (f.text c) with
  | [] => return none
  | [one] => return some one
  | many => throw (.repeated many.length)

end Annotation

end CallBridge
