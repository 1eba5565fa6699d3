/-! # Diagnostics

Problems with single declarations and files. They are collected during a run and never stop it.
-/
namespace CallBridge

inductive Severity where
  | error
  | warning
  | info
  deriving DecidableEq, Repr, Inhabited

def Severity.text : Severity → String
  | error => "error"
  | warning => "warning"
  | info => "info"

inductive Problem where
  | invalidNamespace
  | malformedAnnotation
  | unsupportedReturnType
  | unsupportedDeclaration
  | notExported
  /-- A type of the signature is declared in the file and not exported. -/
  | typeNotExported
  | constructorArguments
  | unreadableFile
  | parseError
  deriving DecidableEq, Repr, Inhabited

namespace Problem

def all : List Problem :=
  [invalidNamespace, malformedAnnotation, unsupportedReturnType, unsupportedDeclaration,
    notExported, typeNotExported, constructorArguments, unreadableFile, parseError]

def code : Problem → String
  | invalidNamespace => "invalid_namespace"
  | malformedAnnotation => "malformed_annotation"
  | unsupportedReturnType => "unsupported_return_type"
  | unsupportedDeclaration => "unsupported_declaration"
  | notExported => "not_exported"
  | typeNotExported => "type_not_exported"
  | constructorArguments => "constructor_arguments"
  | unreadableFile => "unreadable_file"
  | parseError => "parse_error"

def severity : Problem → Severity
  | unreadableFile | parseError => .error
  | _ => .warning

end Problem

/-- A problem at a place. Line 0 stands for the file as a whole. -/
structure Diagnostic where
  problem : Problem
  severity : Severity
  message : String
  file : String
  line : Nat
  qualifier : Option String := none
  deriving DecidableEq, Repr, Inhabited

namespace Diagnostic

def of (problem : Problem) (file : String) (line : Nat) (message : String)
    (qualifier : Option String := none) : Diagnostic :=
  ⟨problem, problem.severity, message, file, line, qualifier⟩

def location (d : Diagnostic) : String :=
  if d.line = 0 then d.file else s!"{d.file}:{d.line}"

def count (s : Severity) (ds : List Diagnostic) : Nat :=
  ds.countP (·.severity == s)

end Diagnostic

end CallBridge
