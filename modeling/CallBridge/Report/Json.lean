import CallBridge.Diagnostic
import CallBridge.Report.Document
import CallBridge.Summary

/-! # Reports for programs -/
namespace CallBridge.Report

def version : String := "0.1.0"

/-- What a report is about: the command, the label of its settings, and the outcome. -/
structure Outcome where
  command : String
  settings : String
  diagnostics : List Diagnostic
  summary : Summary
  passed : Bool
  deriving Repr, Inhabited

def diagnosticDocument (d : Diagnostic) : Document :=
  .object ([("code", .text d.problem.code), ("severity", .text d.severity.text),
    ("message", .text d.message), ("file", .text d.file), ("line", .number d.line)] ++
    (d.qualifier.map fun q => ("qualifier", .text q)).toList)

def outputDocument (o : OutputReport) : Document :=
  .object [("name", .text o.name), ("path", .text o.path.text), ("status", .text o.status.text)]

def Outcome.document (o : Outcome) : Document :=
  .object [
    ("version", .text version),
    ("command", .text o.command),
    ("config", .text o.settings),
    ("passed", .bool o.passed),
    ("files_scanned", .number o.summary.files),
    ("methods", .number o.summary.methods),
    ("namespaces", .list (o.summary.namespaces.map .text)),
    ("outputs", .list (o.summary.outputs.map outputDocument)),
    ("errors", .number (Diagnostic.count .error o.diagnostics)),
    ("warnings", .number (Diagnostic.count .warning o.diagnostics)),
    ("diagnostics", .list (o.diagnostics.map diagnosticDocument))]

def Outcome.json (o : Outcome) : String :=
  o.document.pretty ++ "\n"

end CallBridge.Report
