import CallBridge.Report.Json

/-! # Reports for readers

Lines for a terminal, in colour or plain.
-/
namespace CallBridge.Report

inductive Style where
  | bold
  | dimmed
  | red
  | green
  | yellow
  | blue
  | title
  deriving DecidableEq, Repr, Inhabited

def Style.code : Style → String
  | bold => "1"
  | dimmed => "2"
  | red => "31"
  | green => "32"
  | yellow => "33"
  | blue => "34"
  | title => "1;36"

def styled (color : Bool) (style : Style) (s : String) : String :=
  if color then "\x1b[" ++ style.code ++ "m" ++ s ++ "\x1b[0m" else s

def padTo (width : Nat) (s : String) : String :=
  s ++ String.ofList (List.replicate (width - s.length) ' ')

private def severityTag (color : Bool) : Severity → String
  | .error => styled color .red "ERROR"
  | .warning => styled color .yellow "WARN "
  | .info => styled color .blue "INFO "

private def diagnosticText (color : Bool) (d : Diagnostic) : String :=
  "    " ++ severityTag color d.severity ++ "    " ++
    styled color .dimmed (padTo 26 d.problem.code) ++ styled color .blue d.file ++
    (if d.line = 0 then "" else styled color .dimmed s!":{d.line}") ++ "\n" ++
    "            " ++
    (match d.qualifier with
      | some q => styled color .bold q ++ ": "
      | none => "") ++
    d.message ++ "\n\n"

private def statusText (color : Bool) : OutputStatus → String
  | .written => styled color .green "written  "
  | .unchanged => styled color .dimmed "unchanged"
  | .stale => styled color .red "stale    "

private def outputText (color : Bool) (o : OutputReport) : String :=
  "    " ++ padTo 8 o.name ++ " " ++ statusText color o.status ++ " " ++ o.path.text ++ "\n"

private def diagnosticsText (color : Bool) (ds : List Diagnostic) : String :=
  if ds.isEmpty then ""
  else
    "  " ++ styled color .bold "Diagnostics" ++ s!" ({ds.length}):\n\n" ++
      String.join (ds.map (diagnosticText color)) ++ "\n"

private def finalText (color : Bool) (o : Outcome) : String :=
  let errors := Diagnostic.count .error o.diagnostics
  let warnings := Diagnostic.count .warning o.diagnostics
  "  " ++ styled color .dimmed s!"{errors} errors, {warnings} warnings" ++ "  " ++
    (if o.passed then styled color .green "PASSED" else styled color .red "FAILED") ++ "\n"

def Outcome.pretty (o : Outcome) (color : Bool) : String :=
  "\n  " ++ styled color .title "bridgegen" ++ " v" ++ version ++ "  " ++
    styled color .dimmed o.command ++ "\n\n" ++
    "  " ++ styled color .dimmed "Config:     " ++ o.settings ++ "\n" ++
    "  " ++ styled color .dimmed "Scanned:    " ++ s!"{o.summary.files} files\n" ++
    "  " ++ styled color .dimmed "Exposed:    " ++
    s!"{o.summary.methods} methods in {o.summary.namespaces.length} namespaces\n\n" ++
    diagnosticsText color o.diagnostics ++
    "  " ++ styled color .bold "Outputs:" ++ "\n" ++
    String.join (o.summary.outputs.map (outputText color)) ++ "\n" ++
    finalText color o ++ "\n"

end CallBridge.Report
