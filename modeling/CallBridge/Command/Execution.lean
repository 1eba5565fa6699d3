import CallBridge.Command.Arguments
import CallBridge.Command.Template
import CallBridge.Report.Pretty
import CallBridge.Run

/-! # Commands

What a request does to a disk, what it prints, and its exit status: 0 if all is well, 1 if a run
succeeds but does not pass, 2 if it ends with a failure.
-/
namespace CallBridge.Command

structure Reply where
  exit : Nat
  out : String
  err : String
  deriving DecidableEq, Repr, Inhabited

namespace Reply

def errorStatus : Nat := 2

def failed (err : String) : Reply :=
  ⟨errorStatus, "", err⟩

end Reply

def chain (f : Failure) : String :=
  ": ".intercalate (f.message :: f.causes)

def loadSettings (d : Disk) (p : Path) : Except Failure Settings :=
  match d.read [] p with
  | .error fault => .error (.file fault)
  | .ok bytes =>
    match String.fromUTF8? bytes with
    | none => .error (.file (.other "stream did not contain valid UTF-8"))
    | some text => Settings.ofYaml (p.parent?.getD ⟨"/"⟩) text

def settingsPath? (d : Disk) (here : Path) (asked : Option Path) : Option Path :=
  match asked with
  | some p => some (Path.absolutize here p)
  | none =>
    let usual := here.join ⟨Settings.fileName⟩
    if d.tree.holds [] usual then some usual else none

def settingsOf (d : Disk) (here : Path) (path? : Option Path) :
    Except Failure (Settings × String) :=
  match path? with
  | none => .ok (Settings.ofRoot here, "(defaults)")
  | some p => (loadSettings d p).map fun s => (s, p.text)

/-- Whether a run passes: no errors, no warnings if they are denied, no output out of date. -/
def passes (denyWarnings : Bool) (ds : List Diagnostic) (s : Summary) : Bool :=
  Diagnostic.count .error ds == 0 && !(denyWarnings && Diagnostic.count .warning ds != 0) &&
    !s.isStale

private def failureText (ds : List Diagnostic) (f : Failure) : String :=
  String.join (ds.map fun d => d.severity.text ++ ": " ++ d.location ++ " " ++ d.message ++ "\n") ++
    "Error: " ++ f.message ++ "\n" ++
    (if f.outputsUntouched then "No files were written\n"
      else "Outputs may be partially updated; rerun after fixing the error\n")

/-- The files of a run: the given ones, or all sources of the project. -/
def filesOf (d : Disk) (here : Path) (s : Settings) (given : List Path) :
    Except Failure (List Path) :=
  if given.isEmpty then s.discover d.tree else .ok (given.map (Path.absolutize here))

def replyTo (name format label : String) (color denyWarnings : Bool) (r : Reported Summary) :
    Reply :=
  match r.result with
  | .error failure => .failed (failureText r.diagnostics failure)
  | .ok summary =>
    let passed := passes denyWarnings r.diagnostics summary
    let outcome : Report.Outcome :=
      { command := name, settings := label, diagnostics := r.diagnostics, summary, passed }
    ⟨if passed then 0 else 1, if format == "json" then outcome.json else outcome.pretty color, ""⟩

def runWith (d : Disk) (here : Path) (color : Bool) (name : String) (mode : Mode)
    (o : RunOptions) : Reply × Disk :=
  if o.format != "pretty" && o.format != "json" then
    (.failed ("Error: invalid format " ++ Text.shown o.format ++
      ", must be 'pretty' or 'json'\n"), d)
  else
    let path? := settingsPath? d here o.config
    match settingsOf d here path? with
    | .error failure =>
      (.failed ("Error: failed to load " ++ (path?.getD here).text ++ ": " ++ chain failure ++
        "\nRun 'bridgegen init' to create a configuration file\n"), d)
    | .ok (s, label) =>
      match filesOf d here s o.files with
      | .error failure => (.failed ("Error: " ++ chain failure ++ "\n"), d)
      | .ok files =>
        let outcome := d.run s mode files
        (replyTo name o.format label color o.denyWarnings outcome.report, outcome.disk)

private def created (p : String) : String :=
  "Created " ++ p ++ "\n\nNext steps:\n  1. Edit " ++ p ++
    " to point at your sources and outputs\n" ++
    "  2. Annotate methods with @expose('namespaceName')\n" ++
    "  3. Run: bridgegen generate --config " ++ p ++ "\n"

def createSettings (d : Disk) (here : Location) (output : Path) : Reply × Disk :=
  if d.tree.holds here output then
    (.failed ("Error: file already exists: " ++ output.text ++
      "\nRemove it or use --output to specify a different path\n"), d)
  else
    let steps := (output.parent?.getD ⟨""⟩).components.reverse
    let (made, d) := (Disk.makeDirectories here steps).run.run d
    match made with
    | .error fault => (.failed ("Error: failed to create directory: " ++ fault.message ++ "\n"), d)
    | .ok _ =>
      let (written, d) := (Disk.write here output template).run.run d
      match written with
      | .error fault =>
        (.failed ("Error: failed to write configuration: " ++ fault.message ++ "\n"), d)
      | .ok _ => (⟨0, created output.text, ""⟩, d)

/-- Answer a request that is made in the directory `here`. -/
def execute (d : Disk) (here : Path) (color : Bool) : Request → Reply × Disk
  | .generate o => runWith d here color "generate" .write o
  | .check o => runWith d here color "check" .check { o with denyWarnings := false }
  | .init output => createSettings d here.location output

end CallBridge.Command
