import CallBridge.Discovery
import CallBridge.Disk
import CallBridge.Extraction
import CallBridge.Summary

/-! # Runs

A run reads the given files, merges their methods into one surface, and writes the three outputs, or
compares them with what it would write. A file that cannot be used yields a diagnostic and nothing
else. All texts are known before the first output is written.
-/
namespace CallBridge

inductive Mode where
  | write
  | check
  deriving DecidableEq, Repr, Inhabited

def Settings.marking (s : Settings) : Marking :=
  ⟨s.annotation, s.defaultNamespace⟩

def Yield.unusable (p : Path) (problem : Problem) (line : Nat) (message : String) : Yield :=
  ⟨[], [.of problem p.text line message]⟩

def Disk.analyzeFile (d : Disk) (marking : Marking) (p : Path) : Yield :=
  match d.read [] p with
  | .error fault => .unusable p .unreadableFile 0 ("cannot read file: " ++ fault.message)
  | .ok bytes =>
    match SourceFile.read? p bytes with
    | none => .unusable p .parseError 0 (SourceFile.unsupported p)
    | some f =>
      match f.faultLine? with
      | some line => .unusable p .parseError line "syntax error; file skipped"
      | none => f.extract marking

/-- A result, and the diagnostics that were reported on the way to it. -/
structure Reported (α : Type) where
  diagnostics : List Diagnostic
  result : Except Failure α

def Reported.andThen {α β : Type} (r : Reported α) (f : α → Except Failure β) : Reported β :=
  ⟨r.diagnostics, r.result.bind f⟩

/-- Merge what files yield into a surface, up to the first failure. The diagnostics on the file that
fails are reported. -/
def Surface.merge (s : Surface) : List Yield → Reported Surface
  | [] => ⟨[], do s.validate; return s⟩
  | y :: ys =>
    match s.insertAll y.methods with
    | .error failure => ⟨y.diagnostics, .error failure⟩
    | .ok s =>
      let rest := s.merge ys
      { rest with diagnostics := y.diagnostics ++ rest.diagnostics }

/-- The surface of some files, each counted once, in path order. -/
def Disk.analyze (d : Disk) (s : Settings) (files : List Path) : Reported Surface :=
  Surface.empty.merge ((Path.sortDistinct files).map (d.analyzeFile s.marking))

/-- The surface of some files and the texts of its outputs. -/
def Disk.render (d : Disk) (s : Settings) (files : List Path) :
    Reported (Surface × Generated.Texts) :=
  (d.analyze s files).andThen fun surface => do
    return (surface, ← Generated.texts surface s.resolvedOutputs s.runtime)

structure Output where
  name : String
  path : Path
  text : String
  deriving DecidableEq, Repr, Inhabited

/-- The outputs with given texts, in the order in which they are written. -/
def Settings.outputsWith (s : Settings) (t : Generated.Texts) : List Output :=
  let o := s.resolvedOutputs
  [⟨"backend", o.backend, t.backend⟩, ⟨"bridge", o.bridge, t.bridge⟩, ⟨"types", o.types, t.types⟩]

def Output.check (o : Output) (d : Disk) : OutputReport :=
  ⟨o.name, o.path, if d.holdsText o.path o.text then .unchanged else .stale⟩

def Output.write (o : Output) : ExceptT Failure (StateM Disk) OutputReport := do
  if (← get).holdsText o.path o.text then return ⟨o.name, o.path, .unchanged⟩
  else
    let (done, d) := (Disk.replace o.path o.text).run.run (← get)
    set d
    match done with
    | .ok _ => return ⟨o.name, o.path, .written⟩
    | .error fault => throw (.write o.path fault)

def Mode.apply (m : Mode) (os : List Output) :
    ExceptT Failure (StateM Disk) (List OutputReport) :=
  match m with
  | .write => os.mapM Output.write
  | .check => do
    let d ← get
    return os.map (·.check d)

/-- What a run has reported, its result, and the disk behind it. -/
structure RunOutcome where
  report : Reported Summary
  disk : Disk

def Disk.run (d : Disk) (s : Settings) (mode : Mode) (files : List Path) : RunOutcome :=
  let rendered := d.render s files
  match rendered.result with
  | .error failure => ⟨⟨rendered.diagnostics, .error failure⟩, d⟩
  | .ok (surface, texts) =>
    let (reports, d) := (mode.apply (s.outputsWith texts)).run.run d
    let summary (outputs : List OutputReport) : Summary :=
      ⟨files.length, surface.size, surface.namespaces, outputs⟩
    ⟨⟨rendered.diagnostics, reports.map summary⟩, d⟩

end CallBridge
