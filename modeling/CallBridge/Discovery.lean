import CallBridge.FileTree
import CallBridge.Settings
import CallBridge.SourceFile

/-! # Discovery

The source files of a project: all files below the base directory, outside hidden directories and
`node_modules`, that an include pattern matches and no exclude pattern does. Outputs and declaration
files are no sources.
-/
namespace CallBridge

def isSkippedDirectory (name : String) : Bool :=
  name.startsWith "." || name == "node_modules"

def Path.location (p : Path) : Location :=
  p.components.filterMap fun c =>
    match c with
    | .normal name => some name
    | _ => none

def Path.extend (p : Path) (l : Location) : Path :=
  Path.ofComponents (p.components ++ l.map .normal)

namespace FileTree

/-- The names that lead from a directory to the files below it which no skipped directory hides. -/
def visible (t : FileTree) (directory : Location) : List Location :=
  t.files.filterMap fun (l, _) =>
    if directory.isPrefixOf l then
      let rest := l.drop directory.length
      if rest.dropLast.any isSkippedDirectory then none else some rest
    else none

def reach (t : FileTree) (p : Path) : Except FileFault Unit := do
  match t.get? (← t.locate [] p) with
  | some _ => return
  | none => throw .missing

end FileTree

def Settings.discover (s : Settings) (t : FileTree) : Except Failure (List Path) := do
  let includes ← s.includeSet
  let excludes ← s.excludeSet
  match t.reach s.base with
  | .error fault => throw (.walk s.base fault)
  | .ok _ =>
    let found := (t.visible s.base.location).map s.base.extend
    let sources := found.filter fun p =>
      let relative := (Path.below s.base p).text
      p.isSource && !s.resolvedOutputs.contains p && includes.matches relative &&
        !excludes.matches relative
    return sources.mergeSort Path.le

end CallBridge
