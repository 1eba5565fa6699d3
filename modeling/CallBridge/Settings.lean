import CallBridge.Generated.Files
import CallBridge.Glob
import CallBridge.Text.Name
import CallBridge.Yaml.Node

/-! # Settings

What a run scans, what it writes, and how annotations are spelled. Settings come from a YAML
document whose keys are fixed, or are the defaults; relative paths are read from the base
directory, and that from the directory of the document.
-/
namespace CallBridge

/-- Settings of a run. Patterns are relative to the base directory. -/
structure Settings where
  root : Path
  baseDir : Option Path := none
  defaultNamespace : String := "api"
  annotation : String := "expose"
  includes : List String := ["src/**/*.ts", "src/**/*.tsx"]
  excludes : List String := []
  outputs : Generated.Outputs :=
    ⟨⟨"src/main/bridge.generated.ts"⟩, ⟨"src/preload/bridge.generated.ts"⟩,
      ⟨"src/renderer/bridge.generated.d.ts"⟩⟩
  runtime : Generated.Runtime := ⟨"@bridgegen/runtime/backend", "@bridgegen/runtime/bridge"⟩
  deriving Repr, Inhabited

namespace Settings

def fileName : String := "bridgegen.yaml"

def ofRoot (root : Path) : Settings :=
  { root := root.normalize }

def base (s : Settings) : Path :=
  match s.baseDir with
  | some dir => Path.absolutize s.root dir
  | none => s.root

def resolvedOutputs (s : Settings) : Generated.Outputs :=
  ⟨Path.absolutize s.base s.outputs.backend, Path.absolutize s.base s.outputs.bridge,
    Path.absolutize s.base s.outputs.types⟩

def includeSet (s : Settings) : Except Failure GlobSet :=
  GlobSet.read s.includes

def excludeSet (s : Settings) : Except Failure GlobSet :=
  GlobSet.read s.excludes

private def checkRuntime (name specifier : String) : Except Failure Unit :=
  if (Text.trim specifier.toList).isEmpty || specifier.toList.contains '\'' then
    .error (.settings s!"runtime.{name} {Text.shown specifier} is not a usable module specifier")
  else .ok ()

def validate (s : Settings) : Except Failure Unit := do
  if !Text.isCamelCase s.defaultNamespace then
    throw (.settings s!"defaultNamespace {Text.shown s.defaultNamespace} must be camelCase")
  if !Text.isIdentifier s.annotation then
    throw (.settings s!"annotation {Text.shown s.annotation} must be an identifier")
  let o := s.resolvedOutputs
  if o.backend.same o.bridge || o.backend.same o.types || o.bridge.same o.types then
    throw (.settings "outputs.backend, outputs.bridge and outputs.types must be distinct files")
  checkRuntime "backend" s.runtime.backend
  checkRuntime "bridge" s.runtime.bridge
  let _ ← s.includeSet
  let _ ← s.excludeSet

open Yaml (Node)

private def text? : Node → Option String
  | .scalar text _ _ => some text
  | _ => none

private def isNull (text : String) : Bool :=
  text == "null" || text == "Null" || text == "NULL" || text == "~"

/-- A text that may be absent: a plain scalar that is empty or null stands for none. -/
private def optionalText? : Node → Option (Option String)
  | .scalar text .plain none => some (if text == "" || isNull text then none else some text)
  | .scalar text .plain (some "tag:yaml.org,2002:null") => if isNull text then some none else none
  | .scalar text _ _ => some (some text)
  | _ => none

private def texts? : Node → Option (List String)
  | .sequence items => items.mapM text?
  | .scalar "" .plain _ => some []
  | _ => none

/-- The entries of a mapping, with texts for keys; a plain empty scalar stands for none. -/
private def entries? : Node → Option (List (String × Node))
  | .mapping entries => entries.mapM fun (k, v) => do return (← text? k, v)
  | .scalar "" .plain _ => some []
  | _ => none

private def keysFit (names : List String) : List (String × Node) → Bool
  | [] => true
  | (k, _) :: rest => names.contains k && rest.all (·.1 != k) && keysFit names rest

private def fields? (names : List String) (n : Node) : Option (List (String × Node)) := do
  let es ← entries? n
  if keysFit names es then some es else none

private def field? {α : Type} (es : List (String × Node)) (key : String) (read : Node → Option α)
    (absent : α) : Option α :=
  match es.find? (·.1 == key) with
  | some (_, n) => read n
  | none => some absent

private def outputs? (d : Generated.Outputs) (n : Node) : Option Generated.Outputs := do
  let es ← fields? ["backend", "bridge", "types"] n
  let path? (n : Node) : Option Path := (text? n).map Path.mk
  return ⟨← field? es "backend" path? d.backend, ← field? es "bridge" path? d.bridge,
    ← field? es "types" path? d.types⟩

private def runtime? (d : Generated.Runtime) (n : Node) : Option Generated.Runtime := do
  let es ← fields? ["backend", "bridge"] n
  return ⟨← field? es "backend" text? d.backend, ← field? es "bridge" text? d.bridge⟩

def ofNode? (root : Path) (n : Node) : Option Settings := do
  let d := ofRoot root
  let es ← fields? ["baseDir", "defaultNamespace", "annotation", "include", "exclude", "outputs",
    "runtime"] n
  let baseDir ← field? es "baseDir" optionalText? none
  return {
    root := d.root
    baseDir := baseDir.map Path.mk
    defaultNamespace := ← field? es "defaultNamespace" text? d.defaultNamespace
    annotation := ← field? es "annotation" text? d.annotation
    includes := ← field? es "include" texts? d.includes
    excludes := ← field? es "exclude" texts? d.excludes
    outputs := ← field? es "outputs" (outputs? d.outputs) d.outputs
    runtime := ← field? es "runtime" (runtime? d.runtime) d.runtime }

/-- Read and check settings from the text of a document in the directory `root`. -/
def ofYaml (root : Path) (text : String) : Except Failure Settings := do
  match (Node.read? text).bind (ofNode? root) with
  | none => throw (.document "not a settings document")
  | some s =>
    s.validate
    return s

end Settings

end CallBridge
