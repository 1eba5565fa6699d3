import CallBridge.Path

/-! # Module specifiers

How one module names another in an import: a relative path with `/` between its parts, `./` in
front unless it climbs, and no source extension.
-/
namespace CallBridge

/-- Extensions that a specifier leaves out, in the order in which they are tried. -/
def strippedExtensions : List String :=
  [".d.ts", ".d.mts", ".d.cts", ".ts", ".tsx", ".mts", ".cts", ".js", ".jsx", ".mjs", ".cjs"]

/-- The text without the first extension of the list that it ends in. -/
def stripExtension (s : String) : String :=
  match strippedExtensions.findSome? fun e => Text.before? e.toList s.toList with
  | some stem => String.ofList stem
  | none => s

def Path.toSpecifier (p : Path) : String :=
  let stem := stripExtension ("/".intercalate (p.components.map Component.text))
  if stem.startsWith "../" || stem == ".." then stem else "./" ++ stem

inductive ModuleRef where
  | file (path : Path)
  | package (specifier : String)
  deriving DecidableEq, Repr, Inhabited

/-- The module that a specifier names in a file of the directory `dir`. -/
def ModuleRef.ofSpecifier (dir : Path) (specifier : String) : ModuleRef :=
  if specifier.startsWith "./" || specifier.startsWith "../" || specifier == "." ||
      specifier == ".." then
    .file (dir.join ⟨specifier⟩).normalize
  else
    .package specifier

/-- The directory that specifiers of an output file are relative to. -/
def importDirectory (output : Path) : Path :=
  match output.parent? with
  | some dir => dir.normalize
  | none => ⟨""⟩

def ModuleRef.specifier (output : Path) : ModuleRef → String
  | .file path => (Path.relative (importDirectory output) path).toSpecifier
  | .package s => s

end CallBridge
