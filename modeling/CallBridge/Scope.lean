import CallBridge.Method
import CallBridge.SourceFile

/-! # Scopes

The names at the top of a source file: the types that it declares, what its export lists name, and
what its imports bind. A type that is declared here hides an import of the same name, and a name
that is neither stands for a global type. The order of statements does not matter.
-/
namespace CallBridge

open Syntax (Tree)

structure Import where
  imported : ImportedName
  module : ModuleRef
  deriving DecidableEq, Repr, Inhabited

inductive Origin where
  | declared (exported : Export)
  | imported (binding : Import)
  | global
  deriving DecidableEq, Repr, Inhabited

structure Scope where
  /-- Declared types, with the export that the declaration itself gives them. -/
  types : List (String × Export)
  exports : List (String × Export)
  imports : List (String × Import)
  deriving Repr, Inhabited

namespace Scope

def last? {α : Type} (entries : List (String × α)) (name : String) : Option α :=
  (entries.reverse.find? (·.1 == name)).map (·.2)

def exportApart (s : Scope) (name : String) : Export :=
  (last? s.exports name).getD .none

/-- The export of a binding with the given export by its declaration. -/
def exportOf (s : Scope) (name : String) (declared : Export) : Export :=
  if declared.isExported then declared else s.exportApart name

def typeExport? (s : Scope) (name : String) : Option Export :=
  if s.types.any (·.1 == name) then
    let direct := last? (s.types.filter (·.2.isExported)) name
    some (s.exportOf name (direct.getD .none))
  else none

def resolve (s : Scope) (name : String) : Origin :=
  match s.typeExport? name with
  | some exported => .declared exported
  | none =>
    match last? s.imports name with
    | some binding => .imported binding
    | none => .global

def declaresType (t : Tree) : Bool :=
  t.is .interfaceDeclaration || t.is .typeAliasDeclaration || t.is .classDeclaration ||
    t.is .abstractClassDeclaration || t.is .enumDeclaration

def statementExport (statement : Tree) : Export :=
  if statement.hasToken "default" then .default else .named

def declaredType? (f : SourceFile) (statement : Tree) : Option (String × Export) := do
  let (declaration, exported) ←
    if statement.is .exportStatement then
      (statement.child? .declaration).map fun d => (d, statementExport statement)
    else some (statement, .none)
  if declaresType declaration then
    return (f.text (← declaration.child? .name), exported)
  else none

/-- The names that an export statement without a declaration exports. -/
def listedExports (f : SourceFile) (statement : Tree) : List (String × Export) :=
  if !statement.is .exportStatement || (statement.child? .declaration).isSome then []
  else
    match statement.child? .value with
    | some value => if value.is .identifier then [(f.text value, .default)] else []
    | none =>
      if (statement.child? .source).isSome then []
      else
        let clauses := statement.nodes.filter (·.is .exportClause)
        let specifiers := (clauses.flatMap Tree.nodes).filter (·.is .exportSpecifier)
        specifiers.filterMap fun s =>
          (s.child? .name).map fun name =>
            let exported : Export :=
              if (s.child? .alias).any fun a => f.text a == "default" then .default else .named
            (f.text name, exported)

def isQuote (c : Char) : Bool :=
  c = '"' || c = '\''

def unquoted (s : String) : String :=
  String.ofList ((s.toList.dropWhile isQuote).reverse.dropWhile isQuote).reverse

def specifierImport? (f : SourceFile) (module : ModuleRef) (s : Tree) :
    Option (String × Import) :=
  (s.child? .name).map fun n =>
    let name := f.text n
    let imported : ImportedName := if name == "default" then .default else .named name
    (((s.child? .alias).map f.text).getD name, ⟨imported, module⟩)

/-- The names that an import statement binds. A name for a whole module is none of them. -/
def importsOf (f : SourceFile) (statement : Tree) : List (String × Import) :=
  let specifier := ((statement.child? .source).map fun t => unquoted (f.text t)).getD ""
  match statement.nodes.find? (·.is .importClause) with
  | some clause =>
    if specifier.isEmpty then []
    else
      let module := ModuleRef.ofSpecifier f.directory specifier
      clause.nodes.flatMap fun part =>
        if part.is .identifier then [(f.text part, ⟨.default, module⟩)]
        else if part.is .namedImports then
          (part.nodes.filter (·.is .importSpecifier)).filterMap (specifierImport? f module)
        else []
  | none => []

/-- The scope of a source file. Import statements count wherever they stand. -/
def ofFile (f : SourceFile) : Scope where
  types := f.tree.nodes.filterMap (declaredType? f)
  exports := f.tree.nodes.flatMap (listedExports f)
  imports := (f.tree.preorder.filter (·.is .importStatement)).flatMap (importsOf f)

end Scope

end CallBridge
