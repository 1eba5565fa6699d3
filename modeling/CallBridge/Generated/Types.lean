import CallBridge.Generated.ImportSet
import CallBridge.Generated.Layout
import CallBridge.Surface

/-! # The type declaration module

The module that declares the call surface to the front end: one interface for each namespace, and a
global object that has a member for each interface.
-/
namespace CallBridge.Generated

def signatureParameter (p : Parameter) : String :=
  if p.rest then "..." ++ p.name ++ ": " ++ p.type
  else if p.optional then p.name ++ "?: " ++ p.type
  else p.name ++ ": " ++ p.type

/-- The type that a call has on the front end, where nothing is returned at once. -/
def surfaceType : ReturnShape → String
  | .value t | .asyncValue t => "Promise<" ++ t ++ ">"
  | .asyncStream t => "AsyncGenerator<" ++ t ++ ", void, unknown>"

structure Signature where
  name : String
  parameters : List Parameter
  shape : ReturnShape
  deriving DecidableEq, Repr, Inhabited

namespace Signature

def ofMethod (m : Method) : Signature :=
  ⟨m.name, m.parameters, m.shape⟩

def text (s : Signature) : String :=
  s.name ++ "(" ++ ", ".intercalate (s.parameters.map signatureParameter) ++ "): " ++
    surfaceType s.shape

end Signature

structure Interface where
  namespaceName : String
  name : String
  members : List Signature
  deriving DecidableEq, Repr, Inhabited

namespace Interface

def ofGroup (g : Group) : Interface :=
  ⟨g.name, g.interfaceName, g.methods.map Signature.ofMethod⟩

def text (i : Interface) : String :=
  unlines (("export interface " ++ i.name ++ " \x7b") ::
    i.members.map (fun s => "  " ++ s.text ++ ";") ++ ["\x7d"])

def windowMember (i : Interface) : String :=
  "    " ++ i.namespaceName ++ ": " ++ i.name ++ ";"

end Interface

structure Types where
  imports : ImportSet
  interfaces : List Interface

namespace Types

def importType (output : Path) (set : ImportSet) (t : TypeRef) : Except Failure ImportSet :=
  set.add t.name ⟨t.module.specifier output, t.imported⟩

/-- The module for a surface, to be written to `output`. -/
def ofSurface (s : Surface) (output : Path) : Except Failure Types := do
  let imports ← (s.methods.flatMap Method.typeRefs).foldlM (importType output)
    (ImportSet.empty output.text true)
  return ⟨imports, s.groups.map Interface.ofGroup⟩

def windowText (t : Types) : String :=
  unlines (["declare global \x7b", "  interface Window \x7b"] ++
    t.interfaces.map Interface.windowMember ++ ["  \x7d", "\x7d"])

/-- The text of the module. Without interfaces an empty export keeps it a module. -/
def text (t : Types) : String :=
  layout (header :: unlines (t.imports.statements.map ImportStatement.text) ::
    t.interfaces.map Interface.text ++
    (if t.interfaces.isEmpty then ["export \x7b\x7d;"] else []) ++ [t.windowText])

end Types

end CallBridge.Generated
