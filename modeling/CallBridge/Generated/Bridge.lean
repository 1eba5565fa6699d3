import CallBridge.Generated.ImportSet
import CallBridge.Generated.Layout
import CallBridge.Surface

/-! # The bridge module

The module that exposes one object for each namespace. Its members forward every call to the
channel of the method.
-/
namespace CallBridge.Generated

def exposeName : String := "expose"

def invokeName : String := "invoke"

def iterateName : String := "iterate"

structure ForwardedParameter where
  name : String
  optional : Bool
  rest : Bool
  deriving DecidableEq, Repr, Inhabited

namespace ForwardedParameter

/-- The parameter in the parameter list. A rest parameter shows no optional mark. -/
def text (p : ForwardedParameter) : String :=
  if p.rest then "..." ++ p.name ++ ": unknown[]"
  else if p.optional then p.name ++ "?: unknown"
  else p.name ++ ": unknown"

def argument (p : ForwardedParameter) : String :=
  if p.rest then "..." ++ p.name else p.name

end ForwardedParameter

structure Forwarder where
  name : String
  parameters : List ForwardedParameter
  stream : Bool
  key : String
  deriving DecidableEq, Repr, Inhabited

namespace Forwarder

def ofMethod (m : Method) : Forwarder :=
  ⟨m.name, m.parameters.map fun p => ⟨p.name, p.optional, p.rest⟩, m.shape.isStream, m.key⟩

def text (f : Forwarder) : String :=
  f.name ++ ": (" ++ ", ".intercalate (f.parameters.map ForwardedParameter.text) ++ ") => " ++
    (if f.stream then iterateName else invokeName) ++ "(" ++
    ", ".intercalate (Text.literal f.key :: f.parameters.map ForwardedParameter.argument) ++ ")"

end Forwarder

structure ExposeBlock where
  name : String
  forwarders : List Forwarder
  deriving DecidableEq, Repr, Inhabited

namespace ExposeBlock

def ofGroup (g : Group) : ExposeBlock :=
  ⟨g.name, g.methods.map Forwarder.ofMethod⟩

def text (b : ExposeBlock) : String :=
  unlines ((exposeName ++ "(" ++ Text.literal b.name ++ ", \x7b") ::
    b.forwarders.map (fun f => "  " ++ f.text ++ ",") ++ ["\x7d);"])

end ExposeBlock

structure Bridge where
  imports : ImportSet
  blocks : List ExposeBlock

namespace Bridge

def runtimeNames (s : Surface) : List String :=
  (if s.isEmpty then [] else [exposeName]) ++
    (if s.methods.any (!·.shape.isStream) then [invokeName] else []) ++
    (if s.methods.any (·.shape.isStream) then [iterateName] else [])

def ofSurface (s : Surface) (runtime : String) : Except Failure Bridge := do
  let imports ← (runtimeNames s).foldlM
    (fun (set : ImportSet) name => set.add name ⟨runtime, .named name⟩)
    (ImportSet.empty "bridge" false)
  return ⟨imports, s.groups.map ExposeBlock.ofGroup⟩

def text (b : Bridge) : String :=
  layout (header :: unlines (b.imports.statements.map ImportStatement.text) ::
    b.blocks.map ExposeBlock.text)

end Bridge

end CallBridge.Generated
