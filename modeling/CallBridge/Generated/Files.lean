import CallBridge.Generated.Backend
import CallBridge.Generated.Bridge
import CallBridge.Generated.Types

/-! # The three generated files -/
namespace CallBridge.Generated

structure Outputs where
  backend : Path
  bridge : Path
  types : Path
  deriving DecidableEq, Repr, Inhabited

/-- The three outputs with their names, in the order in which they are written. -/
def Outputs.named (o : Outputs) : List (String × Path) :=
  [("backend", o.backend), ("bridge", o.bridge), ("types", o.types)]

def Outputs.contains (o : Outputs) (p : Path) : Bool :=
  o.named.any fun e => e.2.same p

structure Runtime where
  backend : String
  bridge : String
  deriving DecidableEq, Repr, Inhabited

structure Texts where
  backend : String
  bridge : String
  types : String
  deriving DecidableEq, Repr, Inhabited

def Texts.files (t : Texts) (o : Outputs) : List (Path × String) :=
  [(o.backend, t.backend), (o.bridge, t.bridge), (o.types, t.types)]

def texts (s : Surface) (o : Outputs) (r : Runtime) : Except Failure Texts := do
  let backend ← Backend.ofSurface s o.backend r.backend
  let bridge ← Bridge.ofSurface s r.bridge
  let types ← Types.ofSurface s o.types
  return ⟨backend.text, bridge.text, types.text⟩

end CallBridge.Generated
