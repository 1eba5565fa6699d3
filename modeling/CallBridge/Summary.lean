import CallBridge.Path

/-! # Summary of a run -/
namespace CallBridge

inductive OutputStatus where
  | written
  | unchanged
  | stale
  deriving DecidableEq, Repr, Inhabited

def OutputStatus.text : OutputStatus → String
  | written => "written"
  | unchanged => "unchanged"
  | stale => "stale"

structure OutputReport where
  name : String
  path : Path
  status : OutputStatus
  deriving DecidableEq, Repr, Inhabited

structure Summary where
  files : Nat
  methods : Nat
  namespaces : List String
  outputs : List OutputReport
  deriving DecidableEq, Repr, Inhabited

def Summary.isStale (s : Summary) : Bool :=
  s.outputs.any (·.status == .stale)

end CallBridge
