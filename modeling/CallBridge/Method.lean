import CallBridge.Path.Specifier

/-! # Exposed methods

The record of a declaration that is marked for exposure: its place in the call surface, its
signature, and the module that declares it.
-/
namespace CallBridge

inductive Export where
  | named
  | default
  | none
  deriving DecidableEq, Repr, Inhabited

def Export.isExported : Export → Bool
  | none => false
  | _ => true

/-- What a call yields: one value at once, one value later, or a stream of values. -/
inductive ReturnShape where
  | value (type : String)
  | asyncValue (type : String)
  | asyncStream (type : String)
  deriving DecidableEq, Repr, Inhabited

namespace ReturnShape

def isStream : ReturnShape → Bool
  | asyncStream _ => true
  | _ => false

def inner : ReturnShape → String
  | value t | asyncValue t | asyncStream t => t

end ReturnShape

structure Parameter where
  name : String
  type : String
  optional : Bool
  rest : Bool
  deriving DecidableEq, Repr, Inhabited

inductive ImportedName where
  | named (name : String)
  | default
  deriving DecidableEq, Repr, Inhabited

/-- A type that a signature mentions by the name `name`. -/
structure TypeRef where
  name : String
  imported : ImportedName
  module : ModuleRef
  deriving DecidableEq, Repr, Inhabited

/-- A declaration marked for exposure. The class is present for instance methods only, and the
export is that of the class for them. -/
structure Method where
  namespaceName : String
  name : String
  className : Option String
  parameters : List Parameter
  shape : ReturnShape
  file : Path
  line : Nat
  exported : Export
  typeRefs : List TypeRef
  deriving DecidableEq, Repr, Inhabited

namespace Method

def key (m : Method) : String :=
  m.namespaceName ++ ":" ++ m.name

/-- `Class.method` for instance methods, the bare name otherwise. -/
def qualifier (m : Method) : String :=
  match m.className with
  | some c => c ++ "." ++ m.name
  | none => m.name

/-- The top-level binding that has to be imported to call the method. -/
def binding (m : Method) : String :=
  m.className.getD m.name

def location (m : Method) : String :=
  s!"{m.file.text}:{m.line}"

end Method

structure Owner where
  name : String
  file : Path
  deriving DecidableEq, Repr, Inhabited

namespace Owner

def same (a b : Owner) : Bool :=
  a.name == b.name && a.file.same b.file

def compare (a b : Owner) : Ordering :=
  (Ord.compare a.name b.name).then (a.file.compare b.file)

def le (a b : Owner) : Bool :=
  (a.compare b).isLE

/-- Owners in order, of those that are the same the last one given. -/
def sortDistinct (os : List Owner) : List Owner :=
  sortedDistinct le same os

end Owner

def Method.owner (m : Method) : Owner :=
  ⟨m.binding, m.file⟩

def Method.ownerClass? (m : Method) : Option Owner :=
  m.className.map fun c => ⟨c, m.file⟩

end CallBridge
