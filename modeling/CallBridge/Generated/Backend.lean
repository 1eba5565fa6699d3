import CallBridge.Generated.ImportSet
import CallBridge.Generated.Layout
import CallBridge.Surface
import CallBridge.Text.Name

/-! # The backend module

The module that registers every exposed method with the runtime. It imports the owners of the
methods, creates one instance of each owner class, and registers a handler for each channel.

Owners of different files may share a name. The first one in the order of the surface keeps it, and
later ones are imported under a name that their namespace qualifies.
-/
namespace CallBridge.Generated

/-- The names that are tried for a preferred one: that name itself, then the one that the namespace
qualifies, and then the latter with the numbers from 2 on. -/
def candidate (preferred namespaceName : String) : Nat → String
  | 0 => preferred
  | 1 => namespaceName ++ "_" ++ preferred
  | n + 2 => namespaceName ++ "_" ++ preferred ++ "_" ++ toString (n + 2)

/-- No name is tried twice: the first two differ in length from each other and from all others, and
those differ in their numbers. -/
theorem candidate_injective (preferred namespaceName : String) :
    Function.Injective (candidate preferred namespaceName) := by
  intro i j h
  match i, j with
  | 0, 0 => rfl
  | 1, 1 => rfl
  | i + 2, j + 2 =>
    have hl := congrArg String.toList h
    simp only [candidate, String.toList_append] at hl
    exact Text.toString_injective (String.toList_inj.mp (List.append_cancel_left hl))
  | 0, 1 | 0, j + 2 | 1, 0 | 1, j + 2 | i + 2, 0 | i + 2, 1 =>
    have hlengths := congrArg String.length h
    have hmark : "_".length = 1 := rfl
    simp only [candidate, String.length_append, hmark] at hlengths
    omega

def untried (taken : List String) (preferred namespaceName : String) (n : Nat) : List String :=
  taken.filter fun name => (List.range n).all fun i => candidate preferred namespaceName i != name

theorem untried_succ_length_lt {taken : List String} {preferred namespaceName : String} {n : Nat}
    (h : candidate preferred namespaceName n ∈ taken) :
    (untried taken preferred namespaceName (n + 1)).length <
      (untried taken preferred namespaceName n).length := by
  have hstep : untried taken preferred namespaceName (n + 1) =
      (untried taken preferred namespaceName n).filter
        (candidate preferred namespaceName n != ·) := by
    rw [untried, untried, List.filter_filter]
    refine List.filter_congr fun name _ => ?_
    rw [List.range_succ, List.all_append, List.all_cons, List.all_nil, Bool.and_true, Bool.and_comm]
  have hbefore : candidate preferred namespaceName n ∈ untried taken preferred namespaceName n := by
    refine List.mem_filter.mpr ⟨h, List.all_eq_true.mpr fun i hi => bne_iff_ne.mpr fun he => ?_⟩
    have hin := candidate_injective preferred namespaceName he
    exact Nat.ne_of_lt (List.mem_range.mp hi) hin
  rw [hstep]
  exact List.length_filter_lt_length_iff_exists.mpr ⟨_, hbefore, by simp⟩

/-- The number of the first free candidate from `n` on. Each candidate that is taken leaves fewer
taken names that were not tried. -/
def firstFree (taken : List String) (preferred namespaceName : String) (n : Nat) : Nat :=
  if candidate preferred namespaceName n ∈ taken then
    firstFree taken preferred namespaceName (n + 1)
  else n
termination_by (untried taken preferred namespaceName n).length
decreasing_by exact untried_succ_length_lt ‹_›

/-- The first free name among the candidates for a preferred one. -/
def claim (taken : List String) (preferred namespaceName : String) : String :=
  candidate preferred namespaceName (firstFree taken preferred namespaceName 0)

/-- The names of a backend module: those in use, and those given to owners and instances. -/
structure Names where
  taken : List String := []
  imports : List (Owner × String) := []
  instances : List (Owner × String) := []
  deriving Repr, Inhabited

namespace Names

def lookup (o : Owner) (entries : List (Owner × String)) : Option String :=
  (entries.find? fun e => e.1.same o).map Prod.snd

def import? (n : Names) (o : Owner) : Option String :=
  lookup o n.imports

def instance? (n : Names) (o : Owner) : Option String :=
  lookup o n.instances

def importOf (n : Names) (o : Owner) : String :=
  (n.import? o).getD o.name

/-- The name of the instance of a class, the usual one if none was given. -/
def instanceOf (n : Names) (o : Owner) : String :=
  (n.instance? o).getD o.instanceName

def reserve (n : Names) (name : String) : Names :=
  { n with taken := n.taken ++ [name] }

def bindImport (n : Names) (o : Owner) (namespaceName : String) : Names :=
  let name := claim n.taken o.name namespaceName
  { n.reserve name with imports := n.imports ++ [(o, name)] }

def bindInstance (n : Names) (m : Method) : Names :=
  match m.ownerClass? with
  | none => n
  | some o =>
    match n.instance? o with
    | some _ => n
    | none =>
      let name := claim n.taken o.instanceName m.namespaceName
      { n.reserve name with instances := n.instances ++ [(o, name)] }

end Names

structure Instance where
  name : String
  className : String
  deriving DecidableEq, Repr, Inhabited

def Instance.text (i : Instance) : String :=
  "const " ++ i.name ++ " = new " ++ i.className ++ "();"

/-- What is called for a channel: a function, or a method of an instance. -/
inductive Handler where
  | function (name : String)
  | bound (instanceName method : String)
  deriving DecidableEq, Repr, Inhabited

def Handler.text : Handler → String
  | function name => name
  | bound i m => i ++ "." ++ m ++ ".bind(" ++ i ++ ")"

/-- The registration of a handler for a channel of values or of streams. -/
structure Registration where
  stream : Bool
  key : String
  handler : Handler
  deriving DecidableEq, Repr, Inhabited

def registerName : String := "register"

def registerStreamName : String := "registerStream"

def Registration.text (r : Registration) : String :=
  (if r.stream then registerStreamName else registerName) ++ "(" ++ Text.literal r.key ++ ", " ++
    r.handler.text ++ ");"

structure Backend where
  imports : ImportSet
  instances : List Instance
  registrations : List Registration

namespace Backend

def runtimeNames (ms : List Method) : List String :=
  (if ms.any (!·.shape.isStream) then [registerName] else []) ++
    (if ms.any (·.shape.isStream) then [registerStreamName] else [])

def importRuntime (runtime : String) (acc : Names × ImportSet) (name : String) :
    Except Failure (Names × ImportSet) := do
  let imports ← acc.2.add name ⟨runtime, .named name⟩
  return (acc.1.reserve (claim acc.1.taken name ""), imports)

def importedName (m : Method) : ImportedName :=
  match m.exported with
  | .default => .default
  | _ => .named m.binding

def importOwner (output : Path) (acc : Names × ImportSet) (m : Method) :
    Except Failure (Names × ImportSet) :=
  match acc.1.import? m.owner with
  | some _ => .ok acc
  | none => do
    let names := acc.1.bindImport m.owner m.namespaceName
    let source := ⟨(ModuleRef.file m.file).specifier output, importedName m⟩
    let imports ← acc.2.add (names.importOf m.owner) source
    return (names, imports)

def handler (names : Names) (m : Method) : Handler :=
  match m.className with
  | some _ => .bound (names.instanceOf m.owner) m.name
  | none => .function (names.importOf m.owner)

/-- The names and imports of the module in the file `output`. -/
def bindings (s : Surface) (output : Path) (runtime : String) :
    Except Failure (Names × ImportSet) := do
  let start ← (runtimeNames s.methods).foldlM (importRuntime runtime)
    (({} : Names), ImportSet.empty output.text false)
  let (names, imports) ← s.methods.foldlM (importOwner output) start
  return (s.methods.foldl Names.bindInstance names, imports)

/-- The module for a surface, to be written to `output`. -/
def ofSurface (s : Surface) (output : Path) (runtime : String) : Except Failure Backend := do
  let (names, imports) ← bindings s output runtime
  return {
    imports
    instances := s.instances.map fun o => ⟨names.instanceOf o, names.importOf o⟩
    registrations := s.methods.map fun m => ⟨m.shape.isStream, m.key, handler names m⟩ }

def text (b : Backend) : String :=
  layout [header, unlines (b.imports.statements.map ImportStatement.text),
    unlines (b.instances.map Instance.text), unlines (b.registrations.map Registration.text)]

end Backend

end CallBridge.Generated
