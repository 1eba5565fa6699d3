import CallBridge.Distinct
import CallBridge.Text.Blank

/-! # Paths

A path is the text that names a file. What the text means is its list of components: repeated and
trailing separators vanish, and so does a `.` that is not in front. Two paths name the same file if
their components agree, and paths are ordered component by component.

`normalize` resolves `.` and `..` by the text alone, and `relative` leads from one directory to a
file.
-/
namespace CallBridge

inductive Component where
  | root
  | current
  | parent
  | normal (name : String)
  deriving DecidableEq, Repr, Inhabited

namespace Component

def text : Component → String
  | root => "/"
  | current => "."
  | parent => ".."
  | normal name => name

def rank : Component → Nat
  | root => 0
  | current => 1
  | parent => 2
  | normal _ => 3

def compare : Component → Component → Ordering
  | normal a, normal b => Ord.compare a b
  | a, b => Ord.compare a.rank b.rank

def compareAll : List Component → List Component → Ordering
  | [], [] => .eq
  | [], _ :: _ => .lt
  | _ :: _, [] => .gt
  | a :: as, b :: bs => (compare a b).then (compareAll as bs)

end Component

def isFileName (s : String) : Bool :=
  s != "" && s != "." && s != ".." && !s.toList.contains '/'

structure Path where
  text : String
  deriving DecidableEq, Repr, Inhabited

namespace Path

def isAbsolute (p : Path) : Bool :=
  p.text.toList.head? == some '/'

/-- The step that a piece between two `/` stands for. A `.` counts only in front. -/
def component? (first : Bool) : List Char → Option Component
  | [] => none
  | ['.'] => if first then some .current else none
  | ['.', '.'] => some .parent
  | name => some (.normal (String.ofList name))

def components (p : Path) : List Component :=
  match Text.splitAt '/' p.text.toList with
  | [] => []
  | first :: rest =>
    let tail := rest.filterMap (component? false)
    if p.isAbsolute then .root :: tail else (component? true first).toList ++ tail

def namesDirectory (p : Path) : Bool :=
  p.text.endsWith "/" || p.text.endsWith "/."

def same (p q : Path) : Bool :=
  p.components == q.components

def compare (p q : Path) : Ordering :=
  Component.compareAll p.components q.components

def le (p q : Path) : Bool :=
  (p.compare q).isLE

/-- Append a text, separated from what is there; an absolute text stands for itself. -/
def join (base p : Path) : Path :=
  if p.isAbsolute || base.text.isEmpty then p
  else if base.text.endsWith "/" then ⟨base.text ++ p.text⟩
  else ⟨base.text ++ "/" ++ p.text⟩

def push (p : Path) (c : Component) : Path :=
  p.join ⟨c.text⟩

def ofComponents (cs : List Component) : Path :=
  cs.foldl push ⟨""⟩

/-- One step of resolution on the components so far, the last one first. -/
def resolveStep : List Component → Component → List Component
  | done, .current => done
  | .normal _ :: done, .parent => done
  | [], .parent => [.parent]
  | .root :: done, .parent => .root :: done
  | .parent :: done, .parent => .parent :: .parent :: done
  | .current :: done, .parent => .parent :: .current :: done
  | done, c => c :: done

/-- Components without `.`, and with `..` only where nothing is left to climb out of. -/
def resolve (cs : List Component) : List Component :=
  (cs.foldl resolveStep []).reverse

/-- The path with `.` and `..` resolved by the text alone. -/
def normalize (p : Path) : Path :=
  ofComponents (resolve p.components)

/-- The normalized path, read from `base` if it is relative. -/
def absolutize (base p : Path) : Path :=
  if p.isAbsolute then p.normalize else (base.join p).normalize

def commonLength : List Component → List Component → Nat
  | a :: as, b :: bs => if a = b then commonLength as bs + 1 else 0
  | _, _ => 0

def relativeComponents (source target : List Component) : List Component :=
  let n := commonLength source target
  List.replicate (source.length - n) .parent ++ target.drop n

/-- The path that leads from the directory `source` to `target`. -/
def relative (source target : Path) : Path :=
  ofComponents (relativeComponents source.components target.components)

/-- The path without its last component, if it has one to lose. -/
def parent? (p : Path) : Option Path :=
  match p.components.getLast? with
  | none | some .root => none
  | some _ => some (ofComponents p.components.dropLast)

def fileName? (p : Path) : Option String :=
  match p.components.getLast? with
  | some (.normal name) => some name
  | _ => none

/-- What follows the last dot of the file name. A dot in front does not count. -/
def extension? (p : Path) : Option String :=
  p.fileName?.bind fun name =>
    let back := name.toList.reverse
    let ext := back.takeWhile (· ≠ '.')
    match back.dropWhile (· ≠ '.') with
    | _ :: _ :: _ => some (String.ofList ext.reverse)
    | _ => none

/-- The path below `base`, or the path itself if it is not below. -/
def below (base p : Path) : Path :=
  let b := base.components
  let cs := p.components
  if b.isPrefixOf cs then ofComponents (cs.drop b.length) else p

/-- Paths in order, of those that name the same file the last one given. -/
def sortDistinct (ps : List Path) : List Path :=
  sortedDistinct le same ps

end Path

end CallBridge
