import CallBridge.FileTree

/-! # Disks

A disk is a file tree together with the accesses that it refuses. An action on a disk may change
the tree and then fail, and what it changed stays changed; but one file is always replaced as a
whole, by a file that was filled under another name. Each access may be refused at any point of an
action, so what is refused depends on the tree as it is then.
-/
namespace CallBridge

inductive Access where
  | read (path : Path)
  | compare (path : Path)
  | makeDirectory (path : Path)
  | createTemporary (path : Path)
  | fill (path : Path)
  | replace (path : Path)
  deriving DecidableEq, Repr, Inhabited

/-- A file tree, and why an access is refused while the tree is a given one, if it is. -/
structure Disk where
  tree : FileTree
  refuses : FileTree → Access → Option FileFault := fun _ _ => none

abbrev DiskAction := ExceptT FileFault (StateM Disk)

namespace Disk

def allow (d : Disk) (a : Access) : Except FileFault Unit :=
  match d.refuses d.tree a with
  | some fault => .error fault
  | none => .ok ()

def read (d : Disk) (here : Location) (p : Path) : Except FileFault ByteArray := do
  d.allow (.read p)
  d.tree.read here p

def holdsText (d : Disk) (p : Path) (text : String) : Bool :=
  match d.allow (.compare p), d.tree.read [] p with
  | .ok _, .ok bytes => bytes == text.toUTF8
  | _, _ => false

def update (change : FileTree → Except FileFault FileTree) : DiskAction Unit := do
  let d ← get
  match change d.tree with
  | .ok tree => set { d with tree }
  | .error fault => throw fault

def demand (a : Access) : DiskAction Unit := do
  match (← get).allow a with
  | .ok _ => return
  | .error fault => throw fault

def makeDirectory (here : Location) (p : Path) : DiskAction Unit := do
  demand (.makeDirectory p)
  update fun t => do t.makeDirectory (← t.locate here p)

/-- Make the directory with the given steps, the last one first, and those that are missing on the
way to it. -/
def makeDirectories (here : Location) : List Component → DiskAction Unit
  | [] => return
  | last :: before => do
    let p := Path.ofComponents (last :: before).reverse
    let unlessThere (fault : FileFault) : DiskAction Unit := do
      if (← get).tree.isDirectory here p then return else throw fault
    try
      makeDirectory here p
    catch
      | .missing => do
        makeDirectories here before
        try makeDirectory here p catch fault => unlessThere fault
      | fault => unlessThere fault

def write (here : Location) (p : Path) (text : String) : DiskAction Unit :=
  update fun t => t.write here p text.toUTF8

/-- Create an empty file under a free name in the directory of a path. -/
def createTemporary (p directory : Path) : DiskAction Location := do
  demand (.createTemporary p)
  let t := (← get).tree
  let temporary := t.freePlace (← t.locate [] directory)
  update fun t => t.writeFile temporary .empty
  return temporary

def fill (p : Path) (temporary : Location) (text : String) : DiskAction Unit := do
  demand (.fill p)
  update fun t => t.writeFile temporary text.toUTF8

def rename (p : Path) (temporary : Location) : DiskAction Unit := do
  demand (.replace p)
  update fun t => do
    let l ← t.locate [] p
    if p.namesDirectory then throw .isDirectory else t.moveFile temporary l

/-- Make the directories that lead to a file, and put a file filled with a text in its place. A file
that cannot take its place is removed. -/
def replace (p : Path) (text : String) : DiskAction Unit := do
  let directory := p.parent?.getD ⟨"."⟩
  makeDirectories [] directory.components.reverse
  let temporary ← createTemporary p directory
  try
    fill p temporary text
    rename p temporary
  catch fault => do
    modify fun d => { d with tree := d.tree.remove temporary }
    throw fault

end Disk

end CallBridge
