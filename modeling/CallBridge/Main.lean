import CallBridge.Command.Execution

/-! # The command line

The part of the disk that a request looks at is read into a file tree, the request is answered on
the tree, and what changed in it is written back.
-/
namespace CallBridge.Main

def depthLimit : Nat := 256

private def pathOf (l : Location) : Path :=
  (⟨"/"⟩ : Path).extend l

private def isDirectory (l : Location) : IO Bool := do
  try
    (← IO.FS.realPath (pathOf l).text).isDir
  catch _ => return false

private def addDirectory (t : FileTree) (l : Location) : FileTree :=
  match t.makeDirectory l with
  | .ok t => t
  | .error _ => t

private def addFile (t : FileTree) (l : Location) : IO FileTree := do
  try
    match t.writeFile l (← IO.FS.readBinFile (pathOf l).text) with
    | .ok t => return t
    | .error _ => return t
  catch _ => return t

/-- Add what stands at a location, and the directories that lead to it. -/
def load (t : FileTree) (l : Location) : IO FileTree := do
  let mut t := t
  for n in List.range l.length do
    if ← isDirectory (l.take n) then
      t := addDirectory t (l.take n)
  if ← isDirectory l then
    return addDirectory t l
  else
    addFile t l

/-- Add a directory with all below it that a search for sources comes to. -/
def loadBelow (t : FileTree) (l : Location) : (depth : Nat) → IO FileTree
  | 0 => return t
  | depth + 1 => do
    let mut t := t
    for entry in ← (← IO.FS.realPath (pathOf l).text).readDir do
      let here := l ++ [entry.fileName]
      if ← isDirectory here then
        t := addDirectory t here
        if !isSkippedDirectory entry.fileName then
          t ← loadBelow t here depth
      else if (pathOf here).isSource then
        t ← addFile t here
    return t

private def optionsOf? : Command.Request → Option Command.RunOptions
  | .generate o | .check o => some o
  | .init _ => none

def loadFor (here : Path) (r : Command.Request) : IO FileTree := do
  let mut t ← load .empty here.location
  match r with
  | .init output => load t (Path.absolutize here output).location
  | _ =>
    let o := (optionsOf? r).getD default
    t ← load t (Path.absolutize here (o.config.getD ⟨Settings.fileName⟩)).location
    let d : Disk := { tree := t }
    match Command.settingsOf d here (Command.settingsPath? d here o.config) with
    | .error _ => return t
    | .ok (s, _) =>
      for p in o.files do
        t ← load t (Path.absolutize here p).location
      for (_, p) in s.resolvedOutputs.named do
        t ← load t p.location
      t ← load t s.base.location
      if o.files.isEmpty && (← isDirectory s.base.location) then
        t ← loadBelow t s.base.location depthLimit
      return t

/-- Write the files that are not as they were. Each one takes its place as a whole. -/
def store (before after : FileTree) : IO Unit := do
  for (l, bytes) in after.files do
    if before.get? l != some (.file bytes) then
      IO.FS.createDirAll (pathOf l.dropLast).text
      let filled := (pathOf l).text ++ ".new"
      IO.FS.writeBinFile filled bytes
      IO.FS.rename filled (pathOf l).text

def usage : String :=
  "usage: bridgegen generate [-c FILE] [-f pretty|json] [--deny-warnings] [FILE ...]\n" ++
  "       bridgegen check [-c FILE] [-f pretty|json] [FILE ...]\n" ++
  "       bridgegen init [-o FILE]\n"

end CallBridge.Main

def main (arguments : List String) : IO UInt32 := do
  match CallBridge.Command.Request.ofArguments arguments with
  | .error stop =>
    match stop with
    | .version => IO.print ("bridgegen " ++ CallBridge.Report.version ++ "\n")
    | .help => IO.print CallBridge.Main.usage
    | _ => IO.eprint CallBridge.Main.usage
    return stop.exit.toUInt32
  | .ok request =>
    let here : CallBridge.Path := ⟨(← IO.FS.realPath ".").toString⟩
    let tree ← CallBridge.Main.loadFor here request
    let (reply, disk) := CallBridge.Command.execute { tree } here false request
    CallBridge.Main.store tree disk.tree
    IO.print reply.out
    IO.eprint reply.err
    return reply.exit.toUInt32
